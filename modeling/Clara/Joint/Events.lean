import Clara.Joint.Marshalling
import Clara.Joint.Transfer

/-! The events that enqueue functions return: what a consumer fetches from the place its event
pointer names, and what becomes of it when there is no event. -/
namespace Clara.Joint

open Conc

variable {Cl : Type} {g : Session Cl} {x : Trio Cl} {y : Pair Cl} {provider : Agent.Provider}

/-- The number of the event pointer among the arguments. -/
def eventArg : ClFunction → Option ℕ
  | .enqueueReadBuffer | .enqueueWriteBuffer | .enqueueCopyBuffer | .enqueueNDRangeKernel => some 9
  | .enqueueTask => some 5
  | .enqueueMarker => some 2
  | _ => none

/-- A call of one of these functions, and what comes of it at the provider: its status, and what
is then in the eight bytes that the event pointer names. -/
structure Enqueue (Cl : Type) where
  d : ClFunction
  n : ℕ
  entry : Provider.Handler Cl × List ℕ
  func : Arg
  hint : GlobalId
  args : List Arg
  handle : Handle
  allocation : Provider.Allocation
  buf : Buffer Provider.recvbufsz
  after : Provider.State Cl
  status : Arg
  event : Arg

namespace Enqueue
variable (e : Enqueue Cl)

def bytes : Bytes := executeBytes e.func e.hint e.args

/-- The call can be made, and the outcome is that of the provider's handler. -/
structure Valid (g : Session Cl) (x : Trio Cl) (y : Pair Cl) : Prop where
  eventArg : eventArg e.d = some e.n
  function : Provider.execFunTable g.lib e.d = some e.entry
  requests : Requests g x.pair.agent y.provider.idMap e.d e.entry.2 e.func e.hint e.args
  consumer : (x.pair.agent.heap .consumer g.c).isSome
  pointer : e.args[e.n - 1]? = some e.handle
  handle_ne : e.handle ≠ invalidHandle
  held : y.provider.Holds e.handle e.allocation (List.replicate 8 0)
  prepared : Provider.prepare (Provider.execFunTable g.lib)
    (Provider.providerIdMap y.provider.idMap) (y.provider.took e.bytes).buf 0 =
      .call e.d e.entry.1 e.args.length e.buf
  result : e.entry.1 (Provider.argvOf e.buf) { y.provider.took e.bytes with buf := e.buf } =
    .done e.after e.status
  written : e.after.mem e.allocation.ptr = some (Bytes.word e.event)

def answered (y : Pair Cl) : Pair Cl :=
  y.served { e.after with buf := Provider.setArgv e.after.buf 0 e.status }
    [.msg Msg.executeRequest e.bytes] [.msg Msg.executeResponse (Bytes.word e.status)]

/-- The consumer fetches the id of the event: a new one, under which the agent knows a new object
of this consumer and the provider the event that the library created. -/
def Mapped (g : Session Cl) (x : Trio Cl) (fuel retbuflen : ℕ) : Prop :=
  ∃ z z' v a o, call g (Consumer.consumerExecute e.func retbuflen e.hint e.args) x =
      .done z (some ((Bytes.word e.status).take retbuflen)) ∧
    call g (Consumer.consumerFetch g.lzo fuel e.handle 8 e.hint) z =
      .done z' (true, Bytes.word v) ∧
    v ∉ x.pair.agent.sets .idPool ∧ v ∉ x.pair.agent.sets .objects ∧
    (z.pair.agent.sets .objects).lookup v = some a ∧
    z.pair.agent.heap .object a = some o ∧ o.id = v ∧ o.provider = g.p ∧
    o.consumer = some g.c ∧ o.refcnt = 1 ∧ z.pair.provider.idMap.lookup v = some e.event

/-- The call returns its status; nothing has been added to the tables, and the consumer fetches
`NULL`. -/
def LeavesNoTrace (g : Session Cl) (x : Trio Cl) (y : Pair Cl) (fuel retbuflen : ℕ) : Prop :=
  ∃ z z', call g (Consumer.consumerExecute e.func retbuflen e.hint e.args) x =
      .done z (some ((Bytes.word e.status).take retbuflen)) ∧
    call g (Consumer.consumerFetch g.lzo fuel e.handle 8 e.hint) z =
      .done z' (true, Bytes.word 0) ∧
    z.pair.agent.sets .objects = x.pair.agent.sets .objects ∧
    z.pair.agent.sets .idPool = x.pair.agent.sets .idPool ∧
    z.pair.provider.idMap = y.provider.idMap

end Enqueue

variable {e : Enqueue Cl}

theorem postHandler_eventArg {d : ClFunction} {n : ℕ} (h : eventArg d = some n)
    (hd : d ≠ .enqueueMarker) (lzo : Lzo) (fuel : ℕ) :
    Agent.postHandler lzo fuel d = Agent.agentGenericMapEvent n := by
  cases d <;> first
    | cases h; rfl
    | exact absurd rfl hd
    | cases h

theorem eventArg_pos {d : ClFunction} {n : ℕ} (h : eventArg d = some n) : 1 ≤ n := by
  cases d <;> first
    | cases h; decide
    | cases h

theorem countsReferences_eventArg {d : ClFunction} {n : ℕ} (h : eventArg d = some n) :
    Agent.countsReferences d = false := by
  cases d <;> first
    | rfl
    | cases h

/-- The call is its second phase, from the state in which the provider has answered. -/
theorem Ready.call_enqueue (h : Ready g provider x y) (hb : Agent.Serviceable x.pair.agent)
    (he : e.Valid g x y) (retbuflen : ℕ) :
    ∃ params, params.argv 0 = e.status ∧ params.argv e.n = e.handle ∧
      call g (Consumer.consumerExecute e.func retbuflen e.hint e.args) x =
        ((run g.toSetting (.consumer g.c) (Agent.postHandler g.lzo g.fuel e.d params (some g.p)
          g.c) (e.answered y)).map (fun z => (⟨.wire [] [], z⟩ : Trio Cl)) .server).bind
            fun z params' => .done z (some ((Bytes.word (params'.argv 0)).take retbuflen)) := by
  obtain ⟨s, params, hs, hsame, h0, hargs, hcall⟩ := h.call_consumerExecute hb he.requests
    he.function he.prepared he.result retbuflen
  obtain ⟨n, hx⟩ := h.exists_agent
  have hagent : y.onAgent (fun s' => s.withNet s'.net) = y := by
    rw [hsame (countsReferences_eventArg he.eventArg), hx]
    rfl
  have hanswered : y.executed s e.after (executeBytes e.func e.hint e.args) e.status =
      e.answered y := by
    rw [Pair.executed, hagent]
    rfl
  rw [hanswered] at hcall
  refine ⟨params, h0, ?_, hcall⟩
  have hpos := eventArg_pos he.eventArg
  obtain ⟨hlt, hget⟩ := List.getElem?_eq_some_iff.mp he.pointer
  have harg := hargs (e.n - 1) hlt
  rw [Nat.sub_add_cancel hpos] at harg
  rw [harg, hget]

structure Enqueue.Answered (e : Enqueue Cl) (y w : Pair Cl) : Prop where
  agent : w.agent = y.agent
  idMap : w.provider.idMap = y.provider.idMap
  sound : w.provider.Sound
  held : w.provider.Holds e.handle e.allocation (Bytes.word e.event)

theorem Enqueue.Valid.answered (he : e.Valid g x y) (hs : y.provider.Sound) :
    e.Answered y (e.answered y) := by
  have hfunction : Provider.execFunTable g.lib e.d = some (e.entry.1, e.entry.2) := he.function
  have hkept := (Provider.keeping_handler g.lib hfunction (Provider.argvOf e.buf)).kept _ _ _
    he.result
  have hidMap : e.after.idMap = y.provider.idMap := hkept.idMap
  have hallocations : e.after.allocations = y.provider.allocations := hkept.allocations
  refine ⟨rfl, hidMap, ⟨?_, ?_, ?_⟩, ⟨?_, ?_, he.written, ?_, he.held.ptr⟩⟩
  · exact (congrArg IdSet.damaged hidMap).trans hs.idMap
  · exact (congrArg IdSet.damaged hallocations).trans hs.allocations
  · intro handle a ha
    exact hs.keyed handle a ((congrArg (IdSet.lookup · handle) hallocations).symm.trans ha)
  · exact (congrArg (IdSet.lookup · e.handle) hallocations).trans he.held.allocation
  · exact (congrArg (IdSet.lookup · e.handle) hidMap).trans he.held.mapping
  · rw [← he.held.length, Bytes.length_word, List.length_replicate]

theorem Enqueue.Valid.ready (he : e.Valid g x y) (h : Ready g provider x y) :
    Ready g provider ⟨.wire [] [], e.answered y⟩ (e.answered y) :=
  .of_quiet (h.settles.quiet.served ..) h.conn h.phase (h.attached.of_heap rfl)
    (he.answered h.sound).sound

/-- The pool and the tables are those before the call. -/
theorem Ready.sets (h : Ready g provider x y) : y.agent.sets = x.pair.agent.sets := by
  obtain ⟨n, hx⟩ := h.exists_agent
  rw [hx]
  rfl

theorem Ready.nextId_eq (h : Ready g provider x y) :
    y.agent.nextId = x.pair.agent.nextId := by
  obtain ⟨n, hx⟩ := h.exists_agent
  rw [hx]
  rfl

theorem Ready.vacant_iff (h : Ready g provider x y) (c : Addr) :
    Vacant c y.agent ↔ Vacant c x.pair.agent := by
  obtain ⟨n, hx⟩ := h.exists_agent
  rw [hx]
  exact ⟨fun hv => ⟨hv.not_pooled, hv.not_object, hv.not_owned⟩,
    fun hv => ⟨hv.not_pooled, hv.not_object, hv.not_owned⟩⟩

theorem Enqueue.Answered.works {w : Pair Cl} (hw : e.Answered y w) {v : GlobalId}
    (hv : v ∉ y.provider.idMap) :
    g.Works [.msg Msg.mapatptrRequest (Bytes.words [v, e.handle])]
      [.msg Msg.mapatptrResponse (Bytes.word e.event)] w.provider
      ((w.provider.took (Bytes.words [v, e.handle])).mappedAt v e.allocation.ptr
        (Bytes.word e.event)) := by
  have hv' : v ∉ w.provider.idMap := by rwa [hw.idMap]
  have hworks : g.Works [.msg Msg.mapatptrRequest (Bytes.words [v, e.handle])]
      [.msg Msg.mapatptrResponse (Bytes.word ((Bytes.word e.event).wordAt 0))] w.provider _ :=
    Provider.works_mapatptr hw.sound hw.held.mapping hw.held.block (by simp) hv'
  rwa [Bytes.wordAt_word] at hworks

/-- The id it should take stands for something else. -/
theorem Enqueue.Answered.breaks {w : Pair Cl} (hw : e.Answered y w) {v : GlobalId}
    (hv : v ∈ y.provider.idMap) :
    g.Breaks [.msg Msg.mapatptrRequest (Bytes.words [v, e.handle])]
      (.assertion .mapatptrInsert) w.provider :=
  Provider.breaks_mapatptr hw.sound hw.held.mapping hw.held.block (by simp) (by rwa [hw.idMap])

theorem creates_of_serviceable {t : Agent.Tid} {c : Addr} {s : Agent.State}
    (hb : Agent.Serviceable s) (hc : (s.heap .consumer c).isSome) : Creates t c s where
  fresh := hb.fresh
  pool := hb.usable_pool
  objects := hb.usable_objects
  owned := hb.usable_objectsOf hc

theorem Ready.serviceable (h : Ready g provider x y) (hb : Agent.Serviceable x.pair.agent) :
    Agent.Serviceable y.agent := by
  obtain ⟨n, hx⟩ := h.exists_agent
  have hy : y.agent = x.pair.agent.withNet y.agent.net := by
    rw [hx]
    rfl
  rw [hy]
  exact hb.withNet _

theorem Enqueue.Valid.creates (he : e.Valid g x y) (h : Ready g provider x y)
    (hb : Agent.Serviceable x.pair.agent) : Creates (.consumer g.c) g.c y.agent := by
  refine creates_of_serviceable (h.serviceable hb) ?_
  obtain ⟨n, hx⟩ := h.exists_agent
  have hc := he.consumer
  rw [hx] at hc
  exact hc

def Enqueue.created (e : Enqueue Cl) (g : Session Cl) (y : Pair Cl) : Pair Cl :=
  ((e.answered y).served (((e.answered y).provider.took
    (Bytes.words [y.agent.nextId, e.handle])).mappedAt y.agent.nextId e.allocation.ptr
      (Bytes.word e.event)) [.msg Msg.mapatptrRequest (Bytes.words [y.agent.nextId, e.handle])]
        [.msg Msg.mapatptrResponse (Bytes.word e.event)]).onAgent (withNew g.p g.c e.event)

theorem Ready.call_created (h : Ready g provider x y) (hb : Agent.Serviceable x.pair.agent)
    (he : e.Valid g x y) (hevent : e.event ≠ 0) (hd : e.d ≠ .enqueueMarker)
    (hid : Vacant g.c y.agent) (hmap : y.agent.nextId ∉ y.provider.idMap) (retbuflen : ℕ) :
    call g (Consumer.consumerExecute e.func retbuflen e.hint e.args) x =
      .done ⟨.wire [] [], e.created g y⟩ (some ((Bytes.word e.status).take retbuflen)) := by
  obtain ⟨params, h0, hn, hcall⟩ := h.call_enqueue hb he retbuflen
  have hw := he.answered h.sound
  have hready := he.ready h
  have hcreates : Creates (.consumer g.c) g.c (e.answered y).agent := by
    rw [hw.agent]
    exact he.creates h hb
  have hvacant : Vacant g.c (e.answered y).agent := by rwa [hw.agent]
  have hne : params.argv e.n ≠ invalidId := by
    rw [hn]
    exact he.handle_ne
  have hworks := hw.works (g := g) hmap
  rw [← hn] at hworks
  have hrun := hready.settles.run_agentGenericMapEvent hready.attached hcreates hvacant hne hevent
    hworks
  rw [hn] at hrun
  rw [hcall, postHandler_eventArg he.eventArg hd, hrun, Outcome.map_done, Outcome.bind_done, h0]
  rfl

theorem Enqueue.Valid.ready_created (he : e.Valid g x y) (h : Ready g provider x y)
    (hb : Agent.Serviceable x.pair.agent) (hmap : y.agent.nextId ∉ y.provider.idMap) :
    Ready g provider ⟨.wire [] [], e.created g y⟩ (e.created g y) := by
  have hw := he.answered h.sound
  have hready := he.ready h
  have hv : y.agent.nextId ∉ (e.answered y).provider.idMap := by rwa [hw.idMap]
  refine .of_quiet ⟨hready.settles.quiet.agent, rfl⟩ h.conn h.phase ?_ ?_
  · exact (hready.attached.created (h.serviceable hb).fresh g.c e.event).of_heap rfl
  · exact ((hw.sound.took _).mappedAt hv _ _).withNet _

/-- The event pointer names the new id. -/
theorem Enqueue.Valid.held_created (he : e.Valid g x y) (h : Ready g provider x y)
    (hmap : y.agent.nextId ∉ y.provider.idMap) :
    (e.created g y).provider.Holds e.handle e.allocation (Bytes.word y.agent.nextId) := by
  have hw := he.answered h.sound
  have hv : y.agent.nextId ∉ (e.answered y).provider.idMap := by rwa [hw.idMap]
  have hne : e.handle ≠ y.agent.nextId := by
    intro heq
    rw [← heq] at hv
    exact hv (IdSet.mem_of_lookup hw.held.mapping)
  have hover : (Bytes.word e.event).overwrite 0 (Bytes.word y.agent.nextId) =
      Bytes.word y.agent.nextId := by
    rw [Bytes.overwrite, List.take_zero, List.nil_append, Nat.zero_add]
    simp
  refine ⟨hw.held.allocation, ?_, ?_, ?_, hw.held.ptr⟩
  · show ((e.answered y).provider.idMap.add _ _).lookup e.handle = _
    rw [IdSet.lookup_add hv, if_neg hne, hw.held.mapping]
  · show (Provider.Memory.put _ _ _) e.allocation.ptr = _
    rw [Provider.Memory.put_self, hover]
  · rw [← hw.held.length, Bytes.length_word, Bytes.length_word]

theorem Enqueue.objects_created : (e.created g y).agent.sets .objects =
    (y.agent.sets .objects).add y.agent.nextId (y.agent.next + 1) := by
  have hobjects : y.agent.withId.sets .objects = y.agent.sets .objects :=
    y.agent.withId_sets_of_ne nofun
  show (y.agent.withId.withOwned g.p g.c e.event y.agent.nextId).sets .objects = _
  rw [Agent.State.withOwned_objects, hobjects]
  rfl

theorem Enqueue.object_created (hid : y.agent.nextId ∉ y.agent.sets .objects) :
    ((e.created g y).agent.sets .objects).lookup y.agent.nextId = some (y.agent.next + 1) ∧
      (e.created g y).agent.heap .object (y.agent.next + 1) =
        some ⟨y.agent.nextId, e.event, 1, y.agent.next, g.p, some g.c⟩ := by
  constructor
  · rw [Enqueue.objects_created, IdSet.lookup_add hid, if_pos rfl]
  · exact y.agent.withId.withObject_object

theorem Hints.created {hint : GlobalId} (h : Hints g.p y.agent hint) (hf : y.agent.Fresh)
    (hid : y.agent.nextId ∉ y.agent.sets .objects) :
    Hints g.p (e.created g y).agent hint := by
  obtain ⟨hne, a, o, hlookup, ho, hp⟩ := h
  have hhint : hint ≠ y.agent.nextId := fun heq => hid (heq ▸ IdSet.mem_of_lookup hlookup)
  refine ⟨hne, a, o, ?_, ?_, hp⟩
  · rw [Enqueue.objects_created, IdSet.lookup_add hid, if_neg hhint, hlookup]
  · exact Agent.State.withOwned_read (s := y.agent.withId) hf ho

theorem Enqueue.usable_created (hb : Agent.Serviceable y.agent)
    (hid : y.agent.nextId ∉ y.agent.sets .objects) (t : Agent.Tid) :
    Agent.Usable t .objects (e.created g y).agent := by
  refine ⟨?_, (hb.usable_objects (t := t)).admits⟩
  rw [Enqueue.objects_created]
  simp [hb.objects, hid]

theorem Ready.hints (h : Ready g provider x y) {hint : GlobalId}
    (hh : Hints g.p x.pair.agent hint) : Hints g.p y.agent hint := by
  obtain ⟨n, hx⟩ := h.exists_agent
  rw [hx] at hh
  exact hh

theorem Ready.mapped (h : Ready g provider x y) (hb : Agent.Serviceable x.pair.agent)
    (hl : g.lzo.Correct) (he : e.Valid g x y) (hevent : e.event ≠ 0)
    (hg : 140 * 8 + 2 ≤ g.fuel) {fuel : ℕ} (hfuel : 2 * 8 + 68 ≤ fuel)
    (hd : e.d ≠ .enqueueMarker) (hid : Vacant g.c y.agent)
    (hmap : y.agent.nextId ∉ y.provider.idMap) (retbuflen : ℕ) :
    e.Mapped g x fuel retbuflen := by
  have hy := h.serviceable hb
  have hready := he.ready_created h hb hmap
  have hheld := he.held_created h hmap
  have hhint : Hints g.p (e.created g y).agent e.hint :=
    (h.hints he.requests.hint).created hy.fresh hid.not_object
  have hfetch := hready.call_fetched hl (Enqueue.usable_created hy hid.not_object _)
    he.handle_ne hhint hheld (n := 8) (Consumer.buffered_streamOptions (by decide)) (by simp)
    (by decide) (by simpa using hg) (by simpa using hfuel)
  obtain ⟨hlookup, hobject⟩ := Enqueue.object_created (e := e) (g := g) hid.not_object
  refine ⟨_, _, y.agent.nextId, y.agent.next + 1, _,
    h.call_created hb he hevent hd hid hmap retbuflen, hfetch, ?_, ?_, hlookup, hobject, rfl, rfl,
    rfl, rfl, ?_⟩
  · rw [← h.sets]
    exact hid.not_pooled
  · rw [← h.sets]
    exact hid.not_object
  · have hw := he.answered h.sound
    have hv : y.agent.nextId ∉ (e.answered y).provider.idMap := by rwa [hw.idMap]
    show ((e.answered y).provider.idMap.add _ _).lookup _ = _
    rw [IdSet.lookup_add hv, if_pos rfl, Bytes.wordAt_word]

theorem Ready.call_marker (h : Ready g provider x y) (hb : Agent.Serviceable x.pair.agent)
    (he : e.Valid g x y) (hd : e.d = .enqueueMarker) (retbuflen : ℕ) :
    call g (Consumer.consumerExecute e.func retbuflen e.hint e.args) x =
      .done ⟨.wire [] [], e.answered y⟩ (some ((Bytes.word e.status).take retbuflen)) := by
  obtain ⟨params, h0, -, hcall⟩ := h.call_enqueue hb he retbuflen
  rw [hcall, hd, ← h0]
  rfl

/-- A request of the other functions that the agent or the provider does not survive. -/
theorem Ready.call_fault (h : Ready g provider x y) (hb : Agent.Serviceable x.pair.agent)
    (he : e.Valid g x y) (hd : e.d ≠ .enqueueMarker) {f : Fault}
    (hrun : ∀ params : ExecuteRequest, params.argv e.n = e.handle →
      run g.toSetting (.consumer g.c) (Agent.agentGenericMapEvent e.n params (some g.p) g.c)
        (e.answered y) = .fault f) (retbuflen : ℕ) :
    call g (Consumer.consumerExecute e.func retbuflen e.hint e.args) x = .fault (.server f) := by
  obtain ⟨params, -, hn, hcall⟩ := h.call_enqueue hb he retbuflen
  rw [hcall, postHandler_eventArg he.eventArg hd, hrun params hn]
  rfl

theorem Ready.call_collision (h : Ready g provider x y) (hb : Agent.Serviceable x.pair.agent)
    (he : e.Valid g x y) (hd : e.d ≠ .enqueueMarker)
    (hpool : y.agent.nextId ∈ y.agent.sets .idPool) (retbuflen : ℕ) :
    call g (Consumer.consumerExecute e.func retbuflen e.hint e.args) x =
      .fault (.server (.agent .freedMemory)) := by
  refine h.call_fault hb he hd (fun params hn => ?_) retbuflen
  have hready := he.ready h
  have hne : params.argv e.n ≠ invalidId := by
    rw [hn]
    exact he.handle_ne
  exact hready.settles.run_mapEvent_collision hready.attached g.c (h.serviceable hb).usable_pool
    hpool hne

theorem Ready.call_taken (h : Ready g provider x y) (hb : Agent.Serviceable x.pair.agent)
    (he : e.Valid g x y) (hd : e.d ≠ .enqueueMarker)
    (hpool : y.agent.nextId ∉ y.agent.sets .idPool) (hmap : y.agent.nextId ∈ y.provider.idMap)
    (retbuflen : ℕ) :
    call g (Consumer.consumerExecute e.func retbuflen e.hint e.args) x =
      .fault (.server (.provider (.assertion .mapatptrInsert))) := by
  refine h.call_fault hb he hd (fun params hn => ?_) retbuflen
  have hready := he.ready h
  have hne : params.argv e.n ≠ invalidId := by
    rw [hn]
    exact he.handle_ne
  refine hready.settles.run_mapEvent_breaks hready.attached g.c (h.serviceable hb).usable_pool
    hpool hne ?_
  rw [hn]
  exact (he.answered h.sound).breaks hmap

theorem Ready.call_null (h : Ready g provider x y) (hb : Agent.Serviceable x.pair.agent)
    (he : e.Valid g x y) (hevent : e.event = 0) (hd : e.d ≠ .enqueueMarker)
    (hpool : y.agent.nextId ∉ y.agent.sets .idPool) (hmap : y.agent.nextId ∉ y.provider.idMap)
    (retbuflen : ℕ) :
    call g (Consumer.consumerExecute e.func retbuflen e.hint e.args) x =
      .fault (.server (.agent (.assertion .mapEventCreate))) := by
  refine h.call_fault hb he hd (fun params hn => ?_) retbuflen
  have hready := he.ready h
  have hne : params.argv e.n ≠ invalidId := by
    rw [hn]
    exact he.handle_ne
  have hworks := (he.answered h.sound).works (g := g) hmap
  rw [hevent, ← hn] at hworks
  exact hready.settles.run_mapEvent_null hready.attached g.c (h.serviceable hb).usable_pool
    hpool hne hworks

/-- The draw is left over in one of the agent's other tables. -/
theorem Ready.call_leftover (h : Ready g provider x y) (hb : Agent.Serviceable x.pair.agent)
    (he : e.Valid g x y) (hevent : e.event ≠ 0) (hd : e.d ≠ .enqueueMarker)
    (hpool : y.agent.nextId ∉ y.agent.sets .idPool) (hid : ¬ Vacant g.c y.agent)
    (hmap : y.agent.nextId ∉ y.provider.idMap) (retbuflen : ℕ) :
    ∃ f, call g (Consumer.consumerExecute e.func retbuflen e.hint e.args) x =
      .fault (.server (.agent f)) := by
  obtain ⟨params, -, hn, hcall⟩ := h.call_enqueue hb he retbuflen
  have hw := he.answered h.sound
  have hready := he.ready h
  have hcreates : Creates (.consumer g.c) g.c (e.answered y).agent := by
    rw [hw.agent]
    exact he.creates h hb
  have hne : params.argv e.n ≠ invalidId := by
    rw [hn]
    exact he.handle_ne
  have hworks := hw.works (g := g) hmap
  rw [← hn] at hworks
  obtain ⟨f, hrun⟩ := hready.settles.run_mapEvent_taken hready.attached hcreates hpool hid hne
    hevent hworks
  refine ⟨f, ?_⟩
  rw [hcall, postHandler_eventArg he.eventArg hd, hrun]
  rfl

/-- After `clEnqueueMarker` the consumer fetches what the library left. -/
theorem Ready.call_marker_fetched (h : Ready g provider x y) (hb : Agent.Serviceable x.pair.agent)
    (hl : g.lzo.Correct) (he : e.Valid g x y) (hg : 140 * 8 + 2 ≤ g.fuel) {fuel : ℕ}
    (hfuel : 2 * 8 + 68 ≤ fuel) :
    ∃ z, call g (Consumer.consumerFetch g.lzo fuel e.handle 8 e.hint)
      ⟨.wire [] [], e.answered y⟩ = .done z (true, Bytes.word e.event) := by
  have hw := he.answered h.sound
  have hu : Agent.Usable (.consumer g.c) .objects (e.answered y).agent := by
    rw [hw.agent]
    exact (h.serviceable hb).usable_objects
  have hhint : Hints g.p (e.answered y).agent e.hint := by
    rw [hw.agent]
    exact h.hints he.requests.hint
  exact ⟨_, (he.ready h).call_fetched hl hu he.handle_ne hhint hw.held (n := 8)
    (Consumer.buffered_streamOptions (by decide)) (by simp) (by decide) (by simpa using hg)
    (by simpa using hfuel)⟩

/-- There is no new object after `clEnqueueMarker`. -/
theorem Ready.not_mapped_marker (h : Ready g provider x y) (hb : Agent.Serviceable x.pair.agent)
    (he : e.Valid g x y) (hd : e.d = .enqueueMarker) (fuel retbuflen : ℕ) :
    ¬ e.Mapped g x fuel retbuflen := by
  rintro ⟨z, -, v, a, -, hcall, -, -, hv, hlookup, -⟩
  rw [h.call_marker hb he hd] at hcall
  obtain ⟨rfl, -⟩ := Outcome.done.inj hcall
  have hy : v ∈ y.agent.sets .objects := IdSet.mem_of_lookup hlookup
  rw [h.sets] at hy
  exact hv hy

/-- Exactly when the consumer fetches the id of the event. -/
theorem Ready.mapped_iff (h : Ready g provider x y) (hb : Agent.Serviceable x.pair.agent)
    (hl : g.lzo.Correct) (he : e.Valid g x y) (hevent : e.event ≠ 0)
    (hg : 140 * 8 + 2 ≤ g.fuel) {fuel : ℕ} (hfuel : 2 * 8 + 68 ≤ fuel) (retbuflen : ℕ) :
    e.Mapped g x fuel retbuflen ↔ e.d ≠ .enqueueMarker ∧ Vacant g.c x.pair.agent ∧
      x.pair.agent.nextId ∉ y.provider.idMap := by
  rw [← h.vacant_iff, ← h.nextId_eq]
  constructor
  · intro hm
    have hd : e.d ≠ .enqueueMarker := fun hd => h.not_mapped_marker hb he hd fuel retbuflen hm
    obtain ⟨z, -, v, -, -, hcall, -⟩ := hm
    have hpool : y.agent.nextId ∉ y.agent.sets .idPool := by
      intro hmem
      rw [h.call_collision hb he hd hmem] at hcall
      cases hcall
    have hmap : y.agent.nextId ∉ y.provider.idMap := by
      intro hmem
      rw [h.call_taken hb he hd hpool hmem] at hcall
      cases hcall
    refine ⟨hd, ?_, hmap⟩
    by_contra hid
    obtain ⟨f, hfault⟩ := h.call_leftover hb he hevent hd hpool hid hmap retbuflen
    rw [hfault] at hcall
    cases hcall
  · rintro ⟨hd, hid, hmap⟩
    exact h.mapped hb hl he hevent hg hfuel hd hid hmap retbuflen

/-- The agent aborts whenever an enqueue function that is followed up has created no event. -/
theorem Ready.not_leavesNoTrace (h : Ready g provider x y) (hb : Agent.Serviceable x.pair.agent)
    (he : e.Valid g x y) (hevent : e.event = 0) (hd : e.d ≠ .enqueueMarker)
    (fuel retbuflen : ℕ) : ¬ e.LeavesNoTrace g x y fuel retbuflen := by
  rintro ⟨z, -, hcall, -⟩
  by_cases hpool : y.agent.nextId ∈ y.agent.sets .idPool
  · rw [h.call_collision hb he hd hpool] at hcall
    cases hcall
  · by_cases hmap : y.agent.nextId ∈ y.provider.idMap
    · rw [h.call_taken hb he hd hpool hmap] at hcall
      cases hcall
    · rw [h.call_null hb he hevent hd hpool hmap] at hcall
      cases hcall

/-- Exactly when a call without an event leaves no trace. -/
theorem Ready.leavesNoTrace_iff (h : Ready g provider x y) (hb : Agent.Serviceable x.pair.agent)
    (hl : g.lzo.Correct) (he : e.Valid g x y) (hevent : e.event = 0)
    (hg : 140 * 8 + 2 ≤ g.fuel) {fuel : ℕ} (hfuel : 2 * 8 + 68 ≤ fuel) (retbuflen : ℕ) :
    e.LeavesNoTrace g x y fuel retbuflen ↔ e.d = .enqueueMarker := by
  constructor
  · intro hn
    by_contra hd
    exact h.not_leavesNoTrace hb he hevent hd fuel retbuflen hn
  · intro hd
    obtain ⟨z, hfetch⟩ := h.call_marker_fetched hb hl he hg hfuel
    rw [hevent] at hfetch
    refine ⟨_, z, h.call_marker hb he hd retbuflen, hfetch, ?_, ?_, ?_⟩
    · rw [← h.sets]
      rfl
    · rw [← h.sets]
      rfl
    · exact (he.answered h.sound).idMap

/-- Every call returns `status`, and puts `event` where its last argument points to. -/
def eventCl (event status : Arg) : Provider.OpenCl Unit where
  init := ()
  call _ args cl mem :=
    (cl, if event = 0 then mem else mem.put (args.getLastD 0) (some (Bytes.word event)),
      ⟨status, 0⟩)

/-- `CL_OUT_OF_RESOURCES`, -5. -/
def outOfResources : Arg := 0xfffffffffffffffb

def Session.events (event status : Arg) : Session Unit :=
  { Session.small with fuel := 2000, lib := eventCl event status }

/-- The small pair, with eight bytes of the provider for an event. -/
def Pair.events : Pair Unit where
  agent := Pair.mapped.agent
  provider := { Pair.mapped.provider with
    allocations := IdSet.empty.add 10 ⟨10, 1, 8, 1⟩
    mem := Pair.small.provider.mem.put 1 (some (List.replicate 8 0))
    draws := 1 }
  log := []

def Trio.events : Trio Unit := ⟨.wire [] [], .events⟩

theorem ready_events (event status : Arg) :
    Ready (Session.events event status) ⟨0, 2, true⟩ Trio.events Pair.events where
  idle := ⟨rfl, rfl, rfl⟩
  settles := Quiet.settles ⟨rfl, rfl⟩
  attached := ⟨rfl, rfl⟩
  sound := by
    refine ⟨rfl, rfl, fun handle a h => ?_⟩
    have h : ((IdSet.empty : IdSet Handle Provider.Allocation).add 10 ⟨10, 1, 8, 1⟩).lookup
      handle = some a := h
    rw [IdSet.lookup_add (IdSet.not_mem_empty 10)] at h
    split_ifs at h with hh
    · rw [← Option.some.inj h, hh]
    · cases h

theorem requests_events {d : ClFunction} (ptrargs : List ℕ) {func : Arg} {args : List Arg}
    (hf : ClFunction.ofArg func = some (d, args.length)) (hd : (eventArg d).isSome)
    (hargs : ∀ w ∈ args, w ∈ [0, 9, 10]) (event status : Arg) :
    Requests (Session.events event status) Trio.events.pair.agent Pair.events.provider.idMap d
      ptrargs func 9 args where
  function := hf
  info := by
    rintro rfl
    cases hd
  unload := by
    rintro rfl
    cases hd
  hint := hints_mapped
  owner h := by
    obtain ⟨n, hn⟩ := Option.isSome_iff_exists.mp hd
    rw [countsReferences_eventArg hn] at h
    cases h
  known i w hw hne _ := by
    have hmem := hargs w (List.mem_of_getElem? hw)
    simp only [List.mem_cons, List.not_mem_nil, or_false] at hmem
    obtain rfl | rfl | rfl := hmem
    · exact absurd rfl hne
    · decide
    · decide

theorem holds_events :
    Pair.events.provider.Holds 10 ⟨10, 1, 8, 1⟩ (List.replicate 8 0) where
  allocation := by decide
  mapping := by decide
  block := Provider.Memory.put_self Pair.small.provider.mem 1 (some (List.replicate 8 0))
  length := rfl
  ptr := by decide

def eventMemory (event : Arg) (mem : Provider.Memory) : Provider.Memory :=
  if event = 0 then mem else mem.put 1 (some (Bytes.word event))

theorem exists_enqueue {d : ClFunction} {n : ℕ} {entry : Provider.Handler Unit × List ℕ}
    (func : Arg) (args : List Arg) {event status : Arg} (hd : eventArg d = some n)
    (hentry : Provider.execFunTable (eventCl event status) d = some entry)
    (hfunc : ClFunction.ofArg func = some (d, args.length)) (hargs : ∀ w ∈ args, w ∈ [0, 9, 10])
    (hpointer : args[n - 1]? = some 10)
    (hresult : ∀ argv s, (∀ i, (hi : i < args.length) →
      argv (i + 1) = seenArg Pair.events.provider.idMap entry.2 (i + 1) args[i]) →
        entry.1 argv s = .done { s with mem := eventMemory event s.mem } status) :
    ∃ e : Enqueue Unit, e.Valid (Session.events event status) Trio.events
      Pair.events ∧ e.d = d ∧ e.event = event ∧ e.status = status := by
  have hrequests := requests_events entry.2 hfunc (by rw [hd]; rfl) hargs event status
  have hsound := (ready_events event status).sound
  obtain ⟨buf, hprepare, hseen⟩ := hrequests.prepare hsound hentry
  let before := { Pair.events.provider.took (executeBytes func 9 args) with buf := buf }
  have hwritten : eventMemory event before.mem 1 = some (Bytes.word event) := by
    rw [eventMemory]
    split_ifs with h0
    · rw [h0]
      exact holds_events.block
    · rw [Provider.Memory.put_self]
  refine ⟨⟨d, n, entry, func, 9, args, 10, ⟨10, 1, 8, 1⟩, buf,
    { before with mem := eventMemory event before.mem }, status, event⟩, ?_, rfl, rfl, rfl⟩
  have hhandle : (10 : Handle) ≠ invalidHandle := by decide
  exact ⟨hd, hentry, hrequests, rfl, hpointer, hhandle, holds_events, hprepare,
    hresult _ _ hseen, hwritten⟩

theorem seenArg_pointer {ptrargs : List ℕ} {i : ℕ} (h : i ∈ ptrargs) :
    seenArg Pair.events.provider.idMap ptrargs i 10 = 1 := by
  rw [seenArg, if_pos ⟨by decide, h⟩, holds_events.mapping, Option.getD_some]

theorem seenArg_zero (idMap : IdSet GlobalId Arg) (ptrargs : List ℕ) (i : ℕ) :
    seenArg idMap ptrargs i 0 = 0 := by simp [seenArg]

theorem exists_enqueueMarker (event status : Arg) :
    ∃ e : Enqueue Unit, e.Valid (Session.events event status) Trio.events
      Pair.events ∧ e.d = .enqueueMarker ∧ e.event = event ∧ e.status = status := by
  refine exists_enqueue 59 [9, 10] rfl rfl (by decide) (by simp) rfl ?_
  intro argv s hargv
  have hpointer : 2 ∈ [1, 2] := by decide
  have hlast : argv 2 = 1 := by
    have hseen := hargv 1 (by decide)
    simp only [List.getElem_cons_succ, List.getElem_cons_zero] at hseen
    rw [hseen, seenArg_pointer hpointer]
  simp [Provider.claraPassOn, Provider.callCl, eventCl, eventMemory, hlast]

theorem exists_enqueueTask (event status : Arg) :
    ∃ e : Enqueue Unit, e.Valid (Session.events event status) Trio.events
      Pair.events ∧ e.d = .enqueueTask ∧ e.event = event ∧ e.status = status := by
  refine exists_enqueue 53 [9, 9, 0, 0, 10] rfl rfl (by decide) (by simp) rfl ?_
  intro argv s hargv
  have hpointer : 5 ∈ [1, 2, 4, 5] := by decide
  have hlast : argv 5 = 1 := by
    have hseen := hargv 4 (by decide)
    simp only [List.getElem_cons_succ, List.getElem_cons_zero] at hseen
    rw [hseen, seenArg_pointer hpointer]
  have hnumber : argv 3 = 0 := by
    have hseen := hargv 2 (by decide)
    simp only [List.getElem_cons_succ, List.getElem_cons_zero] at hseen
    rw [hseen, seenArg_zero]
  have hwait : Provider.mappingTranslateListToReal (argv 4) (argv 4) 0 s = .done s 0 := rfl
  simp [Provider.claraEnqueue, Provider.callCl, eventCl, eventMemory, hlast, hwait, hnumber]

theorem correct_events (event status : Arg) : (Session.events event status).lzo.Correct :=
  literalLzo_correct

/-- A task that has been enqueued. -/
theorem mapped_enqueueTask : ∃ e : Enqueue Unit,
    e.Valid (Session.events 5 0) Trio.events Pair.events ∧ e.event ≠ 0 ∧
      e.Mapped (Session.events 5 0) Trio.events 100 4 := by
  obtain ⟨e, he, hd, hevent, -⟩ := exists_enqueueTask 5 0
  have hne : e.event ≠ 0 := by
    rw [hevent]
    decide
  refine ⟨e, he, hne, ((ready_events 5 0).mapped_iff serviceable_mapped (correct_events 5 0) he hne
    (by decide) (by decide) 4).mpr ⟨?_, ⟨by decide, by decide, by decide⟩, by decide⟩⟩
  rw [hd]
  nofun

/-- The event of a marker. -/
theorem not_mapped_enqueueMarker : ∃ e : Enqueue Unit,
    e.Valid (Session.events 5 0) Trio.events Pair.events ∧ e.event = 5 ∧
      e.status = 0 ∧ ¬ e.Mapped (Session.events 5 0) Trio.events 100 4 := by
  obtain ⟨e, he, hd, hevent, hstatus⟩ := exists_enqueueMarker 5 0
  exact ⟨e, he, hevent, hstatus, (ready_events 5 0).not_mapped_marker serviceable_mapped he hd 100 4⟩

/-- A marker that the library refuses. -/
theorem leavesNoTrace_enqueueMarker : ∃ e : Enqueue Unit,
    e.Valid (Session.events 0 outOfResources) Trio.events Pair.events ∧
      e.LeavesNoTrace (Session.events 0 outOfResources) Trio.events Pair.events 100 4 := by
  obtain ⟨e, he, hd, hevent, -⟩ := exists_enqueueMarker 0 outOfResources
  exact ⟨e, he, ((ready_events 0 outOfResources).leavesNoTrace_iff serviceable_mapped
    (correct_events 0 outOfResources) he hevent (by decide) (by decide) 4).mpr hd⟩

/-- A task that the library refuses. -/
theorem not_leavesNoTrace_enqueueTask : ∃ e : Enqueue Unit,
    e.Valid (Session.events 0 outOfResources) Trio.events Pair.events ∧
      e.status = outOfResources ∧
      ¬ e.LeavesNoTrace (Session.events 0 outOfResources) Trio.events Pair.events 100 4 := by
  obtain ⟨e, he, hd, hevent, hstatus⟩ := exists_enqueueTask 0 outOfResources
  have hne : e.d ≠ .enqueueMarker := by
    rw [hd]
    nofun
  exact ⟨e, he, hstatus,
    (ready_events 0 outOfResources).not_leavesNoTrace serviceable_mapped he hevent hne 100 4⟩

end Clara.Joint
