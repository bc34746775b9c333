import Clara.Common.Chunks
import Clara.Joint.RoundTrip

/-! A fetch of the first bytes of an allocation that the agent has itself, and of one that a
provider has: what the consumer gets, and whether the handle is gone. -/
namespace Clara.Joint

open Conc

variable {Cl : Type} {g : Session Cl} {x x' : Trio Cl} {y : Pair Cl} {provider : Agent.Provider}
  {handle handle' : Handle} {hint : GlobalId} {b : Bytes} {n : UInt64} {fuel : ℕ}

/-- What is on its way is delivered and worked off, by the consumer's thread and then by the
provider. -/
def Trio.settle (g : Session Cl) (x : Trio Cl) : Outcome (Trio Cl) SessionFault Unit :=
  (x.attend g).bind fun x _ =>
    (x.pair.attend g.toSetting).map (fun y => { x with pair := y }) .server

/-- The handle stands for nothing where the hint says that it does. -/
def Trio.Dead (g : Session Cl) (x : Trio Cl) (handle : Handle) (hint : GlobalId) : Prop :=
  if hint = invalidHandle then handle ∉ x.pair.agent.sets (.allocations g.c)
  else handle ∉ x.pair.provider.allocations

/-- `consumer_fetch` returns true with the first `n` bytes of `b` and no others; nobody stops, and
once everything has been worked off the handle is dead. -/
def FetchesFirst (g : Session Cl) (x : Trio Cl) (fuel : ℕ) (b : Bytes) (handle : Handle)
    (n : UInt64) (hint : GlobalId) : Prop :=
  ∃ z z', call g (Consumer.consumerFetch g.lzo fuel handle n hint) x =
      .done z (true, b.take n.toNat) ∧
    z.settle g = .done z' () ∧ z'.Dead g handle hint

/-- The consumer has an allocation with these contents in the agent. -/
structure HoldsLocal (g : Session Cl) (x : Trio Cl) (handle : Handle) (b : Bytes) : Prop where
  idle : Idle g x
  settles : ∃ y, Settles g.toSetting x.pair y
  keeps : Agent.Keeps g.c x.pair.agent
  pool : Agent.Usable (.consumer g.c) .idPool x.pair.agent
  valid : handle ≠ invalidHandle
  stores : ∃ a ptr, x.pair.agent.Stores g.c handle a ptr b

/-- There is an allocation with these contents at the provider of the hint. -/
structure HoldsRemote (g : Session Cl) (provider : Agent.Provider) (x : Trio Cl) (y : Pair Cl)
    (handle : Handle) (hint : GlobalId) (b : Bytes) : Prop where
  ready : Ready g provider x y
  objects : Agent.Usable (.consumer g.c) .objects x.pair.agent
  hints : Hints g.p x.pair.agent hint
  valid : handle ≠ invalidHandle
  holds : ∃ a, y.provider.Holds handle a b

theorem Pair.answer_nothing {z : Pair Cl} (hz : z.agent.net (.consumer g.c) = .fresh)
    (hphase : z.agent.phase (.consumer g.c) = .serving) :
    Trio.answer g ⟨.wire [] [], z⟩ = ⟨.wire [] [], z⟩ := by
  have hanswer : Trio.answer g ⟨.wire [] [], z.onAgent (toConsumer g.c [])⟩ =
      ⟨.wire (Net.incoming []) [], z⟩ := Pair.answer_toConsumer hz hphase []
  have hsame : z.onAgent (toConsumer g.c []) = z := by
    rw [Pair.onAgent, toConsumer, Net.push_nil]
    rfl
  rwa [hsame, Net.incoming_nil] at hanswer

theorem Idle.attend_nothing (h : Idle g x) : x.attend g = .done x () := by
  have hdeliver : x.deliver g = x := by
    have hclient : clearSent x.client () = x.client := by
      rw [h.client]
      funext u
      simp [clearSent]
    have hnet : arrive x.pair.agent.net (.consumer g.c) [] = x.pair.agent.net := by
      rw [arrive, h.conn, Net.incoming_nil]
      exact Net.withInq_self (by rw [h.conn]; rfl)
    have hsent : (x.client ()).sent = [] := by rw [h.client, Net.wire_apply]
    rw [Trio.deliver, hclient, hsent, Pair.onAgent, hnet]
    rfl
  have hwork : x.work g = .done x () := by
    rw [Trio.work, h.conn]
    rfl
  have hanswer : x.answer g = x := by
    have hnothing := Pair.answer_nothing h.conn h.phase
    rwa [← h.client] at hnothing
  rw [Trio.attend, hdeliver, hwork, Outcome.bind_done, hanswer]

theorem Idle.settle (h : Idle g x) (hs : Settles g.toSetting x.pair y) :
    x.settle g = .done { x with pair := y } () := by
  rw [Trio.settle, h.attend_nothing, Outcome.bind_done, hs.attend]
  rfl

theorem Idle.call_fetchNothing (h : Idle g x) (hh : handle ≠ invalidHandle) (hint : GlobalId) :
    call g (Consumer.consumerFetch g.lzo fuel handle 0 hint) x =
      .done (x.saying [.msg Msg.fetchRequest
        (FetchRequest.bytes ⟨handle, 0, hint, Consumer.streamOptions 0⟩)]) (true, []) := by
  rw [Consumer.consumerFetch, if_neg hh, call_bind, h.call_sendFetch hh, Outcome.bind_done,
    if_pos rfl, if_pos rfl]
  rfl

theorem Idle.settle_fetchNothing (h : Idle g x) {z : Pair Cl}
    (hrun : run g.toSetting (.consumer g.c) (Agent.handleFetch g.lzo g.fuel g.c
      ⟨handle, 0, hint, Consumer.streamOptions 0⟩) x.pair = .done z ())
    (hconn : z.agent.net (.consumer g.c) = .fresh)
    (hphase : z.agent.phase (.consumer g.c) = .serving)
    (hs : Settles g.toSetting z y) :
    (x.saying [.msg Msg.fetchRequest
      (FetchRequest.bytes ⟨handle, 0, hint, Consumer.streamOptions 0⟩)]).settle g =
        .done ⟨.wire [] [], y⟩ () := by
  have hlen : (FetchRequest.bytes ⟨handle, 0, hint, Consumer.streamOptions 0⟩).length ≤
      Agent.recvbufsz := by
    simp [FetchRequest.bytes, StreamOptions.bytes, Agent.recvbufsz]
  have hhandler : run g.toSetting (.consumer g.c) (Agent.agentConsumerHandler g.lzo g.fuel g.c
      (.fetch ⟨handle, 0, hint, Consumer.streamOptions 0⟩)) x.pair = .done z () := hrun
  rw [Trio.settle, h.attend hlen (Agent.parse_fetch _ _), hhandler, Outcome.map_done,
    Outcome.bind_done, Pair.answer_nothing hconn hphase, Outcome.bind_done, hs.attend]
  rfl

theorem beside_dropped (c : Addr) (handle : Handle) (a ptr : Addr) {g : Setting Cl} :
    Beside g fun s => s.dropped c handle a ptr where
  conn _ := rfl
  push _ _ := rfl

theorem not_mem_dropped (s : Agent.State) (c : Addr) (handle : Handle) (a ptr : Addr) :
    handle ∉ (s.dropped c handle a ptr).sets (.allocations c) := by
  have hne : Agent.SetRef.allocations c ≠ .idPool := by
    intro heq
    cases heq
  rw [Agent.State.dropped, Agent.State.putSet_sets_of_ne _ _ hne, Agent.State.put_sets,
    Agent.State.put_sets, Agent.State.putSet_sets_self, IdSet.mem_erase]
  exact fun hmem => hmem.1 rfl

/-- Of an allocation of the agent any number of first bytes can be fetched. -/
theorem HoldsLocal.fetchesFirst (h : HoldsLocal g x handle b) (hl : g.lzo.Correct)
    (hm : (Consumer.streamOptions n).Buffered g.lzo) (hn : n.toNat ≤ b.length)
    (hfuel : 2 * n.toNat + 68 ≤ fuel) :
    FetchesFirst g x fuel b handle n invalidHandle := by
  obtain ⟨y, hy⟩ := h.settles
  obtain ⟨a, ptr, hstores⟩ := h.stores
  have hdropped := hy.onAgent (beside_dropped g.c handle a ptr)
  have hidle : Idle g ⟨.wire [] [], x.pair.onAgent fun s => s.dropped g.c handle a ptr⟩ :=
    ⟨rfl, h.idle.conn, h.idle.phase⟩
  have hdead : Trio.Dead g ⟨.wire [] [], y.onAgent fun s => s.dropped g.c handle a ptr⟩ handle
      invalidHandle := by
    rw [Trio.Dead, if_pos rfl]
    exact not_mem_dropped y.agent g.c handle a ptr
  by_cases hzero : n = 0
  · subst hzero
    have hpos : ¬ (0 : UInt64) < 0 := by decide
    have hrun : run g.toSetting (.consumer g.c) (Agent.handleFetch g.lzo g.fuel g.c
        ⟨handle, 0, invalidHandle, Consumer.streamOptions 0⟩) x.pair =
        .done (x.pair.onAgent fun s => s.dropped g.c handle a ptr) () := by
      rw [Agent.handleFetch, if_pos rfl]
      exact run_done (Agent.run_fetchLocal_zero _ h.keeps h.pool hstores hpos)
    exact ⟨_, _, h.idle.call_fetchNothing h.valid invalidHandle,
      h.idle.settle_fetchNothing hrun hidle.conn hidle.phase hdropped, hdead⟩
  · have hpos : 0 < n := UInt64.pos_iff_ne_zero.mpr hzero
    exact ⟨_, _, h.idle.call_fetchLocal hl h.keeps h.pool h.valid hstores hm hpos hn hfuel,
      hidle.settle hdropped, hdead⟩

section
variable {a : Provider.Allocation}

theorem HoldsRemote.dead_freed (h : HoldsRemote g provider x y handle hint b) {z : Pair Cl}
    (hz : z.provider.allocations = y.provider.allocations.erase handle) :
    Trio.Dead g ⟨.wire [] [], z⟩ handle hint := by
  rw [Trio.Dead, if_neg h.hints.1, hz, IdSet.mem_erase]
  exact fun hmem => hmem.1 rfl

theorem HoldsRemote.fetchesFirst_nothing (h : HoldsRemote g provider x y handle hint b)
    (fuel : ℕ) : FetchesFirst g x fuel b handle 0 hint := by
  obtain ⟨a, ha⟩ := h.holds
  let params : FetchRequest := ⟨handle, 0, hint, Consumer.streamOptions 0⟩
  have hpos : ¬ 0 < params.size := (by decide : ¬ (0 : UInt64) < 0)
  have hrun : run g.toSetting (.consumer g.c) (Agent.handleFetch g.lzo g.fuel g.c params) x.pair =
      .done (x.pair.sending g.toSetting [.msg Msg.fetchRequest params.bytes]) () :=
    h.ready.run_handleFetch_zero h.objects h.hints hpos
  have hworks : g.Works [.msg Msg.fetchRequest params.bytes] [] y.provider _ :=
    Provider.works_fetch_none h.ready.sound hpos ha
  have hconn : (x.pair.sending g.toSetting [.msg Msg.fetchRequest params.bytes]).agent.net
      (.consumer g.c) = .fresh := by
    rw [Pair.sending, Pair.onAgent, Agent.State.withNet_net,
      Net.push_of_ne _ _ (consumer_ne g.p g.c).symm, h.ready.idle.conn]
  exact ⟨_, _, h.ready.idle.call_fetchNothing h.valid hint,
    h.ready.idle.settle_fetchNothing hrun hconn h.ready.idle.phase (h.ready.settles.sending hworks),
    h.dead_freed rfl⟩

theorem HoldsRemote.fetchesFirst_whole (h : HoldsRemote g provider x y handle hint b)
    (hl : g.lzo.Correct) (hm : (Consumer.streamOptions n).Buffered g.lzo)
    (hlen : b.length = n.toNat) (hpos : 0 < n) (hg : 140 * b.length + 2 ≤ g.fuel)
    (hfuel : 2 * b.length + 68 ≤ fuel) :
    FetchesFirst g x fuel b handle n hint := by
  obtain ⟨a, ha⟩ := h.holds
  let params : FetchRequest := ⟨handle, n, hint, Consumer.streamOptions n⟩
  have hcall := h.ready.call_fetched hl h.objects h.valid h.hints ha hm hlen hpos hg hfuel
  have hidle : Idle g ⟨.wire [] [], y.fetched g.lzo params a b⟩ := ⟨rfl, h.ready.conn, h.ready.phase⟩
  have hquiet : Quiet g.toSetting (y.fetched g.lzo params a b) := h.ready.settles.quiet.served _ _ _
  have htake : b.take n.toNat = b := by rw [← hlen, List.take_length]
  unfold FetchesFirst
  rw [htake]
  exact ⟨_, _, hcall, hidle.settle hquiet.settles, h.dead_freed rfl⟩

theorem HoldsRemote.not_fetchesFirst (h : HoldsRemote g provider x y handle hint b)
    (hl : g.lzo.Correct) (hm : (Consumer.streamOptions n).Buffered g.lzo)
    (hlt : n.toNat < b.length) (hpos : 0 < n) (hg : 140 * b.length + 2 ≤ g.fuel)
    (hfuel : 140 * b.length + 2 ≤ fuel) :
    ¬ FetchesFirst g x fuel b handle n hint := by
  obtain ⟨a, ha⟩ := h.holds
  let params : FetchRequest := ⟨handle, n, hint, Consumer.streamOptions n⟩
  have hblk := zero_lt_blksz n
  have hrun : run g.toSetting (.consumer g.c) (Agent.handleFetch g.lzo g.fuel g.c params) x.pair =
      .done ((y.fetched g.lzo params a b).onAgent (toConsumer g.c
        (Provider.fetchRecords g.lzo (Consumer.streamOptions n) b n))) () :=
    h.ready.run_handleFetch h.objects h.hints hpos hblk (fits_streamOptions hl hm b) ha hl hg
  have hconn : (y.fetched g.lzo params a b).agent.net (.consumer g.c) = .fresh := h.ready.conn
  have hphase : (y.fetched g.lzo params a b).agent.phase (.consumer g.c) = .serving :=
    h.ready.phase
  have hcall := h.ready.idle.call_consumerFetch h.valid hpos hconn hphase hrun fuel
  have hinq : ((.wire (Net.incoming (streamRecords g.lzo (Consumer.streamOptions n) b)) [] :
      Net Unit) ()).inq = Net.incoming (streamRecords g.lzo (Consumer.streamOptions n) b) ++ [] := by
    rw [Net.wire_apply, List.append_nil]
  have hsize : (Consumer.streamOptions n).blksz.toNat +
      (Consumer.streamOptions n).blksz.toNat / 16 + 67 < 2 ^ 64 := by
    rw [Consumer.blksz_streamOptions]
    decide
  have hrecords := fuel_streamRecords hl hblk b
  obtain ⟨f, hfault⟩ : ∃ f, Net.run (streamRecv g.lzo () fuel n.toNat) _ = .fault f :=
    run_streamRecvInto_overfull hl hblk hsize hinq (by omega) hlt
  have hstream : call g (streamRecv g.lzo () fuel n.toNat)
      ⟨.wire (Net.incoming (streamRecords g.lzo (Consumer.streamOptions n) b)) [],
        y.fetched g.lzo params a b⟩ = .fault (.client f) := call_fault hfault
  rintro ⟨z, z', hdone, -⟩
  rw [hcall, call_bind, hstream] at hdone
  cases hdone

end

section
variable {data : Bytes}

theorem beside_stored (c : Addr) (data : Bytes) {g : Setting Cl} :
    Beside g fun s => s.stored c 1 (UInt64.ofNat data.length) data where
  conn _ := rfl
  push _ _ := rfl

/-- An allocation made without a hint. -/
theorem Allocates.holdsLocal (h : Allocates g x) (hs : Settles g.toSetting x.pair y)
    (hm : 32 + data.length ≤ Agent.recvbufsz)
    (hid : x.pair.agent.nextId ∉ x.pair.agent.sets .idPool) :
    HoldsLocal g ⟨.wire [] [], x.pair.stored g.c data⟩ x.pair.agent.nextId data where
  idle := ⟨rfl, h.idle.conn, h.idle.phase⟩
  settles := ⟨_, hs.onAgent (beside_stored g.c data)⟩
  keeps := h.keeps.stored h.fresh hid _ _ _
  pool := h.pool.stored hid _ _ _
  valid := (x.pair.agent.candidates x.pair.agent.draws).property
  stores := by
    have hmul : data.length = ((1 : UInt64) * UInt64.ofNat data.length).toNat := by
      rw [UInt64.one_mul, UInt64.toNat_ofNat', Nat.mod_eq_of_lt (lt_of_fits hm)]
    exact ⟨_, _, h.keeps.stores hid hmul⟩

theorem Provides.holdsRemote (h : Provides g provider x y hint) (ha : Allocates g x)
    (hm : 32 + data.length ≤ Agent.recvbufsz) (hnew : y.Unknown) :
    HoldsRemote g provider ⟨.wire [] [], y.allocated data hint⟩ (y.allocated data hint)
      y.agent.nextId hint data := by
  obtain ⟨n, hx⟩ := h.ready.exists_agent
  have hhints := h.hints
  have hobjects := ha.objects
  rw [hx] at hhints hobjects
  have hsets : (y.allocated data hint).agent.sets .objects = y.agent.sets .objects :=
    y.agent.withId_sets_of_ne (by nofun)
  have hsound : ((y.allocated data hint).agent.sets .objects).damaged = false := by
    rw [hsets]
    exact hobjects.sound
  exact ⟨h.ready_allocated hnew data, ⟨hsound, hobjects.admits⟩, Hints.allocated hhints,
    (y.agent.candidates y.agent.draws).property, _, h.holds_allocated hm hnew⟩

end

/-- An allocation of the agent and one of a provider with the same contents are the same to a fetch
of `n` bytes. -/
def FetchesAlike (g : Session Cl) (x x' : Trio Cl) (fuel : ℕ) (b : Bytes) (handle handle' : Handle)
    (n : UInt64) (hint : GlobalId) : Prop :=
  FetchesFirst g x fuel b handle n invalidHandle ∧ FetchesFirst g x' fuel b handle' n hint

/-- They are as long as nothing is fetched, or everything. -/
theorem fetchesAlike_iff (hl : g.lzo.Correct) (hm : (Consumer.streamOptions n).Buffered g.lzo)
    (hx : HoldsLocal g x handle b)
    (hx' : HoldsRemote g provider x' y handle' hint b) (hn : n.toNat ≤ b.length)
    (hg : 140 * b.length + 2 ≤ g.fuel) (hfuel : 140 * b.length + 68 ≤ fuel) :
    FetchesAlike g x x' fuel b handle handle' n hint ↔ n = 0 ∨ n.toNat = b.length := by
  have hlocal : FetchesFirst g x fuel b handle n invalidHandle :=
    hx.fetchesFirst hl hm hn (by omega)
  constructor
  · rintro ⟨-, hremote⟩
    by_contra hcond
    obtain ⟨hzero, hne⟩ := not_or.mp hcond
    exact hx'.not_fetchesFirst hl hm (by omega) (UInt64.pos_iff_ne_zero.mpr hzero) hg
      (by omega) hremote
  · intro hcond
    refine ⟨hlocal, ?_⟩
    by_cases hzero : n = 0
    · rw [hzero]
      exact hx'.fetchesFirst_nothing fuel
    · have hlen := hcond.resolve_left hzero
      exact hx'.fetchesFirst_whole hl hm hlen.symm (UInt64.pos_iff_ne_zero.mpr hzero) hg (by omega)

private theorem provides_small : Provides Session.small ⟨0, 2, true⟩ Trio.small Pair.small 9 :=
  ⟨ready_small, hints_small, by decide⟩

private theorem unknown_small : Pair.small.Unknown :=
  ⟨IdSet.not_mem_empty _, IdSet.not_mem_empty _⟩

private theorem holdsLocal_small : HoldsLocal Session.small
    ⟨.wire [] [], Pair.small.stored 3 [1, 2, 3]⟩ Pair.small.agent.nextId [1, 2, 3] :=
  allocates_small.holdsLocal ready_small.settles (by decide) (by decide)

private theorem holdsRemote_small : HoldsRemote Session.small ⟨0, 2, true⟩
    ⟨.wire [] [], Pair.small.allocated [1, 2, 3] 9⟩ (Pair.small.allocated [1, 2, 3] 9)
    Pair.small.agent.nextId 9 [1, 2, 3] :=
  provides_small.holdsRemote allocates_small (by decide) unknown_small

/-- Three bytes of three. -/
theorem fetchesAlike_three : FetchesAlike Session.small
    ⟨.wire [] [], Pair.small.stored 3 [1, 2, 3]⟩
    ⟨.wire [] [], Pair.small.allocated [1, 2, 3] 9⟩ 1000 [1, 2, 3] Pair.small.agent.nextId
    Pair.small.agent.nextId 3 9 :=
  (fetchesAlike_iff literalLzo_correct (by decide) holdsLocal_small holdsRemote_small (by decide)
    (by decide) (by decide)).mpr (.inr rfl)

/-- Two bytes of three: the provider sends the third one as well. -/
theorem not_fetchesAlike_two : ¬ FetchesAlike Session.small
    ⟨.wire [] [], Pair.small.stored 3 [1, 2, 3]⟩
    ⟨.wire [] [], Pair.small.allocated [1, 2, 3] 9⟩ 1000 [1, 2, 3] Pair.small.agent.nextId
    Pair.small.agent.nextId 2 9 := by
  rintro ⟨-, hremote⟩
  exact holdsRemote_small.not_fetchesFirst literalLzo_correct (by decide) (by decide) (by decide)
    (by decide) (by decide) hremote

end Clara.Joint
