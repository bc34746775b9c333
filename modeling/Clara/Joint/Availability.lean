import Clara.Agent.Nesting
import Clara.Agent.Query
import Clara.Joint.Conversation
import Clara.Joint.Custody

/-! Whether a device is available. The agent asks the provider as a consumer would: it allocates
room for the answer, has it filled in, and fetches it. -/
namespace Clara.Joint

open Conc

variable {Cl : Type}

/-- `clGetDeviceInfo` returns `status` for `CL_DEVICE_AVAILABLE`, and with `CL_SUCCESS` it stores
`value`. -/
def AnswersAvailable (lib : Provider.OpenCl Cl) (real : Arg) (status : UInt32) (value : Bytes) :
    Prop :=
  ∀ ptr cl mem, ∃ cl' mem' r,
    lib.call .getDeviceInfo [real, Agent.clDeviceAvailable.toUInt64, 4, ptr, 0] cl mem =
      (cl', mem', r) ∧ r.ret.toUInt32 = status ∧ (status = 0 → mem' ptr = some value)

/-- The query has returned what the library answers, and nothing else has become of it. -/
structure Told (g : Setting Cl) (t : Agent.Tid) (device : Addr) (status : UInt32) (value : Bytes)
    (x y : Pair Cl) (b : Bytes) : Prop where
  run : run g t (Agent.agentDeviceIsAvailable g.lzo g.fuel device) x = .done y b
  value : b = if status = 0 then value else Bytes.ofNat 4 0
  idPool : ∀ id, id ∈ y.agent.sets .idPool ↔ id ∈ x.agent.sets .idPool
  allocations : y.provider.allocations = x.provider.allocations
  idMap : y.provider.idMap = x.provider.idMap
  lock : y.agent.heap .lock = x.agent.heap .lock
  agentNet : y.agent.net (.provider g.p) = x.agent.net (.provider g.p)
  providerNet : y.provider.net = x.provider.net

def TellsAvailability (g : Setting Cl) (t : Agent.Tid) (device : Addr) (status : UInt32)
    (value : Bytes) (x : Pair Cl) : Prop :=
  ∃ y b, Told g t device status value x y b

/-- The device is registered under its id in the agent and at the provider, the connection is empty
and free for the thread, and the ids and the memory that the query needs are to be had. -/
structure Askable (g : Setting Cl) (t : Agent.Tid) (device : Addr) (dv : Agent.Device)
    (real : Arg) (x : Pair Cl) : Prop where
  quiet : Quiet g x
  sound : x.provider.Sound
  registered : x.agent.deviceAt dv.globalId = some device
  record : x.agent.heap .device device = some dv
  provider : dv.provider = g.p
  available : dv.available = true
  mapped : x.provider.idMap.lookup dv.globalId = some real
  lock : ∃ l lk lk', x.agent.LockAt g.p l lk ∧ lk.wait t = some lk'
  reserves : x.agent.Reserves t
  not_allocated : x.agent.nextId ∉ x.provider.allocations
  not_mapped : x.agent.nextId ∉ x.provider.idMap
  address : x.provider.addresses x.provider.draws ≠ 0

section
variable {g : Setting Cl} {t : Agent.Tid} {x y : Pair Cl} {device : Addr} {dv : Agent.Device}

/-- Programs that create and release no ids. -/
theorem run_idPool {α : Type} {p : Agent.AProg α} {a : α}
    (hp : p.All fun o => o.area ∈ Agent.Area.remote) (h : run g t p x = .done y a) :
    y.agent.sets .idPool = x.agent.sets .idPool := by
  refine run_agent_keeps (I := fun s => s.sets .idPool = x.agent.sets .idPool) hp ?_ ?_ h rfl
  · intro o s s' r ho hexec hs
    have hout : ∀ area, area ∉ Agent.Area.remote → o.area ≠ area :=
      fun area ha heq => ha (heq ▸ ho)
    rw [← hs]
    exact (Agent.change_of_done hexec).sets (r := .idPool) (hout .reserve (by decide))
      (hout .release (by decide)) (hout .agent (by decide))
  · intro s n _ hs
    exact hs

theorem run_setInsert_done {r : Agent.SetRef} {key : r.Key} {d : Addr} {b : Bool}
    (h : run g t (Agent.setInsert r key d) x = .done y b) :
    y.agent.sets r = (x.agent.sets r).add key d ∧ b = decide (key ∉ x.agent.sets r) ∧
      (x.agent.sets r).damaged = false := by
  have hpart : ∀ z : Pair Cl, z.agent.sets r = x.agent.sets r →
      agentPart.within Fault.agent Agent.exec t (.setInsert r key d) z = .done y b →
      y.agent.sets r = (x.agent.sets r).add key d ∧ b = decide (key ∉ x.agent.sets r) ∧
        (x.agent.sets r).damaged = false := by
    intro z hz hrun
    rw [Part.within] at hrun
    obtain ⟨s, hexec, rfl⟩ := Outcome.map_eq_done hrun
    obtain ⟨rfl, hb, hd⟩ := Agent.exec_setInsert_done hexec
    rw [← hz]
    exact ⟨Agent.State.putSet_sets_self .., hb, hd⟩
  rw [run, Agent.setInsert, Agent.perform, Prog.run_perform] at h
  obtain hdone | ⟨z, hattend, hdone⟩ := attended_done h
  · exact hpart x rfl hdone
  · obtain ⟨n, hn, -⟩ := attend_agent hattend
    exact hpart z (by rw [hn]; rfl) hdone

theorem run_idCreate_done {id : GlobalId} (h : run g t Agent.idCreate x = .done y id) :
    id ∉ x.agent.sets .idPool ∧ id ∈ y.agent.sets .idPool := by
  obtain ⟨x₁, candidate, hrand, h⟩ := bind_done h
  have hx₁ : x₁.agent.sets .idPool = x.agent.sets .idPool := by
    obtain ⟨rfl, -⟩ := Outcome.done.inj ((run_done (Agent.run_rand ..)).symm.trans hrand)
    rfl
  obtain ⟨x₂, b, hinsert, h⟩ := bind_done h
  obtain ⟨hpool, hb, -⟩ := run_setInsert_done hinsert
  rw [hx₁] at hpool hb
  by_cases hid : candidate.val ∈ x.agent.sets .idPool
  · -- the pool is damaged by now, and there is no second insertion
    rw [decide_eq_false (not_not_intro hid)] at hb
    rw [hb, if_neg Bool.false_ne_true] at h
    obtain ⟨x₃, candidate', hrand', h⟩ := bind_done h
    obtain ⟨rfl, -⟩ := Outcome.done.inj ((run_done (Agent.run_rand ..)).symm.trans hrand')
    obtain ⟨x₄, b', hinsert', -⟩ := bind_done h
    have hsound : (x₂.agent.sets .idPool).damaged = false := (run_setInsert_done hinsert').2.2
    rw [hpool, IdSet.damaged_add, decide_eq_true hid] at hsound
    cases hsound
  · rw [decide_eq_true hid] at hb
    rw [hb, if_pos rfl] at h
    obtain ⟨rfl, rfl⟩ := Outcome.done.inj h
    refine ⟨hid, ?_⟩
    rw [hpool]
    exact (IdSet.mem_add hid 0).mpr (.inl rfl)

/-- The id that stands for the room stays in the pool, whatever is answered. -/
theorem queryAvailable_draws {lzo : Lzo} {fuel : ℕ} {provider : Addr} {b : Bytes}
    (h : run g t (Agent.queryAvailable lzo fuel device provider) x = .done y b) :
    ∃ id, id ∉ x.agent.sets .idPool ∧ id ∈ y.agent.sets .idPool := by
  have hK := Agent.passes_all Agent.Area.remote
  have hspoken : Agent.Area.spoken ⊆ Agent.Area.remote := by decide
  obtain ⟨x₁, dv, hread, h⟩ := bind_done h
  obtain ⟨x₂, id, hid, h⟩ := bind_done h
  have hx₁ : x₁.agent.sets .idPool = x.agent.sets .idPool :=
    run_idPool (Agent.passes_read hK .device device (by decide)) hread
  have hy : y.agent.sets .idPool = x₂.agent.sets .idPool := by
    refine run_idPool ?_ h
    apply hK.bind (Agent.passes_agentRemoteAllocate hK Agent.Area.wired_subset_remote _ _ _)
    intro result
    cases result with
    | none => exact hK.pure _
    | some result =>
      apply hK.bind (Agent.passes_claraSendExecuteRequest hK hspoken _ _ _ _)
      intro b
      apply Agent.passes_ite (K := fun _ p => p.All fun o => o.area ∈ Agent.Area.remote) _
        (hK.pure _)
      apply hK.bind (Agent.passes_claraRecvExecuteResponse hK hspoken _)
      intro retval
      cases retval with
      | none => exact hK.pure _
      | some retval =>
        apply hK.bind (Agent.passes_claraSendFetchRequest hK hspoken _ _ _ _ _)
        intro b
        apply Agent.passes_ite (K := fun _ p => p.All fun o => o.area ∈ Agent.Area.remote) _
          (hK.pure _)
        apply hK.bind (Agent.passes_claraRecvFetchResponse hK hspoken _ _ _ _)
        intro buf
        exact hK.pure _
  obtain ⟨hnew, hmem⟩ := run_idCreate_done hid
  rw [hx₁] at hnew
  rw [← hy] at hmem
  exact ⟨id, hnew, hmem⟩

/-- No query returns with the pool of ids as it found it. -/
theorem agentDeviceIsAvailable_draws {b : Bytes}
    (hd : x.agent.heap .device device = some dv) (hav : dv.available = true)
    (h : run g t (Agent.agentDeviceIsAvailable g.lzo g.fuel device) x = .done y b) :
    ∃ id, id ∉ x.agent.sets .idPool ∧ id ∈ y.agent.sets .idPool := by
  have hK := Agent.passes_all Agent.Area.remote
  have hwired := Agent.Area.wired_subset_remote
  have hread : run g t (Agent.read .device device) x = .done x dv := run_done (Agent.run_read hd)
  rw [Agent.agentDeviceIsAvailable, run_bind, hread, Outcome.bind_done, if_pos hav] at h
  obtain ⟨x₁, _, hlock, h⟩ := bind_done h
  obtain ⟨x₂, result, hquery, h⟩ := bind_done h
  obtain ⟨x₃, _, hunlock, h⟩ := bind_done h
  obtain ⟨rfl, -⟩ := Outcome.done.inj h
  obtain ⟨id, hnew, hmem⟩ := queryAvailable_draws hquery
  rw [run_idPool (Agent.passes_providerLock hK hwired _) hlock] at hnew
  rw [← run_idPool (Agent.passes_providerUnlock hK hwired _) hunlock] at hmem
  exact ⟨id, hnew, hmem⟩

def availableRequest (virt : GlobalId) (handle : Handle) : ExecuteRequest :=
  ⟨invalidHandle, 3, fun i =>
    [0, virt, Agent.clDeviceAvailable.toUInt64, 4, handle, 0].getD i 0, 5⟩

theorem bytes_availableRequest (virt : GlobalId) (handle : Handle) :
    (availableRequest virt handle).bytes =
      Bytes.words [0, 3, 0, virt, Agent.clDeviceAvailable.toUInt64, 4, handle, 0] := rfl

/-- The provider asks its library, whatever that does. -/
theorem works_available {q : Provider.State Cl} {virt : GlobalId} {handle : Handle}
    {real ptr : Arg} (hs : q.Sound) (hv : q.idMap.lookup virt = some real)
    (hh : q.idMap.lookup handle = some ptr) :
    ∃ q' ret, g.Works [.msg Msg.executeRequest (availableRequest virt handle).bytes]
      [.msg Msg.executeResponse (Bytes.word ret)] q q' := by
  have hm : (availableRequest virt handle).bytes.length ≤ Provider.recvbufsz := by
    rw [bytes_availableRequest, Bytes.length_words]
    exact (by decide : 64 ≤ 10240)
  have hword : ∀ i w, [0, 3, 0, virt, Agent.clDeviceAvailable.toUInt64, 4, handle, 0][i]? = some w →
      (q.took (availableRequest virt handle).bytes).buf.word i = w := by
    intro i w hw
    rw [bytes_availableRequest] at hm ⊢
    exact q.took_word_words hm hw
  have hmap : ∀ id w, q.idMap.lookup id = some w →
      Provider.providerIdMap q.idMap id = some w := by
    intro id w hw
    rw [Provider.providerIdMap, if_neg (by simp [hs.idMap]), hw]
  have hargs : ∀ i, 1 ≤ i → i < 1 + 5 → Provider.translateArg (Provider.providerIdMap q.idMap)
      [1, 4, 5] i (Provider.argvOf (q.took (availableRequest virt handle).bytes).buf i) ≠ none := by
    intro i hi hlt
    rw [Provider.argvOf, Provider.translateArg]
    split_ifs with harg
    · obtain rfl | rfl | rfl : i = 1 ∨ i = 4 ∨ i = 5 := by simpa using harg.2
      · rw [hword 3 virt rfl, hmap virt real hv]
        exact Option.some_ne_none _
      · rw [hword 6 handle rfl, hmap handle ptr hh]
        exact Option.some_ne_none _
      · exact absurd (hword 7 0 rfl) harg.1
    · exact Option.some_ne_none _
  have hd : ClFunction.ofArg ((q.took (availableRequest virt handle).bytes).buf.word 1) =
      some (.getDeviceInfo, 5) := by
    rw [hword 1 3 rfl]
    rfl
  obtain ⟨buf, hprepare, -⟩ := Provider.prepare_mapped hd
    (show Provider.execFunTable g.lib .getDeviceInfo = some (_, [1, 4, 5]) from rfl) 0 hargs
  exact ⟨_, _, Provider.works_execute hm (Provider.claraExecute_call g.lib hprepare rfl)⟩

def withLock (l : Addr) (lk : Agent.Lock) (s : Agent.State) : Agent.State :=
  s.put .lock l (some lk)

theorem Settles.run_agentRemoteAllocate_nested (h : Settles g x y) {l : Addr}
    {lk lk' : Agent.Lock} (hs : y.agent.LockAt g.p l lk) (hk : lk.Sound)
    (hwait : lk.wait t = some lk') {params : AllocateRequest} {handle : Handle}
    {q : Provider.State Cl} (hw : g.Works [.msg Msg.allocateRequest (params.bytes ++ [])]
      [.msg Msg.allocateResponse (Bytes.word handle)] y.provider q) :
    run g t (Agent.agentRemoteAllocate g.p params []) x =
      .done (y.served q [.msg Msg.allocateRequest (params.bytes ++ [])]
        [.msg Msg.allocateResponse (Bytes.word handle)]) (some handle) := by
  obtain ⟨msg, hmsg⟩ : ∃ msg, msg = params.bytes ++ [] := ⟨_, rfl⟩
  rw [← hmsg] at hw
  have hx : x.agent.LockAt g.p l lk := by
    rw [Agent.State.LockAt, h.heap]
    exact hs
  have hlock : run g t (Agent.providerLock g.p) x = .done (x.onAgent (withLock l lk')) () :=
    run_done (Agent.run_providerLock_wait hx hwait)
  have hlocked := h.onAgent (f := withLock l lk') (beside_put ..)
  have hlen : (Bytes.word handle).length ≤ 8 := by rw [Bytes.length_word]
  have hrecv := hlocked.run_recvmsg (t := t) hw hlen
  rw [(hlocked.quiet.served q _ _).waiting_nil] at hrecv
  have hunlock : run g t (Agent.providerUnlock g.p) ((y.onAgent (withLock l lk')).served q
      [.msg Msg.allocateRequest msg] [.msg Msg.allocateResponse (Bytes.word handle)]) =
      .done (y.served q [.msg Msg.allocateRequest msg]
        [.msg Msg.allocateResponse (Bytes.word handle)]) () := by
    have hpost := Agent.run_providerUnlock_post (hs.put lk') (Agent.Lock.post_wait hk hwait)
    rw [Agent.State.put_put, Agent.State.put_self hs.2] at hpost
    exact run_done hpost
  rw [Agent.agentRemoteAllocate, ← hmsg, run_bind, hlock, Outcome.bind_done, run_bind,
    hlocked.run_sendmsg, Outcome.bind_done]
  simp only
  rw [run_bind, hrecv, Outcome.bind_done, run_bind, hunlock, Outcome.bind_done]
  simp [Received.stored, Agent.assert]

/-- The provider makes room for the answer and keeps what it knows of the device. -/
theorem Askable.works_allocate {real : Arg} (h : Askable g t device dv real x) :
    ∃ q ptr, g.Works
        [.msg Msg.allocateRequest (AllocateRequest.bytes ⟨x.agent.nextId, 1, 4, invalidHandle⟩ ++ [])]
        [.msg Msg.allocateResponse (Bytes.word x.agent.nextId)] x.provider q ∧ q.Sound ∧
      q.idMap.lookup dv.globalId = some real ∧ q.idMap.lookup x.agent.nextId = some ptr := by
  obtain ⟨params, hparams⟩ : ∃ params : AllocateRequest,
    params = ⟨x.agent.nextId, 1, 4, invalidHandle⟩ := ⟨_, rfl⟩
  have hid : x.agent.nextId = params.handle := by rw [hparams]
  have ha : params.handle ∉ x.provider.allocations := hid ▸ h.not_allocated
  have hv : params.handle ∉ x.provider.idMap := hid ▸ h.not_mapped
  have hsize : params.nmemb.toNat * params.size.toNat < 2 ^ 64 := by
    rw [hparams]
    exact (by decide : (1 : UInt64).toNat * (4 : UInt64).toNat < 2 ^ 64)
  have hw : g.Works _ _ x.provider _ := Provider.works_allocate h.sound (by decide) hsize (.inl rfl)
    h.address ha hv
  have hne : dv.globalId ≠ params.handle := by
    intro heq
    apply hv
    rw [← heq, IdSet.mem_iff, h.mapped]
    exact ⟨real, rfl⟩
  rw [← hparams, hid]
  refine ⟨_, x.provider.addresses x.provider.draws, hw, (h.sound.took _).allocated ha hv _ _,
    ?_, ?_⟩
  · exact ((IdSet.lookup_add hv _ _).trans (if_neg hne)).trans h.mapped
  · exact (IdSet.lookup_add hv _ _).trans (if_pos rfl)

/-- With everything at hand the query is made and answered. Then the agent copies the options of
the stream from where none are. -/
theorem Askable.run_queryAvailable {real : Arg} (h : Askable g t device dv real x) {l : Addr}
    {lk lk' : Agent.Lock} (hlk : x.agent.LockAt g.p l lk) (hwait : lk.wait t = some lk') :
    run g t (Agent.queryAvailable g.lzo g.fuel device g.p) (x.onAgent (withLock l lk')) =
      .fault (.agent .nullPointer) := by
  obtain ⟨id, hid⟩ : ∃ id, id = x.agent.nextId := ⟨_, rfl⟩
  obtain ⟨y, hy⟩ : ∃ y, y = (x.onAgent (withLock l lk')).onAgent Agent.State.withId := ⟨_, rfl⟩
  have hread : run g t (Agent.read .device device) (x.onAgent (withLock l lk')) =
      .done (x.onAgent (withLock l lk')) dv := run_done (Agent.run_read h.record)
  have hcreate : run g t Agent.idCreate (x.onAgent (withLock l lk')) = .done y id := by
    rw [hid, hy]
    exact run_done (Agent.run_idCreate h.reserves.1.put h.reserves.2)
  have hquiet : Quiet g y := by
    rw [hy]
    exact ⟨h.quiet.agent, h.quiet.provider⟩
  have hylock : y.agent.LockAt g.p l lk' := by
    rw [hy]
    exact (hlk.put lk').withId
  obtain ⟨q, ptr, hw, hsound, hdevice, hhandle⟩ := h.works_allocate
  rw [← hid] at hw hhandle
  have hprovider : y.provider = x.provider := by
    rw [hy]
    rfl
  rw [← hprovider] at hw
  obtain ⟨lk'', hwait'⟩ := Agent.Lock.wait_wait hwait
  have hallocate := hquiet.settles.run_agentRemoteAllocate_nested hylock
    (Agent.Lock.wait_sound hwait) hwait' hw
  obtain ⟨z, hz⟩ : ∃ z, z = y.served q
    [.msg Msg.allocateRequest (AllocateRequest.bytes ⟨id, 1, 4, invalidHandle⟩ ++ [])]
    [.msg Msg.allocateResponse (Bytes.word id)] := ⟨_, rfl⟩
  rw [← hz] at hallocate
  have hzquiet : Quiet g z := by
    rw [hz]
    exact hquiet.served q _ _
  have hzprovider : z.provider = q.withNet (.wire [] []) := by
    rw [hz]
    rfl
  obtain ⟨q', ret, hqueries⟩ := works_available (g := g) (hsound.withNet (.wire [] [])) hdevice
    hhandle
  rw [← hzprovider] at hqueries
  have hsend := hzquiet.settles.run_sendRequest (t := t) Msg.executeRequest
    (availableRequest dv.globalId id).bytes
  have hlen : (Bytes.word ret).length ≤ 8 := by rw [Bytes.length_word]
  have hrecv := hzquiet.settles.run_recvmsg (t := t) hqueries hlen
  have hne : id ≠ invalidHandle := by
    rw [hid]
    exact (x.agent.candidates x.agent.draws).property
  have hrequest : run g t (Agent.net (claraSendExecuteRequest (.provider g.p) 3
      [dv.globalId, Agent.clDeviceAvailable.toUInt64, 4, id, 0] invalidHandle)) z = .done (z.sending g
        [.msg Msg.executeRequest (availableRequest dv.globalId id).bytes]) true := hsend
  have hresponse : run g t (Agent.net (claraRecvExecuteResponse (.provider g.p))) (z.sending g
      [.msg Msg.executeRequest (availableRequest dv.globalId id).bytes]) =
      .done ((z.served q' [.msg Msg.executeRequest (availableRequest dv.globalId id).bytes]
        [.msg Msg.executeResponse (Bytes.word ret)]).waiting g []) (some ret) := by
    rw [claraRecvExecuteResponse, recvWord, Agent.net_bind, run_bind, hrecv, Outcome.bind_done]
    simp [Received.stored]
  rw [Agent.queryAvailable]
  simp only
  rw [run_bind, hread, Outcome.bind_done, run_bind, hcreate, Outcome.bind_done, run_bind,
    hallocate, Outcome.bind_done]
  simp only
  rw [run_bind, hrequest, Outcome.bind_done, if_pos rfl, run_bind, hresponse, Outcome.bind_done]
  simp only
  rw [run_bind, Agent.claraSendFetchRequest, if_neg hne]
  rfl

theorem Askable.run_agentDeviceIsAvailable {real : Arg} (h : Askable g t device dv real x) :
    run g t (Agent.agentDeviceIsAvailable g.lzo g.fuel device) x =
      .fault (.agent .nullPointer) := by
  obtain ⟨l, lk, lk', hlk, hwait⟩ := h.lock
  have hread : run g t (Agent.read .device device) x = .done x dv :=
    run_done (Agent.run_read h.record)
  have hlock : run g t (Agent.providerLock g.p) x = .done (x.onAgent (withLock l lk')) () :=
    run_done (Agent.run_providerLock_wait hlk hwait)
  rw [Agent.agentDeviceIsAvailable, run_bind, hread, Outcome.bind_done, if_pos h.available,
    h.provider, run_bind, hlock, Outcome.bind_done, run_bind, h.run_queryAvailable hlk hwait]
  rfl

/-- The query never tells what the library answers and leaves everything else as it was: the id it
has drawn stays behind. When nothing fails it does not return at all. -/
theorem not_tellsAvailability (t : Agent.Tid) {x : Pair Cl} {device : Addr} {dv : Agent.Device}
    (hd : x.agent.heap .device device = some dv) (hav : dv.available = true) :
    (∀ status value, ¬ TellsAvailability g t device status value x) ∧
      ∀ real, Askable g t device dv real x →
        run g t (Agent.agentDeviceIsAvailable g.lzo g.fuel device) x =
          .fault (.agent .nullPointer) := by
  constructor
  · rintro status value ⟨y, b, htold⟩
    obtain ⟨id, hnew, hmem⟩ := agentDeviceIsAvailable_draws hd hav htold.run
    exact hnew ((htold.idPool id).mp hmem)
  · intro real h
    exact h.run_agentDeviceIsAvailable

end

/-- A library that gives the same answer to everything. -/
def answeringCl (status : UInt32) (value : Bytes) : Provider.OpenCl Unit where
  init := ()
  call _ args _ mem :=
    ((), if status = 0 then mem.put (args.getD 3 0) (some value) else mem, ⟨status.toUInt64, 0⟩)

theorem answeringCl_answers (real : Arg) (status : UInt32) (value : Bytes) :
    AnswersAvailable (answeringCl status value) real status value := by
  intro ptr cl mem
  refine ⟨_, _, _, rfl, UInt32.toUInt32_toUInt64 .., fun hs => ?_⟩
  rw [if_pos hs]
  exact Provider.Memory.put_self ..

/-- A device of the platform that the small agent has. -/
def smallDevice : Agent.Device := ⟨1, 77, 78, 8, 4, true, fun _ => []⟩

/-- The small agent with the device at 8, whose global id 8 names the object at 9. -/
def agentWithDevice : Agent.State :=
  let s := (Agent.State.small Agent.someIds).put .device 8 (some smallDevice)
  let s := (s.put .lock 10 (some .free)).put .object 9 (some ⟨8, 78, 0, 10, 1, none⟩)
  let s := s.putSet .idPool ((IdSet.empty.add 9 0).add 8 0)
  let s := s.putSet .objects ((IdSet.empty.add 9 6).add 8 9)
  { s.putSet (.devices 5) (IdSet.empty.add 8 8) with next := 11 }

/-- The small pair with the device. -/
def Pair.withDevice : Pair Unit where
  agent := agentWithDevice
  provider := { Pair.small.provider with
    platforms := [⟨77, 9, [⟨78, 8⟩]⟩]
    idMap := (IdSet.empty.add 9 77).add 8 78 }
  log := []

/-- The device is available. -/
def Setting.answering : Setting Unit :=
  ⟨literalLzo, 1000, answeringCl Agent.clSuccess.toUInt32 [1, 0, 0, 0], 1⟩

theorem askable_withDevice :
    Askable Setting.answering (.consumer 3) 8 smallDevice 78 Pair.withDevice where
  quiet := ⟨rfl, rfl⟩
  sound := ⟨by decide, rfl, fun _ _ h => by cases h⟩
  registered := by decide
  record := rfl
  provider := rfl
  available := rfl
  mapped := by decide
  lock := ⟨2, .free, _, ⟨⟨_, rfl, rfl⟩, rfl⟩, rfl⟩
  reserves := ⟨⟨by decide, rfl⟩, by decide⟩
  not_allocated := by decide
  not_mapped := by decide
  address := by decide

theorem not_tellsAvailability_withDevice :
    (∀ status value,
      ¬ TellsAvailability Setting.answering (.consumer 3) 8 status value Pair.withDevice) ∧
    run Setting.answering (.consumer 3) (Agent.agentDeviceIsAvailable literalLzo 1000 8)
      Pair.withDevice = .fault (.agent .nullPointer) := by
  obtain ⟨hnever, hbreaks⟩ := not_tellsAvailability (g := Setting.answering) (.consumer 3)
    askable_withDevice.record askable_withDevice.available
  exact ⟨hnever, hbreaks 78 askable_withDevice⟩

/-- The library answers that the device is available, and the agent does not survive the answer. -/
theorem not_tellsAvailability_answered : ¬ ∀ (status : UInt32) (value : Bytes),
    Askable Setting.answering (.consumer 3) 8 smallDevice 78 Pair.withDevice →
    AnswersAvailable Setting.answering.lib 78 status value →
    TellsAvailability Setting.answering (.consumer 3) 8 status value Pair.withDevice := by
  intro h
  obtain ⟨y, b, htold⟩ := h 0 [1, 0, 0, 0] askable_withDevice (answeringCl_answers 78 0 _)
  have hrun := htold.run
  rw [askable_withDevice.run_agentDeviceIsAvailable] at hrun
  cases hrun

end Clara.Joint
