import Clara.Agent.Lifecycle

/-! Ids that are left over. The threads' programs give back every id that they have taken from the
pool and that stands for nothing, except those of allocations at providers. -/
namespace Clara.Agent

open Conc

section
variable {s s' : State} {own : Tid → Holding} {t : Tid} {r : Holding}

private theorem calm (t : Tid) : Passes Area.calm fun _ p => pooling.Steady execNoted t p :=
  passes_steady t pooling_harmless

private theorem calmly (t : Tid) : Passes Area.calm fun _ p => pooling.Rests execNoted t p :=
  passes_rests t pooling_harmless

/-- An object for an id in hand, unless the creation fails. -/
theorem holds_objectCreate (hr : r.Light) {id : GlobalId} (hk : r.keeps = some id) (p : Addr)
    (realId : Arg) :
    pooling.Keeps execNoted t (objectCreate p realId id) r fun x r' =>
      x.isSome = true → r' = .empty := by
  rw [objectCreate]
  split_ifs
  · exact fun h => by cases h
  refine (passes_new (calm t) .lock .free (by decide)).step fun lock => ?_
  refine (holds_newObject hr (o := ⟨id, realId, 0, lock, p, none⟩) hk).seq fun a r' h => ?_
  subst h
  refine (passes_read (calm t) .provider p (by decide)).step fun _ => ?_
  refine holds_insertObject.seq fun b r' h => ?_
  exact keeps_assert (fun _ => trivial) fun hb _ => h hb

/-- What follows the choice of an id in `agent_cl_create_object`. -/
private theorem rests_created {id : GlobalId} (p c : Addr) (realId : Arg) {f : AProg GlobalId}
    {Q : GlobalId → Holding → Prop} (hf : pooling.Keeps execNoted t f .empty Q) :
    pooling.Keeps execNoted t (do
      match ← objectCreate p realId id with
      | none => fail (.assertion .clCreateObjectCreate)
      | some obj =>
        assert (← objectRetain obj c) .clCreateObjectRetain
        f) (.id id) Q := by
  have hlight : (Holding.id id).Light := trivial
  refine (holds_objectCreate hlight rfl p realId).seq fun x r' h => ?_
  cases x with
  | none => exact keeps_fail trivial
  | some obj =>
    rw [h rfl]
    refine (passes_objectRetain (calm t) (by decide) obj c).step fun b => ?_
    exact keeps_assert (fun _ => trivial) fun _ => hf

theorem rests_clCreateObject (target : Option Addr) (c : Addr) (realId : Arg) :
    pooling.Rests execNoted t (clCreateObject target c realId invalidId) := by
  intro r hr
  rw [clCreateObject]
  refine keeps_deref (fun _ => trivial) fun p _ => ?_
  refine (passes_read (calm t) .provider p (by decide)).step fun _ => ?_
  refine keeps_ite (fun _ => hr) fun _ => ?_
  refine (holds_idCreate hr).seq fun id r' h => ?_
  obtain ⟨rfl, -⟩ := h
  refine rests_created p c realId ?_
  refine (passes_agentRemoteMap (calm t) (by decide) p realId id).step fun _ => ?_
  trivial

/-- The id that was wished for is used, unless there is nothing to name. -/
theorem holds_clCreateObject (p c : Addr) (realId : Arg) {virt : GlobalId} (hv : virt ≠ invalidId) :
    pooling.Keeps execNoted t (clCreateObject (some p) c realId virt) (.id virt) fun id r' =>
      id = virt → r' = .empty := by
  rw [clCreateObject]
  refine keeps_deref (fun _ => trivial) fun q hq => ?_
  obtain rfl := Option.some.inj hq
  refine (passes_read (calm t) .provider p (by decide)).step fun _ => ?_
  split_ifs
  · exact fun h => absurd h.symm hv
  exact rests_created p c realId fun _ => rfl

theorem rests_agentGenericMapEvent (n : ℕ) (params : ExecuteRequest) (target : Option Addr)
    (c : Addr) : pooling.Rests execNoted t (agentGenericMapEvent n params target c) := by
  intro r hr
  rw [agentGenericMapEvent]
  split_ifs
  · exact hr
  refine keeps_deref (fun _ => trivial) fun p _ => ?_
  refine (passes_read (calm t) .provider p (by decide)).step fun _ => ?_
  refine (holds_idCreate hr).seq fun virt r' h => ?_
  obtain ⟨rfl, hv⟩ := h
  refine (passes_providerLock (calm t) (by decide) p).step fun _ => ?_
  refine (passes_claraSendMapatptrRequest (calm t) (by decide) p virt _).step fun b => ?_
  refine keeps_assert (fun _ => trivial) fun _ => ?_
  refine (passes_claraRecvMapatptrResponse (calm t) (by decide) p).step fun x => ?_
  cases x with
  | none => exact keeps_fail trivial
  | some real =>
    refine (holds_clCreateObject p c real hv).seq fun id r' h => ?_
    refine keeps_assert (fun _ => trivial) fun hid => ?_
    rw [h (by simpa using hid)]
    refine (passes_providerUnlock (calm t) (by decide) p).step fun _ => ?_
    trivial

theorem holds_objectDestroy {a : Addr} {id : GlobalId} :
    pooling.Keeps execNoted t (objectDestroy a) (.dying a id) fun b r' => b = true → r' = .empty := by
  refine (holds_readObject (.inr rfl)).seq fun o r' h => ?_
  obtain ⟨rfl, rfl⟩ := h
  split_ifs
  · exact fun h => by cases h
  refine (passes_read (calm t) .provider o.provider (by decide)).step fun _ => ?_
  refine holds_eraseDying.step fun b => ?_
  refine keeps_assert (fun _ => trivial) fun _ => ?_
  refine holds_freeErased.step fun _ => ?_
  refine (passes_lockPost (calm t) o.lock (by decide)).step fun _ => ?_
  have hlock : pooling.Steady execNoted t (lockDestroy o.lock) :=
    (calm t).bind (passes_lockWait (calm t) _ (by decide)) fun _ =>
      passes_free (calm t) _ _ (by decide)
  exact hlock.step fun _ _ => rfl

theorem rests_releaseObject (c : Addr) (id : GlobalId) :
    pooling.Rests execNoted t (clReleaseObject c id) := by
  intro r hr
  refine (passes_read (calm t) .consumer c (by decide)).step fun _ => ?_
  refine (holds_findObject hr id).seq fun d r' h => ?_
  cases d with
  | none => exact h
  | some a =>
    obtain rfl := h
    refine (holds_readObject (.inl rfl)).seq fun o r' h => ?_
    obtain ⟨rfl, -⟩ := h
    refine (passes_lockWait (calm t) o.lock (by decide)).step fun _ => ?_
    refine (passes_objectRelease (calm t) (by decide) a).step fun _ => ?_
    refine (holds_readObject (.inl rfl)).seq fun o r' h => ?_
    obtain ⟨rfl, -⟩ := h
    split_ifs
    · refine (passes_read (calm t) .provider o.provider (by decide)).step fun _ => ?_
      refine holds_releaseSeen.seq fun b r' h => ?_
      refine keeps_assert (fun _ => trivial) fun hb => ?_
      rw [h hb]
      refine holds_objectDestroy.seq fun b r' h => ?_
      refine keeps_assert (fun _ => trivial) fun hb => ?_
      rw [h hb]
      trivial
    · refine (passes_lockPost (calm t) o.lock (by decide)).step fun _ => ?_
      trivial

theorem steady_claraCreateAllocation (params : AllocateRequest) :
    pooling.Steady execNoted t (claraCreateAllocation params) := by
  refine (calm t).bind ?_ fun ptr => steady_newAllocation _
  have hnew : pooling.Steady execNoted t (do
      let ptr ← new .buffer (List.replicate (params.nmemb.toNat * params.size.toNat) 0)
      pure (some ptr)) :=
    (calm t).bind (passes_new (calm t) .buffer _ (by decide)) fun _ => (calm t).pure _
  rw [calloc]
  split_ifs
  · refine (calm t).bind (passes_memory (calm t) _ (by decide)) fun b => ?_
    cases b with
    | true => exact hnew
    | false => exact (calm t).pure none
  · exact (calm t).pure none

theorem holds_claraDestroyAllocation {a : Addr} {handle : Handle} :
    pooling.Keeps execNoted t (claraDestroyAllocation a) (.removed a handle) fun h r' =>
      h = handle ∧ r' = .removed a handle := by
  rw [claraDestroyAllocation]
  have hread : pooling.Keeps execNoted t (read .allocation a) (.removed a handle) fun al r' =>
      r' = .removed a handle ∧ al.handle = handle := holds_readNamed fun _ al hn hal => hn.2 al hal
  refine hread.seq fun al r' h => ?_
  obtain ⟨rfl, rfl⟩ := h
  cases al.ptr with
  | none => exact (steady_freeAllocation a).step fun _ => ⟨rfl, rfl⟩
  | some ptr =>
    refine (passes_free (calm t) .buffer ptr (by decide)).step fun _ => ?_
    exact (steady_freeAllocation a).step fun _ => ⟨rfl, rfl⟩

/-- An allocation that was looked at is taken out of its set and freed with its id. -/
private theorem rests_dropped {c a : Addr} {handle : Handle} {x y : Assertion}
    (hy : (Op.fail (.assertion y)).area ∈ Area.calm) :
    pooling.Keeps execNoted (.consumer c) (do
      assert (← setRemove (.allocations c) handle) x
      let oldHandle ← claraDestroyAllocation a
      assert (← idRelease oldHandle) y) (.opened a handle) fun _ r' =>
        pooling.rest (.consumer c) r' := by
  refine holds_removeAllocation.seq fun b r' h => ?_
  refine keeps_assert (fun _ => trivial) fun _ => ?_
  subst h
  refine holds_claraDestroyAllocation.seq fun old r' h => ?_
  obtain ⟨rfl, rfl⟩ := h
  refine holds_releaseRemoved.seq fun b r' h => ?_
  subst h
  exact (passes_assert (calm _) b y hy).rests _ trivial

theorem rests_allocateUndo (c : Addr) (allocation : Option Addr) :
    pooling.Rests execNoted (.consumer c) (allocateUndo c allocation) := by
  intro r hr
  refine keeps_deref (fun _ => trivial) fun a _ => ?_
  refine (holds_openAllocation hr a).seq fun al r' h => ?_
  subst h
  exact rests_dropped (by decide)

theorem rests_fetchLocal (lzo : Lzo) (c : Addr) (params : FetchRequest) :
    pooling.Rests execNoted (.consumer c) (fetchLocal lzo c params) := by
  intro r hr
  have hst := calm (.consumer c)
  refine (passes_claraFindAllocation hst (by decide) c params.handle).step fun x => ?_
  refine keeps_deref (fun _ => trivial) fun a _ => ?_
  refine (holds_openAllocation hr a).seq fun al r' h => ?_
  subst h
  have hrest : pooling.Keeps execNoted (.consumer c) (do
      assert (← setRemove (.allocations c) al.handle) .fetchRemove
      let oldHandle ← claraDestroyAllocation a
      assert (← idRelease oldHandle) .fetchId) (.opened a al.handle) fun _ r' =>
        pooling.rest (.consumer c) r' := rests_dropped (by decide)
  have hbuf : pooling.Steady execNoted (.consumer c) (do
      let ptr ← deref al.ptr
      let buf ← read .buffer ptr
      pure (buf.take (min params.size (al.nmemb * al.size)).toNat)) :=
    hst.bind (passes_deref hst _ (by decide)) fun ptr =>
      hst.bind (passes_read hst .buffer ptr (by decide)) fun _ => hst.pure _
  refine keeps_ite (fun _ => ?_) fun _ => hrest
  have hpart : ∀ b : Prop, [Decidable b] → pooling.Steady execNoted (.consumer c)
      (if b then pure [] else do
      let ptr ← deref al.ptr
      let buf ← read .buffer ptr
      pure (buf.take (min params.size (al.nmemb * al.size)).toNat)) := by
    intro b _
    split_ifs
    · exact hst.pure []
    · exact hbuf
  refine (hpart _).step fun buf => ?_
  exact (passes_claraSendFetchResponse hst (by decide) lzo c buf _).step fun _ => hrest

theorem rests_allocateLocal (c : Addr) (params : AllocateRequest) (extra : Bytes) :
    pooling.Rests execNoted (.consumer c) (allocateLocal c params extra) := by
  intro r hr
  have hst := calm (.consumer c)
  refine (holds_idCreate hr).seq fun id r' h => ?_
  obtain ⟨rfl, -⟩ := h
  refine (steady_claraCreateAllocation _).step fun a => ?_
  refine holds_insertAllocation.seq fun b r' h => ?_
  refine keeps_assert (fun _ => trivial) fun hb => ?_
  rw [h hb]
  have hpoke : pooling.Steady execNoted (.consumer c) (do
      assert (extra.length == (params.nmemb * params.size).toNat) .allocateExtra
      let al ← read .allocation a
      let ptr ← deref al.ptr
      poke (ptr2Arg (some ptr)) 0 extra
      pure a) :=
    hst.bind (passes_assert hst _ _ (by decide)) fun _ =>
      hst.bind (passes_read hst .allocation a (by decide)) fun _ =>
        hst.bind (passes_deref hst _ (by decide)) fun _ =>
          hst.bind (passes_poke hst (by decide) _ _ _) fun _ => hst.pure _
  split_ifs
  · exact hpoke.rests _ trivial
  · trivial

/-- An id that was made for an allocation at a provider stands for it once the request is out. -/
theorem holds_agentRemoteAllocate {id : GlobalId} (p : Addr) {params : AllocateRequest}
    (hid : params.handle = id) (extra : Bytes) :
    pooling.Keeps execNoted t (agentRemoteAllocate p params extra) (.id id) fun _ r' =>
      r' = .empty := by
  have hm : (params.bytes ++ extra).wordAt 0 = id := by
    rw [AllocateRequest.bytes, Bytes.wordAt_words _ _ _ (by simp)]
    exact hid
  refine (passes_providerLock (calm t) (by decide) p).step fun _ => ?_
  refine (holds_sendAllocate hm).seq fun x r' h => ?_
  obtain ⟨hx, rfl⟩ := h
  cases x with
  | none => cases hx
  | some n =>
    refine (holds_recvAllocate _).seq fun y r' h => ?_
    subst h
    refine (passes_providerUnlock (calm t) (by decide) p).step fun _ => ?_
    cases y.stored with
    | none => rfl
    | some b => exact keeps_assert (fun _ => trivial) fun _ => rfl

theorem rests_allocateRemote (params : AllocateRequest) (extra : Bytes) :
    pooling.Rests execNoted t (allocateRemote params extra) := by
  intro r hr
  refine (passes_findHint (calm t) (by decide) _ _ (by decide)).step fun object => ?_
  refine (holds_idCreate hr).seq fun id r' h => ?_
  obtain ⟨rfl, -⟩ := h
  refine (passes_read (calm t) .object object (by decide)).step fun o => ?_
  refine (holds_agentRemoteAllocate o.provider rfl extra).step fun _ => ?_
  trivial

theorem rests_agentDeviceIsAvailable (lzo : Lzo) (fuel : ℕ) (device : Addr) :
    pooling.Rests execNoted t (agentDeviceIsAvailable lzo fuel device) := by
  have hst := calm t
  have hquery : ∀ p, pooling.Rests execNoted t (queryAvailable lzo fuel device p) := by
    intro p r hr
    refine (passes_read hst .device device (by decide)).step fun dv => ?_
    refine (holds_idCreate hr).seq fun handle r' h => ?_
    obtain ⟨rfl, -⟩ := h
    refine (holds_agentRemoteAllocate p rfl []).step fun x => ?_
    cases x with
    | none => trivial
    | some result =>
      refine (passes_claraSendExecuteRequest hst (by decide) p _ _ _).step fun b => ?_
      refine keeps_ite (fun _ => ?_) fun _ => trivial
      refine (passes_claraRecvExecuteResponse hst (by decide) p).step fun y => ?_
      cases y with
      | none => trivial
      | some retval =>
        refine (passes_claraSendFetchRequest hst (by decide) p _ _ _ _).step fun b => ?_
        refine keeps_ite (fun _ => ?_) fun _ => trivial
        exact (passes_claraRecvFetchResponse hst (by decide) lzo fuel p 4).step fun _ => trivial
  intro r hr
  refine (passes_read hst .device device (by decide)).step fun dv => ?_
  split_ifs
  · refine (passes_providerLock hst (by decide) dv.provider).step fun _ => ?_
    refine (hquery dv.provider r hr).seq fun result r' h => ?_
    exact (passes_providerUnlock hst (by decide) dv.provider).step fun _ => h
  · exact hr

theorem rests_consumerShutdown (c : Addr) :
    pooling.Rests execNoted (.consumer c) (consumerShutdown c) := by
  have hst := calm (.consumer c)
  have hdetach : pooling.Steady execNoted (.consumer c) (consumerDetach c) := by
    have hlast : pooling.Steady execNoted (.consumer c) (do
        if ← setRemove .consumers c then
          store .consumer c (.attached false)
          pure true
        else pure false) :=
      hst.bind (passes_setRemove hst .consumers c (by decide)) fun b =>
        passes_ite (K := fun _ p => pooling.Steady execNoted (.consumer c) p)
          (hst.bind (passes_store hst .consumer c _ (by decide)) fun _ => hst.pure _) (hst.pure _)
    refine hst.bind (passes_read hst .consumer c (by decide)) fun consumer => ?_
    split_ifs
    · exact hst.pure false
    · refine hst.bind (passes_loadBalancing hst (by decide)) fun lb => ?_
      split_ifs
      · exact hst.bind (passes_lbReleasePlatform hst (by decide) c) fun _ => hlast
      · exact hlast
  have hdestroy : pooling.Rests execNoted (.consumer c) (consumerDestroy c) := by
    intro r hr
    refine (passes_read hst .consumer c (by decide)).step fun consumer => ?_
    refine keeps_ite (fun _ => hr) fun _ => ?_
    refine (holds_startAllocations hr).seq fun l r' h => ?_
    cases l with
    | cons a l =>
      -- the agent does not survive the first allocation it destroys here
      have hloop : pooling.Keeps execNoted (.consumer c) (forEach (fun allocation => do
          let _ ← claraDestroyAllocation allocation
          fail .nullPointer) (a :: l)) r' fun _ _ => False := by
        have hfail : pooling.Steady execNoted (.consumer c) (claraDestroyAllocation a) := by
          refine hst.bind (passes_read hst .allocation a (by decide)) fun al => ?_
          cases al.ptr with
          | none => exact hst.bind (steady_freeAllocation a) fun _ => hst.pure _
          | some ptr =>
            exact hst.bind (passes_free hst .buffer ptr (by decide)) fun _ =>
              hst.bind (steady_freeAllocation a) fun _ => hst.pure _
        refine Discipline.Keeps.bind ?_
        refine (hfail.step fun _ => keeps_fail (Q := fun _ _ => False) trivial).mono fun _ _ h => ?_
        exact h.elim
      exact hloop.seq fun _ _ h => h.elim
    | nil =>
      rw [h rfl]
      refine (hst.pure ()).step fun _ => ?_
      refine (passes_setFinish hst (.allocations c) (by decide)).step fun _ => ?_
      refine holds_destroyAllocations.step fun _ => ?_
      refine (passes_setStart hst (.objectsOf c) (by decide)).step fun _ => ?_
      refine (passes_setFinish hst (.objectsOf c) (by decide)).step fun _ => ?_
      refine (passes_setDestroy hst (.objectsOf c) (by decide : Area.count ∈ _)).step fun _ => ?_
      refine (passes_free hst .consumer c (by decide)).step fun _ => ?_
      trivial
  intro r hr
  refine hdetach.step fun b => keeps_assert (fun _ => trivial) fun _ => ?_
  refine (hdestroy r hr).seq fun b r' h => keeps_assert (fun _ => trivial) fun _ => ?_
  exact (passes_setPhase hst (.consumer c) .finished (by decide : Area.scratch ∈ _)).rests r' h

theorem rests_ofConsumer (lzo : Lzo) (fuel : ℕ) (c : Addr) (q : ConsumerRequest) :
    pooling.Rests execNoted (.consumer c) (agentConsumerHandler lzo fuel c q) := by
  have hrs := calmly (.consumer c)
  have hserves : Serves lzo fuel c Area.calm fun _ p => pooling.Rests execNoted (.consumer c) p :=
    { toPasses := hrs
      clCreateObject := fun target localId => rests_clCreateObject target c localId
      agentGenericMapEvent := fun n params target => rests_agentGenericMapEvent n params target c
      clRetainObject := passes_clRetainObject hrs (by decide) c
      clReleaseObject := rests_releaseObject c
      agentRemoteExecute := passes_agentRemoteExecute hrs (by decide)
      agentDeviceIsAvailable := rests_agentDeviceIsAvailable lzo fuel
      allocateLocal := rests_allocateLocal c
      allocateRemote := rests_allocateRemote
      allocateUndo := rests_allocateUndo c
      agentForwardMemput := passes_agentForwardMemput hrs (by decide) fuel c
      fetchLocal := rests_fetchLocal lzo c
      agentForwardFetch := passes_agentForwardFetch hrs (by decide) fuel c
      consumerShutdown := rests_consumerShutdown c }
  exact serves_agentConsumerHandler hserves (by decide) q

/-- A platform or device gets an object, or the agent ends. -/
private theorem rests_registered (hr : r.Light) {id : GlobalId} (hk : r.keeps = some id) (p : Addr)
    (realId : Arg) {x : Assertion} (type : MessageType) :
    pooling.Keeps execNoted t (do
      assert (← objectCreate p realId id).isSome x
      let _ ← net (claraSendmsg (.provider p) type (Bytes.word id))) r fun _ r' =>
        pooling.rest t r' := by
  refine (holds_objectCreate hr hk p realId).seq fun y r' h => ?_
  refine keeps_assert (fun _ => trivial) fun hy => ?_
  rw [h hy]
  refine (passes_claraSendmsg (calm t) (by decide) (.provider p) type (Bytes.word id)).step
    fun _ => ?_
  trivial

theorem rests_handlePlatformInfo (p : Addr) (info : PlatformInfo) :
    pooling.Rests execNoted t (handlePlatformInfo p info) := by
  have hst := calm t
  have hcreate : ∀ r, pooling.rest t r →
      pooling.Keeps execNoted t (platformCreate p info) r fun a r' => ∃ id, r' = .platform a id := by
    intro r hr
    refine (passes_read hst .provider p (by decide)).step fun _ => ?_
    refine (holds_idCreate hr).seq fun id r' h => ?_
    obtain ⟨rfl, -⟩ := h
    refine (holds_newPlatform ⟨p, none, info.id, id, info.info⟩).seq fun a r' h => ?_
    subst h
    exact (passes_setCreate hst (.devices a) (by decide : Area.roster ∈ _)).step fun _ => ⟨id, rfl⟩
  intro r hr
  refine (hcreate r hr).seq fun a r' h => ?_
  obtain ⟨id, rfl⟩ := h
  refine holds_readPlatform.seq fun pf r' h => ?_
  obtain ⟨rfl, rfl⟩ := h
  refine (passes_setInsert hst (.platforms p) pf.globalId a (by decide : Area.platform ∈ _)).step
    fun b => ?_
  refine keeps_assert (fun _ => trivial) fun _ => ?_
  have hlight : (Holding.platform a pf.globalId).Light := trivial
  exact rests_registered hlight rfl p pf.id Msg.openclPlatformId

theorem rests_handleDeviceInfo (p : Addr) (info : DeviceInfo) :
    pooling.Rests execNoted t (handleDeviceInfo p info) := by
  have hst := calm t
  have hcreate : ∀ r, pooling.rest t r → pooling.Keeps execNoted t (deviceCreate p info) r fun a r' =>
      ∃ id, r' = .device a id := by
    intro r hr
    refine (passes_read hst .provider p (by decide)).step fun _ => ?_
    refine (holds_idCreate hr).seq fun id r' h => ?_
    obtain ⟨rfl, -⟩ := h
    exact (holds_newDevice ⟨p, info.platformId, info.id, id, info.type, info.available,
      info.info⟩).mono fun a r' h => ⟨id, h⟩
  intro r hr
  refine (hcreate r hr).seq fun a r' h => ?_
  obtain ⟨id, rfl⟩ := h
  refine holds_readDevice.seq fun dv r' h => ?_
  obtain ⟨rfl, rfl⟩ := h
  refine (passes_agentFindPlatformByLocalId hst (by decide) p dv.platformId).step fun x => ?_
  cases x with
  | none => exact keeps_fail trivial
  | some platform =>
    refine (passes_setInsert hst (.devices platform) dv.globalId a
      (by decide : Area.platform ∈ _)).step fun b => ?_
    refine keeps_assert (fun _ => trivial) fun _ => ?_
    have hlight : (Holding.device a dv.globalId).Light := trivial
    exact rests_registered hlight rfl p dv.id Msg.openclDeviceId

theorem steady_providerShutdown (p : Addr) : pooling.Steady execNoted t (providerShutdown p) := by
  have hst := calm t
  have hdetach : pooling.Steady execNoted t (providerDetach p) := by
    refine hst.bind (passes_read hst .provider p (by decide)) fun provider => ?_
    split_ifs
    · exact hst.pure false
    · refine hst.bind (passes_loadBalancing hst (by decide)) fun lb => ?_
      split_ifs
      · exact hst.bind (passes_setStart hst (.platforms p) (by decide)) fun l =>
          hst.bind (passes_forEach hst (fun pf =>
            hst.bind (passes_lbRemovePlatform hst (by decide) pf) fun _ => hst.pure _) l) fun _ =>
              hst.bind (passes_setFinish hst (.platforms p) (by decide)) fun _ =>
                passes_setRemove hst .providers p (by decide)
      · exact passes_setRemove hst .providers p (by decide)
  have hdestroy : pooling.Steady execNoted t (providerDestroy p) := by
    refine hst.bind (passes_read hst .provider p (by decide)) fun provider => ?_
    have hlock : pooling.Steady execNoted t (lockDestroy provider.lock) :=
      hst.bind (passes_lockWait hst _ (by decide)) fun _ => passes_free hst .lock _ (by decide)
    refine hst.bind hlock fun _ => ?_
    refine hst.bind (passes_setStart hst (.platforms p) (by decide)) fun l => ?_
    refine hst.bind (passes_forEach hst (fun pf =>
      hst.bind (passes_platformDestroy hst (by decide) pf) fun _ => hst.pure _) l) fun _ => ?_
    refine hst.bind (passes_setFinish hst (.platforms p) (by decide)) fun _ => ?_
    refine hst.bind (passes_setDestroy hst (.platforms p) (by decide : Area.roster ∈ _)) fun _ => ?_
    exact hst.bind (passes_free hst .provider p (by decide)) fun _ => hst.pure _
  exact hst.bind hdetach fun _ => hst.bind (passes_assert hst _ _ (by decide)) fun _ =>
    hst.bind hdestroy fun _ => hst.bind (passes_assert hst _ _ (by decide)) fun _ =>
      passes_setPhase hst (.provider p) .finished (by decide : Area.turn ∈ _)

theorem rests_ofProvider (p : Addr) (q : ProviderRequest) :
    pooling.Rests execNoted t (agentProviderHandler p q) := by
  have hrs := calmly t
  cases q with
  | platformInfo info => exact rests_handlePlatformInfo p info
  | deviceInfo info => exact rests_handleDeviceInfo p info
  | idle =>
    exact passes_handleIdle hrs (by decide) p
      (passes_setPhase hrs (.provider p) .serving (by decide : Area.turn ∈ _))
  | ping sec => exact passes_handlePing hrs (by decide) p sec
  | shutdown => exact (steady_providerShutdown p).rests

theorem rests_agentNewConsumer :
    pooling.Keeps execNoted .main agentNewConsumer .empty fun _ r' => pooling.rest .main r' := by
  have hst := calm .main
  have hcreate : pooling.Keeps execNoted .main consumerCreate .empty fun _ r' => r' = .empty := by
    refine (holds_newConsumer ⟨false, none⟩).seq fun c r' h => ?_
    subst h
    refine (passes_setCreate hst (.objectsOf c) (by decide : Area.count ∈ _)).step fun _ => ?_
    exact holds_createAllocations.step fun _ => rfl
  have hattach : ∀ c, pooling.Steady execNoted .main (consumerAttach c) := by
    intro c
    refine hst.bind (passes_setInsert hst .consumers c c (by decide)) fun b => ?_
    split_ifs
    · exact hst.bind (passes_store hst .consumer c _ (by decide)) fun _ => hst.pure _
    · exact hst.pure false
  have hsend : ∀ c type, pooling.Steady execNoted .main (do
      let _ ← net (claraSendmsg (.consumer c) type [])) := fun c type =>
    hst.bind (passes_claraSendmsg hst (by decide) (.consumer c) type []) fun _ => hst.pure _
  rw [agentNewConsumer_eq]
  refine hcreate.step fun c => ?_
  refine (hattach c).step fun b => ?_
  split_ifs
  · refine (passes_setPhase hst (.consumer c) .serving (by decide : Area.scratch ∈ _)).step
      fun _ => ?_
    exact (hsend c Msg.ack).rests _ trivial
  · exact (hsend c Msg.nack).rests _ trivial

/-- Every request is served from the share of an idle thread to the share of an idle thread. -/
theorem pooled_serve (lzo : Lzo) (fuel : ℕ) (s : State) (n : Notes) (own : Tid → Holding) (t : Tid)
    (q : Request) (h : Pooled s n own) (hr : pooling.rest t (own t)) :
    ∃ r, Pooled s n (Function.update own t r) ∧
      pooling.Keeps execNoted t (serve lzo fuel t q) r fun _ r' => pooling.rest t r' := by
  have hdrop : Pooled s n (Function.update own t .empty) := by
    refine h.exchange (quiet_same s n) ⟨Holding.light_of_rest hr, trivial, trivial, nofun, nofun,
      nofun, nofun, fun id _ hk => ?_⟩
    rw [Holding.keeps_of_rest hr] at hk
    cases hk
  refine ⟨.empty, hdrop, ?_⟩
  have hnop : pooling.Keeps execNoted t (pure ()) .empty fun _ r' => pooling.rest t r' := trivial
  cases t with
  | main =>
    cases q with
    | newProvider addr =>
      exact passes_agentNewProvider (calmly .main) (by decide) (by decide) (by decide) (by decide)
        addr _ trivial
    | newConsumer => exact rests_agentNewConsumer
    | _ => exact hnop
  | provider p =>
    cases q with
    | provider q => exact rests_ofProvider p q _ trivial
    | _ => exact hnop
  | consumer c =>
    cases q with
    | consumer q => exact rests_ofConsumer lzo fuel c q _ trivial
    | _ => exact hnop
  | network =>
    cases q with
    | arrive sd i =>
      exact (calmly .network).op (.deliver sd i) (by decide : Area.arrival ∈ _) _ trivial
    | _ => exact hnop

end

def NoLocal (_ : Tid) : Op → State → Prop
  | .setInsert (.allocations _) _ _, _ => False
  | _, _ => True

theorem noLocal_allocations {lzo : Lzo} {fuel : ℕ} {candidates : ℕ → Candidate} {lb : Bool}
    {memory : Addr → ℕ → Bool} {c : Config Op Op.Res State Fault Tid}
    (h : (system lzo fuel).Reach NoLocal (.idle (.initial candidates lb memory)) c) (d : Addr)
    (k : GlobalId) : k ∉ c.state.sets (.allocations d) := by
  induction h with
  | refl => exact IdSet.not_mem_iff.mpr rfl
  | @fire c c' e _ hg hf ih =>
    cases e with
    | start t q =>
      obtain ⟨-, -, -, rfl⟩ := System.fire_start hf
      exact ih
    | step t =>
      obtain ⟨-, o, p, hth, ⟨s, x, he, rfl⟩ | ⟨f, -, rfl⟩⟩ := System.fire_step hf
      · rw [Config.Guarded, hth] at hg
        have hput : ∀ (r : SetRef) (v : IdSet r.Key Addr), r ≠ .allocations d →
            k ∉ (c.state.putSet r v).sets (.allocations d) := by
          intro r v hr
          rwa [State.putSet_sets_of_ne _ v hr.symm]
        cases change_of_done he with
        | setCreate r =>
          by_cases hr : r = .allocations d
          · subst hr
            rw [State.putSet_sets_self]
            exact IdSet.not_mem_empty k
          · exact hput r _ hr
        | setDestroy r =>
          by_cases hr : r = .allocations d
          · subst hr
            rw [State.putSet_sets_self]
            exact IdSet.not_mem_iff.mpr rfl
          · exact hput r _ hr
        | setInsert r key a =>
          refine hput r _ ?_
          rintro rfl
          exact hg
        | setRemove r key =>
          by_cases hr : r = .allocations d
          · subst hr
            rw [State.putSet_sets_self]
            exact fun hk => ih (IdSet.mem_erase.mp hk).2
          · exact hput r _ hr
        | _ => exact ih
      · exact ih

/-- A provider registers a platform; a consumer allocates memory there and fetches it. -/
def fetching : List (Event Tid Request) :=
  .start .main (.newProvider 7) :: List.replicate 9 (.step .main) ++
  .start (.provider 2) (.provider (.platformInfo ⟨77, fun _ => []⟩)) ::
    List.replicate 12 (.step (.provider 2)) ++
  .start .main .newConsumer :: List.replicate 7 (.step .main) ++
  .start (.consumer 6) (.consumer (.allocate ⟨invalidHandle, 1, 4, 10⟩ [])) ::
    List.replicate 8 (.step (.consumer 6)) ++
  [.start .network (.arrive (.provider 2)
    (.record (Sent.msg Msg.allocateResponse (Bytes.word 11)).record)), .step .network] ++
  List.replicate 4 (.step (.consumer 6)) ++
  .start (.consumer 6) (.consumer (.fetch ⟨11, 0, 10, ⟨0, 0⟩⟩)) ::
    List.replicate 7 (.step (.consumer 6))

def isIdle (p : AProg Unit) : Bool :=
  match p with
  | .ret _ => true
  | .op _ _ => false

/-- The id is in the pool and stands for nothing that the agent knows of. -/
def isLeft (x : State × Notes) (id : GlobalId) : Bool :=
  id ∈ x.1.sets .idPool ∧ (x.1.platformAt id).isNone ∧ (x.1.deviceAt id).isNone ∧
    id ∉ x.1.sets .objects ∧ ∀ y ∈ x.2.made, y.2 ≠ id

def makesNone (c : Config Op Op.Res (State × Notes) Fault Tid) : Event Tid Request → Bool
  | .start _ _ => true
  | .step t => match c.threads t with
    | .op (.setInsert (.allocations _) _ _) _ => false
    | _ => true

theorem noLocal_of_makesNone (c : Config Op Op.Res (State × Notes) Fault Tid)
    (e : Event Tid Request) (h : makesNone c e = true) :
    c.Guarded (fun t o x => NoLocal t o x.1) e := by
  cases e with
  | start t q => trivial
  | step t =>
    rw [Config.Guarded]
    split
    · trivial
    · next o p hth =>
      rw [makesNone, hth] at h
      unfold NoLocal
      split
      · cases h
      · trivial

theorem eq_pure_of_isIdle {p : AProg Unit} (h : isIdle p = true) : p = .ret () := by
  cases p with
  | ret a => rfl
  | op o k => cases h

end Clara.Agent
