import Clara.Joint.Pair
import Clara.Agent.ObjectSpec
import Clara.Common.Relay
import Clara.Provider.Isolation

/-! The conversations between the agent and a provider: what each sends, how it is answered, and
that both directions of the connection are empty when it is over. -/
namespace Clara.Joint

open Conc

variable {Cl : Type} {g : Setting Cl} {t : Agent.Tid} {x y : Pair Cl} {provider : Agent.Provider}
  {q : Provider.State Cl} {rs out : List Sent}

theorem beside_put (k : Agent.Kind) (a : Addr) (v : Option k.Rec) :
    Beside g fun s => s.put k a v where
  conn _ := rfl
  push _ _ := rfl

def toConsumer (c : Addr) (rs : List Sent) (s : Agent.State) : Agent.State :=
  s.withNet (s.net.push (.consumer c) rs)

def fromConsumer (c : Addr) (q : List Incoming) (s : Agent.State) : Agent.State :=
  s.withNet (s.net.withInq (.consumer c) q)

theorem consumer_ne (p c : Addr) : Agent.Sd.provider p ≠ .consumer c := nofun

theorem beside_toConsumer (c : Addr) (rs : List Sent) : Beside g (toConsumer c rs) where
  conn s := Net.push_of_ne s.net _ (consumer_ne g.p c) rs
  push s rs' := by
    rw [toConsumer, toConsumer, Agent.State.withNet_net, Net.push_comm _ _ (consumer_ne g.p c).symm]
    rfl

theorem beside_fromConsumer (c : Addr) (q : List Incoming) : Beside g (fromConsumer c q) where
  conn s := Net.withInq_of_ne s.net _ (consumer_ne g.p c) q
  push s rs' := by
    rw [fromConsumer, fromConsumer, Agent.State.withNet_net,
      Net.withInq_push _ _ (consumer_ne g.p c).symm]
    rfl

def lockedBy (t : Agent.Tid) (l : Addr) (s : Agent.State) : Agent.State :=
  s.put .lock l (some ⟨some t, 1⟩)

/-- The provider's record is there, and nobody has the connection. -/
structure Attached (g : Setting Cl) (provider : Agent.Provider) (x : Pair Cl) : Prop where
  record : x.agent.heap .provider g.p = some provider
  lock : x.agent.heap .lock provider.lock = some .free

theorem Attached.of_heap (h : Attached g provider y) (hx : x.agent.heap = y.agent.heap) :
    Attached g provider x := ⟨by rw [hx]; exact h.record, by rw [hx]; exact h.lock⟩

theorem Attached.run_lock (h : Attached g provider x) :
    run g t (Agent.providerLock g.p) x = .done (x.onAgent (lockedBy t provider.lock)) () :=
  run_done (Agent.run_providerLock h.record h.lock)

theorem Attached.run_unlock (h : Attached g provider x) :
    run g t (Agent.providerUnlock g.p) (x.onAgent (lockedBy t provider.lock)) = .done x () :=
  run_done (Agent.run_providerUnlock h.record h.lock)

/-- A request and its answer, with the lock taken and still held. -/
theorem Settles.run_exchange (h : Settles g x y) {type type' : MessageType} {msg msg' : Bytes}
    {rest : List Sent} (hw : g.Works [.msg type msg] (.msg type' msg' :: rest) y.provider q)
    (len : ℕ) (hlen : msg'.length ≤ len) (l : Addr) :
    run g t (Agent.net (claraSendmsg (.provider g.p) type msg)) (x.onAgent (lockedBy t l)) =
        .done ((x.onAgent (lockedBy t l)).sending g [.msg type msg]) (some msg.length) ∧
      run g t (Agent.net (claraRecvmsg (.provider g.p) len))
          ((x.onAgent (lockedBy t l)).sending g [.msg type msg]) =
        .done (((y.served q [.msg type msg] (.msg type' msg' :: rest)).waiting g rest).onAgent
          (lockedBy t l)) (.message type' msg') := by
  have hlocked := h.onAgent (f := lockedBy t l) (beside_put ..)
  exact ⟨hlocked.run_sendmsg type msg, hlocked.run_recvmsg hw hlen⟩

theorem Settles.run_agentRemoteAllocate (h : Settles g x y) (ha : Attached g provider y)
    {params : AllocateRequest} {extra : Bytes} {handle : Handle}
    (hw : g.Works [.msg Msg.allocateRequest (params.bytes ++ extra)]
      [.msg Msg.allocateResponse (Bytes.word handle)] y.provider q) :
    run g t (Agent.agentRemoteAllocate g.p params extra) x =
      .done (y.served q [.msg Msg.allocateRequest (params.bytes ++ extra)]
        [.msg Msg.allocateResponse (Bytes.word handle)]) (some handle) := by
  obtain ⟨hsend, hrecv⟩ := h.run_exchange (t := t) hw 8 (by simp) provider.lock
  have hquiet := h.quiet.served q [.msg Msg.allocateRequest (params.bytes ++ extra)]
    [.msg Msg.allocateResponse (Bytes.word handle)]
  rw [Agent.agentRemoteAllocate, run_bind, (ha.of_heap h.heap).run_lock, Outcome.bind_done,
    run_bind, hsend, Outcome.bind_done]
  simp only
  rw [run_bind, hrecv, Outcome.bind_done, hquiet.waiting_nil, run_bind,
    (ha.of_heap (x := y.served q _ _) rfl).run_unlock, Outcome.bind_done]
  simp [Received.stored, Agent.assert]

theorem Settles.run_agentRemoteAllocate_breaks (h : Settles g x y) (ha : Attached g provider y)
    {params : AllocateRequest} {extra : Bytes} {f : Provider.Fault}
    (hb : g.Breaks [.msg Msg.allocateRequest (params.bytes ++ extra)] f y.provider) :
    run g t (Agent.agentRemoteAllocate g.p params extra) x = .fault (.provider f) := by
  have hlocked := h.onAgent (f := lockedBy t provider.lock) (beside_put ..)
  rw [Agent.agentRemoteAllocate, run_bind, (ha.of_heap h.heap).run_lock, Outcome.bind_done,
    run_bind, hlocked.run_sendmsg, Outcome.bind_done]
  simp only
  rw [run_bind, hlocked.run_recvmsg_breaks hb]
  rfl

theorem Settles.run_agentRemoteExecute (h : Settles g x y) (ha : Attached g provider y)
    {params : ExecuteRequest} {ret : Arg}
    (hw : g.Works [.msg Msg.executeRequest params.bytes]
      [.msg Msg.executeResponse (Bytes.word ret)] y.provider q) :
    run g t (Agent.agentRemoteExecute (some g.p) params) x =
      .done (y.served q [.msg Msg.executeRequest params.bytes]
        [.msg Msg.executeResponse (Bytes.word ret)]) (some ret) := by
  obtain ⟨hsend, hrecv⟩ := h.run_exchange (t := t) hw 8 (by simp) provider.lock
  have hquiet := h.quiet.served q [.msg Msg.executeRequest params.bytes]
    [.msg Msg.executeResponse (Bytes.word ret)]
  rw [Agent.agentRemoteExecute, run_bind, (ha.of_heap h.heap).run_lock, Outcome.bind_done,
    run_bind, hsend, Outcome.bind_done]
  simp only
  rw [run_bind, hrecv, Outcome.bind_done, hquiet.waiting_nil, run_bind,
    (ha.of_heap (x := y.served q _ _) rfl).run_unlock, Outcome.bind_done]
  simp [Received.stored, Agent.assert]

theorem Settles.run_agentRemoteMap (h : Settles g x y) (ha : Attached g provider y) (real : Arg)
    (virt : GlobalId) :
    run g t (Agent.agentRemoteMap g.p real virt) x =
      .done (x.sending g [.msg Msg.mapping (Agent.mappingParams virt real)]) true := by
  have hread : run g t (Agent.read .provider g.p) x = .done x provider :=
    run_done (Agent.run_read (ha.of_heap h.heap).record)
  rw [Agent.agentRemoteMap, run_bind, hread, Outcome.bind_done, run_bind, h.run_sendmsg,
    Outcome.bind_done]
  simp [Agent.assert]

theorem Settles.run_handlePing (h : Settles g x y) (ha : Attached g provider y) {sec sec' : UInt64}
    (hw : g.Works [.msg Msg.ping (Bytes.words [sec])] [.msg Msg.pong (Bytes.word sec')]
      y.provider q) :
    run g t (Agent.handlePing g.p sec) x =
      .done (y.served q [.msg Msg.ping (Bytes.words [sec])] [.msg Msg.pong (Bytes.word sec')])
        () := by
  obtain ⟨hsend, hrecv⟩ := h.run_exchange (t := t) hw 10000 (by simp) provider.lock
  have hquiet := h.quiet.served q [.msg Msg.ping (Bytes.words [sec])]
    [.msg Msg.pong (Bytes.word sec')]
  have hword : Bytes.word sec = Bytes.words [sec] := by simp [Bytes.words]
  rw [Agent.handlePing, hword, run_bind, (ha.of_heap h.heap).run_lock, Outcome.bind_done, run_bind,
    hsend, Outcome.bind_done, run_bind, hrecv, Outcome.bind_done, hquiet.waiting_nil,
    (ha.of_heap (x := y.served q _ _) rfl).run_unlock]

/-- The stream goes from the consumer's connection straight on to the provider's. -/
theorem Settles.run_agentForwardMemput (h : Settles g x y) (ha : Attached g provider y) {c : Addr}
    {params : MemputStreamParams} {stp : StreamOptions} {data : Bytes} {later : List Incoming}
    (hfit : stp.Fits g.lzo data)
    (hfuel : (streamRecords g.lzo stp data).length + dataBytes (streamRecords g.lzo stp data) ≤
      g.fuel)
    (hq : (y.agent.net (.consumer c)).inq =
      Net.incoming (streamRecords g.lzo stp data) ++ later) :
    run g t (Agent.agentForwardMemput g.fuel c g.p params) x =
      .done ((x.onAgent (fromConsumer c later)).sending g
        (.msg Msg.memputStream params.bytes :: streamRecords g.lzo stp data)) () := by
  have hne := consumer_ne g.p c
  have hlocked := h.onAgent (f := lockedBy t provider.lock) (beside_put ..)
  have hforward : run g t (Agent.net (streamForward (.consumer c) (.provider g.p) g.fuel))
      ((x.onAgent (lockedBy t provider.lock)).sending g [.msg Msg.memputStream params.bytes]) =
      .done (((x.onAgent (fromConsumer c later)).sending g
        (.msg Msg.memputStream params.bytes :: streamRecords g.lzo stp data)).onAgent
          (lockedBy t provider.lock)) (dataBytes (streamRecords g.lzo stp data)) := by
    have hf : (x.agent.net.push (.provider g.p) [.msg Msg.memputStream params.bytes]
        (.provider g.p)).sendFails = [] := by rw [Net.push_sendFails, h.sendFails]
    have hinq : (x.agent.net.push (.provider g.p) [.msg Msg.memputStream params.bytes]
        (.consumer c)).inq = Net.incoming (streamRecords g.lzo stp data) ++ later := by
      rw [Net.push_of_ne _ _ hne.symm, h.conn hne.symm, hq]
    have hrun := run_streamForward_records hne.symm hfit hf hinq hfuel
    have hnet : ((x.agent.net.push (.provider g.p) [.msg Msg.memputStream params.bytes]).withInq
        (.consumer c) later).push (.provider g.p) (streamRecords g.lzo stp data) =
        (x.agent.net.withInq (.consumer c) later).push (.provider g.p)
          (.msg Msg.memputStream params.bytes :: streamRecords g.lzo stp data) := by
      rw [Net.withInq_push _ _ hne.symm, Net.push_push, List.singleton_append]
    rw [hnet] at hrun
    exact run_net_done hrun
  rw [Agent.agentForwardMemput, Agent.agentForwardMemputWith, run_bind,
    (ha.of_heap h.heap).run_lock, Outcome.bind_done, run_bind, hlocked.run_sendmsg,
    Outcome.bind_done]
  simp only
  rw [run_bind, ← streamForward, hforward, Outcome.bind_done]
  exact (ha.of_heap (x := (x.onAgent (fromConsumer c later)).sending g _) h.heap).run_unlock

theorem Settles.run_agentForwardFetch_zero (h : Settles g x y) (ha : Attached g provider y)
    (c : Addr) {params : FetchRequest} (hsize : ¬ 0 < params.size) :
    run g t (Agent.agentForwardFetch g.fuel c g.p params) x =
      .done (x.sending g [.msg Msg.fetchRequest params.bytes]) () := by
  have hlocked := h.onAgent (f := lockedBy t provider.lock) (beside_put ..)
  rw [Agent.agentForwardFetch, Agent.agentForwardFetchWith, run_bind,
    (ha.of_heap h.heap).run_lock, Outcome.bind_done, run_bind, hlocked.run_sendmsg,
    Outcome.bind_done, if_neg hsize]
  exact (ha.of_heap (x := x.sending g _) h.heap).run_unlock

theorem Settles.run_agentForwardFetch (h : Settles g x y) (ha : Attached g provider y) {c : Addr}
    {params : FetchRequest} {stp : StreamOptions} {b : Bytes} {n : UInt64}
    (hsize : 0 < params.size) (hfit : stp.Fits g.lzo b)
    (hfuel : (streamRecords g.lzo stp b).length + dataBytes (streamRecords g.lzo stp b) ≤ g.fuel)
    (hc : (y.agent.net (.consumer c)).sendFails = [])
    (hw : g.Works [.msg Msg.fetchRequest params.bytes]
      (.msg Msg.fetchResponse (Bytes.word n) :: streamRecords g.lzo stp b) y.provider q) :
    run g t (Agent.agentForwardFetch g.fuel c g.p params) x =
      .done ((y.served q [.msg Msg.fetchRequest params.bytes]
        (.msg Msg.fetchResponse (Bytes.word n) :: streamRecords g.lzo stp b)).onAgent
          (toConsumer c (.msg Msg.fetchResponse (Bytes.word n) :: streamRecords g.lzo stp b)))
        () := by
  have hne := consumer_ne g.p c
  obtain ⟨hsend, hrecv⟩ := h.run_exchange (t := t) hw 8 (by simp) provider.lock
  obtain ⟨z, hz⟩ : ∃ z, z = y.served q [.msg Msg.fetchRequest params.bytes]
    (.msg Msg.fetchResponse (Bytes.word n) :: streamRecords g.lzo stp b) := ⟨_, rfl⟩
  have hquiet : Quiet g z := hz ▸ h.quiet.served _ _ _
  have hnet : z.agent.net = y.agent.net := by rw [hz]; rfl
  have hattached : Attached g provider z := ha.of_heap (by rw [hz]; rfl)
  rw [← hz] at hrecv ⊢
  have hf : (z.agent.net.withInq (.provider g.p) (Net.incoming (streamRecords g.lzo stp b))
      (.consumer c)).sendFails = [] := by rw [Net.withInq_of_ne _ _ hne.symm, hnet, hc]
  have hresponse : run g t (Agent.net (claraSendmsg (.consumer c) Msg.fetchResponse (Bytes.word n)))
      ((z.waiting g (streamRecords g.lzo stp b)).onAgent (lockedBy t provider.lock)) =
      .done (((z.waiting g (streamRecords g.lzo stp b)).onAgent
        (toConsumer c [.msg Msg.fetchResponse (Bytes.word n)])).onAgent
          (lockedBy t provider.lock)) (some 8) := run_net_done (Net.run_claraSendmsg hf _ _)
  have hforward : run g t (Agent.net (streamForward (.provider g.p) (.consumer c) g.fuel))
      (((z.waiting g (streamRecords g.lzo stp b)).onAgent
        (toConsumer c [.msg Msg.fetchResponse (Bytes.word n)])).onAgent
          (lockedBy t provider.lock)) =
      .done ((z.onAgent (toConsumer c (.msg Msg.fetchResponse (Bytes.word n) ::
        streamRecords g.lzo stp b))).onAgent (lockedBy t provider.lock))
        (dataBytes (streamRecords g.lzo stp b)) := by
    have hinq : ((z.agent.net.withInq (.provider g.p)
        (Net.incoming (streamRecords g.lzo stp b))).push (.consumer c)
          [.msg Msg.fetchResponse (Bytes.word n)] (.provider g.p)).inq =
        Net.incoming (streamRecords g.lzo stp b) ++ [] := by
      rw [Net.push_of_ne _ _ hne, Net.withInq_inq, List.append_nil]
    have hrun := run_streamForward_records hne hfit (by rwa [Net.push_sendFails]) hinq hfuel
    have hempty : z.agent.net.withInq (.provider g.p) [] = z.agent.net :=
      Net.withInq_self (by rw [hquiet.agent]; rfl)
    rw [Net.withInq_push _ _ hne, Net.withInq_withInq, hempty, Net.push_push,
      List.singleton_append] at hrun
    exact run_net_done hrun
  rw [Agent.agentForwardFetch, Agent.agentForwardFetchWith, run_bind,
    (ha.of_heap h.heap).run_lock, Outcome.bind_done, run_bind, hsend, Outcome.bind_done,
    if_pos hsize, run_bind, hrecv, Outcome.bind_done]
  simp only [Agent.agentForwardFetch.wholeResponse, Bytes.whole, Bytes.length_word, if_true,
    Option.map_some]
  rw [run_bind, hresponse, Outcome.bind_done, run_bind, ← streamForward, hforward,
    Outcome.bind_done]
  exact (hattached.of_heap (x := z.onAgent (toConsumer c _)) rfl).run_unlock

/-- The id that the agent draws next is in none of the tables that an object of consumer `c` is
entered in. -/
structure Vacant (c : Addr) (s : Agent.State) : Prop where
  not_pooled : s.nextId ∉ s.sets .idPool
  not_object : s.nextId ∉ s.sets .objects
  not_owned : s.nextId ∉ s.sets (.objectsOf c)

/-- A new object can be created for consumer `c` when its id is vacant. -/
structure Creates (t : Agent.Tid) (c : Addr) (s : Agent.State) : Prop where
  fresh : s.Fresh
  pool : Agent.Usable t .idPool s
  objects : Agent.Usable t .objects s
  owned : Agent.Usable t (.objectsOf c) s

def withNew (p c : Addr) (real : Arg) (s : Agent.State) : Agent.State :=
  s.withId.withOwned p c real s.nextId

theorem Attached.created (h : Attached g provider x) (hf : x.agent.Fresh) (c : Addr) (real : Arg) :
    Attached g provider (x.onAgent (withNew g.p c real)) where
  record := Agent.State.withObject_read (s := x.agent.withId)
    (o := ⟨x.agent.nextId, real, 1, x.agent.next, g.p, some c⟩) hf h.record
  lock := Agent.State.withObject_read (s := x.agent.withId)
    (o := ⟨x.agent.nextId, real, 1, x.agent.next, g.p, some c⟩) hf h.lock

/-- The conditions of a new object once its id is drawn and the provider's lock is held. -/
private theorem Creates.locked {c : Addr} {s : Agent.State} (h : Creates t c s) {l : Addr}
    (hl : s.heap .lock l = some .free) :
    (lockedBy t l s.withId).Fresh ∧ Agent.Usable t .objects (lockedBy t l s.withId) ∧
      Agent.Usable t (.objectsOf c) (lockedBy t l s.withId) ∧
      (lockedBy t l s.withId).sets .objects = s.sets .objects ∧
      (lockedBy t l s.withId).sets (.objectsOf c) = s.sets (.objectsOf c) := by
  have hobjects : (lockedBy t l s.withId).sets .objects = s.sets .objects := by
    simp [lockedBy, Agent.State.withId, Agent.State.putSet_sets_of_ne]
  have howned : (lockedBy t l s.withId).sets (.objectsOf c) = s.sets (.objectsOf c) := by
    simp [lockedBy, Agent.State.withId, Agent.State.putSet_sets_of_ne]
  refine ⟨?_, ⟨?_, h.objects.admits⟩, ⟨?_, h.owned.admits⟩, hobjects, howned⟩
  · intro k a hle
    have hne : a ≠ l := fun heq => absurd (h.fresh.lt hl) (Nat.not_lt.mpr (heq ▸ hle))
    rcases eq_or_ne k .lock with rfl | hk
    · rw [lockedBy, Agent.State.put_heap_of_ne _ _ hne]
      exact h.fresh _ _ hle
    · rw [lockedBy, Agent.State.put_heap_kind _ _ _ hk]
      exact h.fresh _ _ hle
  · rw [hobjects, h.objects.sound]
  · rw [howned, h.owned.sound]

def mapEventAnswered (params : ExecuteRequest) (p c : Addr) (virt : GlobalId) :
    Option Arg → Agent.AProg ExecuteRequest
  | none => Agent.fail (.assertion .mapEventResponse)
  | some real => do
    let id ← Agent.clCreateObject (some p) c real virt
    Agent.assert (id == virt) .mapEventCreate
    Agent.providerUnlock p
    pure params

theorem Settles.run_mapEventRequest (h : Settles g x y) (ha : Attached g provider y) (c : Addr)
    (hpool : Agent.Usable t .idPool y.agent) (hid : y.agent.nextId ∉ y.agent.sets .idPool) {n : ℕ}
    {params : ExecuteRequest} (hn : params.argv n ≠ invalidId) :
    run g t (Agent.agentGenericMapEvent n params (some g.p) c) x =
      (run g t (Agent.net (claraRecvMapatptrResponse (.provider g.p)))
        (((x.onAgent Agent.State.withId).onAgent (lockedBy t provider.lock)).sending g
          [.msg Msg.mapatptrRequest (Bytes.words [y.agent.nextId, params.argv n])])).bind
            fun z r => run g t (mapEventAnswered params g.p c y.agent.nextId r) z := by
  obtain ⟨rs, hx⟩ := h.agent
  have hread : run g t (Agent.read .provider g.p) x = .done x provider :=
    run_done (Agent.run_read (ha.of_heap h.heap).record)
  have hcreate : run g t Agent.idCreate x =
      .done (x.onAgent Agent.State.withId) y.agent.nextId := by
    have hrun : Agent.run t Agent.idCreate x.agent =
        .done x.agent.withId x.agent.nextId := by
      apply Agent.run_idCreate
      · rw [hx]
        exact ⟨hpool.sound, hpool.admits⟩
      · rw [hx]
        exact hid
    have hnext : x.agent.nextId = y.agent.nextId := by rw [hx]; rfl
    rw [run_done hrun, hnext]
    rfl
  have hset := h.onAgent (f := Agent.State.withId) ⟨fun _ => rfl, fun _ _ => rfl⟩
  have hattached : Attached g provider (y.onAgent Agent.State.withId) := ha.of_heap rfl
  have hlocked := hset.onAgent (f := lockedBy t provider.lock) (beside_put ..)
  have hsend := hlocked.run_sendRequest (t := t) Msg.mapatptrRequest
    (Bytes.words [y.agent.nextId, params.argv n])
  rw [Agent.agentGenericMapEvent]
  simp only [hn, if_false]
  rw [run_bind, run_deref_some, Outcome.bind_done, run_bind, hread, Outcome.bind_done, run_bind,
    hcreate, Outcome.bind_done, run_bind, (hattached.of_heap hset.heap).run_lock,
    Outcome.bind_done, run_bind, claraSendMapatptrRequest, hsend, Outcome.bind_done, run_bind,
    run_assert_true, Outcome.bind_done, run_bind]
  congr 1

theorem Settles.run_mapEventResponse (h : Settles g x y) {msg : Bytes} {real : Arg}
    (hw : g.Works [.msg Msg.mapatptrRequest msg] [.msg Msg.mapatptrResponse (Bytes.word real)]
      y.provider q) (l : Addr) :
    run g t (Agent.net (claraRecvMapatptrResponse (.provider g.p)))
      (((x.onAgent Agent.State.withId).onAgent (lockedBy t l)).sending g
        [.msg Msg.mapatptrRequest msg]) =
      .done (((y.onAgent Agent.State.withId).served q [.msg Msg.mapatptrRequest msg]
        [.msg Msg.mapatptrResponse (Bytes.word real)]).onAgent (lockedBy t l)) (some real) := by
  have hset := h.onAgent (f := Agent.State.withId) ⟨fun _ => rfl, fun _ _ => rfl⟩
  obtain ⟨-, hrecv⟩ := hset.run_exchange (t := t) hw 8 (by simp) l
  have hquiet := hset.quiet.served q [.msg Msg.mapatptrRequest msg]
    [.msg Msg.mapatptrResponse (Bytes.word real)]
  rw [hquiet.waiting_nil] at hrecv
  rw [claraRecvMapatptrResponse, claraRecvMapatptrResponseWith, Agent.net_bind, run_bind, hrecv,
    Outcome.bind_done]
  simp only [Received.stored, Bytes.whole, Bytes.length_word, if_true, Bytes.wordAt_word,
    Agent.net_pure, run_pure]

theorem Settles.run_agentGenericMapEvent (h : Settles g x y) (ha : Attached g provider y)
    {c : Addr} (hc : Creates t c y.agent) (hv : Vacant c y.agent) {n : ℕ} {params : ExecuteRequest}
    {real : Arg} (hn : params.argv n ≠ invalidId) (hreal : real ≠ 0)
    (hw : g.Works [.msg Msg.mapatptrRequest (Bytes.words [y.agent.nextId, params.argv n])]
      [.msg Msg.mapatptrResponse (Bytes.word real)] y.provider q) :
    run g t (Agent.agentGenericMapEvent n params (some g.p) c) x =
      .done ((y.served q [.msg Msg.mapatptrRequest (Bytes.words [y.agent.nextId, params.argv n])]
        [.msg Msg.mapatptrResponse (Bytes.word real)]).onAgent (withNew g.p c real)) params := by
  obtain ⟨msg, hmsg⟩ : ∃ msg, msg = Bytes.words [y.agent.nextId, params.argv n] := ⟨_, rfl⟩
  rw [← hmsg] at hw ⊢
  have hlock : provider.lock ≠ y.agent.withId.next := (hc.fresh.lt ha.lock).ne
  have hcreate : run g t (Agent.clCreateObject (some g.p) c real y.agent.nextId)
      (((y.onAgent Agent.State.withId).served q [.msg Msg.mapatptrRequest msg]
        [.msg Msg.mapatptrResponse (Bytes.word real)]).onAgent (lockedBy t provider.lock)) =
      .done (((y.served q [.msg Msg.mapatptrRequest msg]
        [.msg Msg.mapatptrResponse (Bytes.word real)]).onAgent (withNew g.p c real)).onAgent
          (lockedBy t provider.lock)) y.agent.nextId := by
    have hrecord : (lockedBy t provider.lock y.agent.withId).heap .provider g.p =
        some provider := by
      rw [lockedBy, Agent.State.put_lock_heap_provider]
      exact ha.record
    obtain ⟨hf, hu, huc, hobjects, howned⟩ := hc.locked ha.lock
    have hrun := Agent.run_clCreateObject_wish real hf hrecord hreal
      (y.agent.candidates y.agent.draws).property hu (by rw [hobjects]; exact hv.not_object) huc
      (by rw [howned]; exact hv.not_owned)
    rw [lockedBy, Agent.State.withOwned_put_lock hlock] at hrun
    exact run_done hrun
  rw [h.run_mapEventRequest ha c hc.pool hv.not_pooled hn, ← hmsg, h.run_mapEventResponse hw,
    Outcome.bind_done, mapEventAnswered, run_bind, hcreate, Outcome.bind_done, run_bind,
    beq_self_eq_true, run_assert_true, Outcome.bind_done, run_bind,
    ((ha.created hc.fresh c real).of_heap (x := (y.served q _ _).onAgent _) rfl).run_unlock,
    Outcome.bind_done]
  rfl

theorem Settles.run_mapEvent_collision (h : Settles g x y) (ha : Attached g provider y) (c : Addr)
    (hpool : Agent.Usable t .idPool y.agent) (hid : y.agent.nextId ∈ y.agent.sets .idPool) {n : ℕ}
    {params : ExecuteRequest} (hn : params.argv n ≠ invalidId) :
    run g t (Agent.agentGenericMapEvent n params (some g.p) c) x =
      .fault (.agent .freedMemory) := by
  obtain ⟨rs, hx⟩ := h.agent
  have hread : run g t (Agent.read .provider g.p) x = .done x provider :=
    run_done (Agent.run_read (ha.of_heap h.heap).record)
  have hcreate : Agent.run t Agent.idCreate x.agent = .fault .freedMemory := by
    rw [hx]
    exact Agent.run_idCreate_collision ⟨hpool.sound, hpool.admits⟩ hid
  have hrun : run g t Agent.idCreate x = .fault (.agent .freedMemory) := by
    rw [run_alone (by rw [hcreate]; nofun), hcreate]
    rfl
  rw [Agent.agentGenericMapEvent]
  simp only [hn, if_false]
  rw [run_bind, run_deref_some, Outcome.bind_done, run_bind, hread, Outcome.bind_done, run_bind,
    hrun]
  rfl

theorem Settles.run_mapEvent_breaks (h : Settles g x y) (ha : Attached g provider y) (c : Addr)
    (hpool : Agent.Usable t .idPool y.agent) (hid : y.agent.nextId ∉ y.agent.sets .idPool) {n : ℕ}
    {params : ExecuteRequest} (hn : params.argv n ≠ invalidId) {f : Provider.Fault}
    (hb : g.Breaks [.msg Msg.mapatptrRequest (Bytes.words [y.agent.nextId, params.argv n])] f
      y.provider) :
    run g t (Agent.agentGenericMapEvent n params (some g.p) c) x = .fault (.provider f) := by
  have hset := h.onAgent (f := Agent.State.withId) ⟨fun _ => rfl, fun _ _ => rfl⟩
  have hlocked := hset.onAgent (f := lockedBy t provider.lock) (beside_put ..)
  have hrecv : run g t (Agent.net (claraRecvMapatptrResponse (.provider g.p)))
      (((x.onAgent Agent.State.withId).onAgent (lockedBy t provider.lock)).sending g
        [.msg Msg.mapatptrRequest (Bytes.words [y.agent.nextId, params.argv n])]) =
      .fault (.provider f) := by
    rw [claraRecvMapatptrResponse, claraRecvMapatptrResponseWith, Agent.net_bind, run_bind,
      hlocked.run_recvmsg_breaks hb]
    rfl
  rw [h.run_mapEventRequest ha c hpool hid hn, hrecv]
  rfl

theorem Settles.run_mapEvent_null (h : Settles g x y) (ha : Attached g provider y) (c : Addr)
    (hpool : Agent.Usable t .idPool y.agent) (hid : y.agent.nextId ∉ y.agent.sets .idPool) {n : ℕ}
    {params : ExecuteRequest} (hn : params.argv n ≠ invalidId)
    (hw : g.Works [.msg Msg.mapatptrRequest (Bytes.words [y.agent.nextId, params.argv n])]
      [.msg Msg.mapatptrResponse (Bytes.word 0)] y.provider q) :
    run g t (Agent.agentGenericMapEvent n params (some g.p) c) x =
      .fault (.agent (.assertion .mapEventCreate)) := by
  obtain ⟨z, hz⟩ : ∃ z, z = ((y.onAgent Agent.State.withId).served q
    [.msg Msg.mapatptrRequest (Bytes.words [y.agent.nextId, params.argv n])]
    [.msg Msg.mapatptrResponse (Bytes.word 0)]).onAgent (lockedBy t provider.lock) := ⟨_, rfl⟩
  have hrecord : z.agent.heap .provider g.p = some provider := by
    rw [hz]
    show (lockedBy t provider.lock y.agent.withId).heap .provider g.p = _
    rw [lockedBy, Agent.State.put_lock_heap_provider]
    exact ha.record
  have hcreate : run g t (Agent.clCreateObject (some g.p) c 0 y.agent.nextId) z =
      .done z invalidId := by
    have hread : run g t (Agent.read .provider g.p) z = .done z provider :=
      run_done (Agent.run_read hrecord)
    rw [Agent.clCreateObject, run_bind, run_deref_some, Outcome.bind_done, run_bind, hread]
    rfl
  have hne : (invalidId == y.agent.nextId) = false :=
    beq_false_of_ne (y.agent.candidates y.agent.draws).property.symm
  rw [h.run_mapEventRequest ha c hpool hid hn, h.run_mapEventResponse hw, ← hz,
    Outcome.bind_done, mapEventAnswered, run_bind, hcreate, Outcome.bind_done, hne]
  rfl

/-- A draw that is left over in one of the tables of objects. -/
theorem Settles.run_mapEvent_taken (h : Settles g x y) (ha : Attached g provider y) {c : Addr}
    (hc : Creates t c y.agent) (hid : y.agent.nextId ∉ y.agent.sets .idPool)
    (hv : ¬ Vacant c y.agent) {n : ℕ} {params : ExecuteRequest} {real : Arg}
    (hn : params.argv n ≠ invalidId) (hreal : real ≠ 0)
    (hw : g.Works [.msg Msg.mapatptrRequest (Bytes.words [y.agent.nextId, params.argv n])]
      [.msg Msg.mapatptrResponse (Bytes.word real)] y.provider q) :
    ∃ f, run g t (Agent.agentGenericMapEvent n params (some g.p) c) x = .fault (.agent f) := by
  obtain ⟨z, hz⟩ : ∃ z, z = ((y.onAgent Agent.State.withId).served q
    [.msg Msg.mapatptrRequest (Bytes.words [y.agent.nextId, params.argv n])]
    [.msg Msg.mapatptrResponse (Bytes.word real)]).onAgent (lockedBy t provider.lock) := ⟨_, rfl⟩
  have hrecord : (lockedBy t provider.lock y.agent.withId).heap .provider g.p = some provider := by
    rw [lockedBy, Agent.State.put_lock_heap_provider]
    exact ha.record
  obtain ⟨hf, hu, huc, hobjects, howned⟩ := hc.locked ha.lock
  have htaken : y.agent.nextId ∈ (lockedBy t provider.lock y.agent.withId).sets .objects ∨
      y.agent.nextId ∈ (lockedBy t provider.lock y.agent.withId).sets (.objectsOf c) := by
    rw [hobjects, howned]
    by_contra hnone
    rw [not_or] at hnone
    exact hv ⟨hid, hnone.1, hnone.2⟩
  have hne : y.agent.nextId ≠ invalidId := (y.agent.candidates y.agent.draws).property
  obtain ⟨f, hfault⟩ := Agent.run_clCreateObject_taken (t := t) real hf hrecord hreal hne hu huc
    htaken
  have hcreate : run g t (Agent.clCreateObject (some g.p) c real y.agent.nextId) z =
      .fault (.agent f) := by
    have hagent : z.agent = lockedBy t provider.lock y.agent.withId := by
      rw [hz]
      rfl
    have hblocked : Agent.run t (Agent.clCreateObject (some g.p) c real y.agent.nextId) z.agent ≠
        .blocked := by
      rw [hagent, hfault]
      nofun
    rw [run_alone hblocked, hagent, hfault]
    rfl
  refine ⟨f, ?_⟩
  rw [h.run_mapEventRequest ha c hc.pool hid hn, h.run_mapEventResponse hw, ← hz,
    Outcome.bind_done, mapEventAnswered, run_bind, hcreate]
  rfl

/-- The small agent and a provider that has nothing yet. -/
def Pair.small : Pair Unit where
  agent := .small Agent.someIds
  provider := .initial Provider.silentCl [] fun n => UInt64.ofNat (n + 1)
  log := []

def Setting.small : Setting Unit := ⟨literalLzo, 1000, Provider.silentCl, 1⟩

theorem quiet_small : Quiet Setting.small Pair.small := ⟨rfl, rfl⟩

theorem attached_small : Attached Setting.small ⟨0, 2, true⟩ Pair.small := ⟨rfl, rfl⟩

theorem sound_small : Pair.small.provider.Sound :=
  ⟨rfl, rfl, fun _ _ h => absurd h (by rw [Pair.small, Provider.State.initial]; simp)⟩

end Clara.Joint
