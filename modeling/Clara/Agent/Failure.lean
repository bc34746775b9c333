import Clara.Agent.Area
import Clara.Agent.Handlers
import Clara.Agent.ObjectSpec

/-! What a consumer's request comes to when the connection to the provider fails it. -/
namespace Clara.Agent

open Conc

/-- The ways in which it can fail. The shortest notifications of SCTP have twelve bytes: type,
flags, length and association. -/
inductive ProviderFailure
  | send
  | recv
  | notification (b : Bytes) (h : 12 ≤ b.length)
  | empty

def ProviderFailure.arriving : ProviderFailure → List Incoming
  | .send => []
  | .recv => [.failure]
  | .notification b _ => [.notification b]
  | .empty => [.record (Sent.msg Msg.executeResponse []).record]

/-- The next request on the connection fails in this way; `later` is for those after it. -/
structure ProviderFailure.Strikes (f : ProviderFailure) (later : List Incoming) (conn : Conn) :
    Prop where
  sends : conn.sendFails.head? = some true ↔ f = .send
  arrives : conn.inq = f.arriving ++ later

def ConsumerRequest.refusal : ConsumerRequest → Sent
  | .allocate _ _ => .msg Msg.allocateResponse (Bytes.word invalidHandle)
  | _ => .msg Msg.executeResponse []

/-- The request has been refused and left no other trace: nobody has the lock, and nothing of
the failure is left for the requests that follow. -/
structure Refused (q : ConsumerRequest) (c p lock : Addr) (later : List Incoming)
    (s s' : State) : Prop where
  answer : (s'.net (.consumer c)).sent = (s.net (.consumer c)).sent ++ [q.refusal]
  lock : s'.heap .lock lock = some .free
  rest : (s'.net (.provider p)).inq = later
  others : ∀ sd, sd ≠ .consumer c → sd ≠ .provider p → s'.net sd = s.net sd
  visits : s'.setLock = s.setLock
  phase : s'.phase = s.phase
  sound : ∀ r, (s.sets r).damaged = false → (s'.sets r).damaged = false

/-- The connection to provider `p` fails the request. An EXECUTE request can turn to the provider
several times, so nothing is assumed about when. -/
inductive Hits (s : State) (p : Addr) (f : ProviderFailure) (later : List Incoming) :
    ConsumerRequest → Prop
  | execute (params : ExecuteRequest) : Hits s p f later (.execute params)
  | allocate {params : AllocateRequest} (extra : Bytes) {a : Addr} {o : Object}
    (handle : params.handle = invalidHandle) (hint : params.hint ≠ invalidHandle)
    (object : (s.sets .objects).lookup params.hint = some a)
    (record : s.heap .object a = some o) (owner : o.provider = p)
    (strikes : f.Strikes later (s.net (.provider p))) :
    Hits s p f later (.allocate params extra)

/-- Consumer `c` is there and can be answered, the provider is there and nobody has its lock, and
no thread is in the middle of the agent's sets. -/
structure Faces (s : State) (c p : Addr) (provider : Provider) : Prop where
  consumer : ∃ v, s.heap .consumer c = some v
  answers : (s.net (.consumer c)).sendFails = []
  record : s.heap .provider p = some provider
  lock : s.heap .lock provider.lock = some .free
  pool : Usable (.consumer c) .idPool s
  objects : Usable (.consumer c) .objects s

section
variable {t : Tid} {s s' : State} {sd : Sd} {α : Type}

theorem exec_sendFails {o : Op} {x : o.Res} (h : exec t o s = .done s' x)
    (hf : (s.net sd).sendFails = []) : (s'.net sd).sendFails = [] := by
  obtain hn | ⟨n, r, rfl, hn⟩ | ⟨sd', i, rfl, hn⟩ := exec_net h
  · rw [hn, hf]
  · exact Net.exec_sendFails hn hf
  · rw [hn]
    rcases eq_or_ne sd sd' with rfl | hne
    · simpa [Net.withInq] using hf
    · rw [Net.withInq_of_ne _ _ hne, hf]

theorem run_sendFails {p : AProg α} {a : α} (h : run t p s = .done s' a)
    (hf : (s.net sd).sendFails = []) : (s'.net sd).sendFails = [] :=
  Prog.All.run_keeps (P := fun _ => True) (I := fun s => (s.net sd).sendFails = [])
    (fun _ _ _ _ _ he hs => exec_sendFails he hs) (Prog.all_of_forall (fun _ => trivial) p) h hf

/-- The response to an EXECUTE request carries a value, whatever has happened before. -/
theorem sent_of_handleExecute {lzo : Lzo} {fuel : ℕ} {c : Addr} {params : ExecuteRequest}
    (hf : (s.net (.consumer c)).sendFails = [])
    (h : run t (handleExecute lzo fuel c params) s = .done s' ()) :
    ∃ sent retval, (s'.net (.consumer c)).sent =
      sent ++ [.msg Msg.executeResponse (Bytes.word retval)] := by
  obtain ⟨s₁, retval, hexec, h⟩ := run_bind_done h
  have hf₁ := run_sendFails hexec hf
  refine ⟨(s₁.net (.consumer c)).sent, retval, ?_⟩
  rw [claraSendExecuteResponse, if_pos rfl, run_bind, run_net, Net.run_sendRequest hf₁] at h
  obtain ⟨rfl, -⟩ := Outcome.done.inj h
  simp

end

section
variable {t : Tid} {s : State} {p : Addr} {provider : Provider} {params : AllocateRequest}
  {extra : Bytes} {later : List Incoming}

theorem run_agentRemoteAllocate_unsent (hp : s.heap .provider p = some provider)
    (hl : s.heap .lock provider.lock = some .free) {n : Net Sd}
    (hsend : Net.run (claraSendmsg (.provider p) Msg.allocateRequest (params.bytes ++ extra)) s.net =
      .done n none) :
    run t (agentRemoteAllocate p params extra) s =
      .done ((s.put .lock provider.lock (some ⟨some t, 1⟩)).withNet n) none := by
  rw [agentRemoteAllocate, run_bind, run_providerLock hp hl, Outcome.bind_done, run_bind, run_net,
    State.put_net, hsend]
  rfl

/-- What is received decides the rest; the lock is given back before it is looked at. -/
theorem run_agentRemoteAllocate_received (hp : s.heap .provider p = some provider)
    (hl : s.heap .lock provider.lock = some .free) {n n' : Net Sd} {ssz : ℕ} {r : Received}
    (hsend : Net.run (claraSendmsg (.provider p) Msg.allocateRequest (params.bytes ++ extra)) s.net =
      .done n (some ssz))
    (hrecv : Net.run (claraRecvmsg (.provider p) 8) n = .done n' r) :
    (r.stored = none →
      run t (agentRemoteAllocate p params extra) s = .done (s.withNet n') none) ∧
    ∀ b, r.stored = some b → b.length ≠ 8 →
      run t (agentRemoteAllocate p params extra) s =
        .fault (.assertion .remoteAllocateSize) := by
  have hlocked : run t (net (claraRecvmsg (.provider p) 8))
      ((s.put .lock provider.lock (some ⟨some t, 1⟩)).withNet n) =
      .done ((s.withNet n').put .lock provider.lock (some ⟨some t, 1⟩)) r := by
    rw [run_net, State.withNet_net, hrecv]
    rfl
  have hunlock : run t (providerUnlock p)
      ((s.withNet n').put .lock provider.lock (some ⟨some t, 1⟩)) = .done (s.withNet n') () :=
    run_providerUnlock (s := s.withNet n') hp hl
  rw [agentRemoteAllocate, run_bind, run_providerLock hp hl, Outcome.bind_done, run_bind, run_net,
    State.put_net, hsend]
  simp only [Outcome.bind_done]
  rw [run_bind, hlocked, Outcome.bind_done, run_bind, hunlock, Outcome.bind_done]
  constructor
  · intro hr
    rw [hr]
    rfl
  · intro b hr hb
    rw [hr]
    simp [run_bind, hb]

/-- The handler up to the request to the provider, and what it makes of the outcome. -/
theorem run_handleAllocate_remote {c a : Addr} {v : Consumer} {o : Object}
    (hc : s.heap .consumer c = some v) (hhandle : params.handle = invalidHandle)
    (hhint : params.hint ≠ invalidHandle) (hu : Usable t .objects s)
    (ha : (s.sets .objects).lookup params.hint = some a) (ho : s.heap .object a = some o)
    (hpool : Usable t .idPool s) (hid : (s.candidates s.draws).val ∉ s.sets .idPool) :
    run t (handleAllocate c params extra) s =
      (run t (agentRemoteAllocate o.provider { params with handle := (s.candidates s.draws).val }
        extra) s.withId).bind fun s handle =>
          run t (do
            if ← net (claraSendAllocateResponse (.consumer c) (handle.getD invalidHandle)) then pure ()
            else allocateUndo c none) s := by
  have ho' : s.withId.heap .object a = some o := ho
  rw [handleAllocate, run_bind, run_read hc, Outcome.bind_done, if_neg (not_not_intro hhandle),
    if_neg hhint, run_bind, allocateRemote, run_bind, findHint, run_bind, run_setFind hu, ha]
  simp only [Prog.run_pure, Outcome.bind_done]
  rw [run_bind, run_idCreate hpool hid, Outcome.bind_done, run_bind, run_read ho',
    Outcome.bind_done, run_bind]
  cases run t (agentRemoteAllocate o.provider _ extra) s.withId <;> rfl

theorem run_handleAllocate_collision {c a : Addr} {v : Consumer}
    (hc : s.heap .consumer c = some v) (hhandle : params.handle = invalidHandle)
    (hhint : params.hint ≠ invalidHandle) (hu : Usable t .objects s)
    (ha : (s.sets .objects).lookup params.hint = some a)
    (hpool : Usable t .idPool s) (hid : (s.candidates s.draws).val ∈ s.sets .idPool) :
    run t (handleAllocate c params extra) s = .fault .freedMemory := by
  rw [handleAllocate, run_bind, run_read hc, Outcome.bind_done, if_neg (not_not_intro hhandle),
    if_neg hhint, run_bind, allocateRemote, run_bind, findHint, run_bind, run_setFind hu, ha]
  simp only [Prog.run_pure, Outcome.bind_done]
  rw [run_bind, run_idCreate_collision hpool hid]
  rfl

theorem run_refuseAllocate {c : Addr} (hf : (s.net (.consumer c)).sendFails = []) :
    run t (do
      if ← net (claraSendAllocateResponse (.consumer c) invalidHandle) then pure ()
      else allocateUndo c none) s =
      .done (s.withNet (s.net.push (.consumer c)
        [.msg Msg.allocateResponse (Bytes.word invalidHandle)])) () := by
  rw [run_bind, run_net, Net.run_claraSendAllocateResponse hf]
  rfl

end

/-- A failed ALLOCATE is answered with the invalid handle; what distinguishes the failures is
whether the lock is given back and what is left on the connection. -/
private theorem copes_allocate {s : State} {c p a : Addr} {provider : Provider} {o : Object}
    {params : AllocateRequest} {extra : Bytes} {f : ProviderFailure} {later : List Incoming}
    (h : Faces s c p provider) (hf : f.Strikes later (s.net (.provider p)))
    (hhandle : params.handle = invalidHandle) (hhint : params.hint ≠ invalidHandle)
    (ha : (s.sets .objects).lookup params.hint = some a) (ho : s.heap .object a = some o)
    (hop : o.provider = p) (hid : (s.candidates s.draws).val ∉ s.sets .idPool) :
    (∃ s', run (.consumer c) (handleAllocate c params extra) s = .done s' () ∧
      Refused (.allocate params extra) c p provider.lock later s s') ↔ f = .recv := by
  subst hop
  obtain ⟨v, hc⟩ := h.consumer
  have hne : Sd.consumer c ≠ .provider o.provider := nofun
  have hp : s.withId.heap .provider o.provider = some provider := h.record
  have hl : s.withId.heap .lock provider.lock = some .free := h.lock
  rw [run_handleAllocate_remote hc hhandle hhint h.objects ha ho h.pool hid]
  by_cases hsend : (s.net (.provider o.provider)).sendFails.head? = some true
  · -- The lock stays with the consumer's thread.
    have hfail : f = .send := hf.sends.mp hsend
    rw [run_agentRemoteAllocate_unsent hp hl (Net.run_claraSendmsg_failed hsend _ _),
      Outcome.bind_done]
    simp only [Option.getD_none]
    rw [run_refuseAllocate (by rw [State.withNet_net, Function.update_of_ne hne]; exact h.answers)]
    constructor
    · rintro ⟨s', hs', href⟩
      obtain ⟨rfl, -⟩ := Outcome.done.inj hs'
      have hlock := href.lock
      rw [State.withNet_heap, State.withNet_heap, State.put_heap_self] at hlock
      cases hlock
    · rintro rfl
      cases hfail
  · have hnot : f ≠ .send := fun he => hsend (hf.sends.mpr he)
    obtain ⟨n, hn, hinq, hothers⟩ : ∃ n, Net.run (claraSendmsg (.provider o.provider)
        Msg.allocateRequest (AllocateRequest.bytes
          { params with handle := (s.candidates s.draws).val } ++ extra)) s.net = .done n (some _) ∧
        (n (.provider o.provider)).inq = f.arriving ++ later ∧
        ∀ sd, sd ≠ .provider o.provider → n sd = s.net sd :=
      ⟨_, Net.run_claraSendmsg_sent hsend _ _, by rw [Function.update_self, hf.arrives],
        fun sd hsd => Function.update_of_ne hsd ..⟩
    have hanswers : ∀ q, ((s.withId.withNet (n.withInq (.provider o.provider) q)).net
        (.consumer c)).sendFails = [] := by
      intro q
      rw [State.withNet_net, Net.withInq_of_ne _ _ hne, hothers _ hne]
      exact h.answers
    cases f with
    | send => exact absurd rfl hnot
    | recv =>
      have hrecv := Net.run_claraRecvmsg_failure hinq 8
      rw [(run_agentRemoteAllocate_received hp hl hn hrecv).1 rfl, Outcome.bind_done]
      simp only [Option.getD_none]
      rw [run_refuseAllocate (hanswers _)]
      refine iff_of_true ⟨_, rfl, ?_⟩ trivial
      exact {
        answer := by
          rw [State.withNet_net, Net.push_sent, State.withNet_net, Net.withInq_of_ne _ _ hne,
            hothers _ hne]
          rfl
        lock := h.lock
        rest := by
          rw [State.withNet_net, State.withNet_net, Net.push_of_ne _ _ hne.symm, Net.withInq_inq]
          rfl
        others := fun sd hc hp => by
          rw [State.withNet_net, State.withNet_net, Net.push_of_ne _ _ hc,
            Net.withInq_of_ne _ _ hp, hothers _ hp]
        visits := rfl
        phase := rfl
        sound := fun r hr => by
          rcases eq_or_ne r .idPool with rfl | hr'
          · simp [State.withId, hr, hid]
          · simpa [State.withId, State.putSet_sets_of_ne _ _ hr'] using hr }
    | notification b hb =>
      -- The rest of the notification will be taken for the response to the next request.
      have hrecv : Net.run (claraRecvmsg (.provider o.provider) 8) n = _ :=
        Net.run_claraRecvmsg_truncated hinq (by omega)
      rw [(run_agentRemoteAllocate_received hp hl hn hrecv).1 rfl, Outcome.bind_done]
      simp only [Option.getD_none]
      rw [run_refuseAllocate (hanswers _)]
      constructor
      · rintro ⟨s', hs', href⟩
        obtain ⟨rfl, -⟩ := Outcome.done.inj hs'
        have hrest := href.rest
        rw [State.withNet_net, State.withNet_net, Net.push_of_ne _ _ hne.symm,
          Net.withInq_inq] at hrest
        exact absurd hrest (List.cons_ne_self _ _)
      · rintro ⟨⟩
    | empty =>
      have hrecv : Net.run (claraRecvmsg (.provider o.provider) 8) n = _ :=
        Net.run_claraRecvmsg hinq (by simp)
      rw [(run_agentRemoteAllocate_received hp hl hn hrecv).2 [] rfl (by simp)]
      simp

/-- Only an ALLOCATE whose response cannot be received is refused as it should be, and only when
the id drawn for it is not in use. No EXECUTE request ever is. -/
theorem refused_iff {lzo : Lzo} {fuel : ℕ} {s : State} {c p : Addr} {provider : Provider}
    {q : ConsumerRequest} {f : ProviderFailure} {later : List Incoming}
    (h : Faces s c p provider) (hq : Hits s p f later q) :
    (∃ s', run (.consumer c) (agentConsumerHandler lzo fuel c q) s = .done s' () ∧
      Refused q c p provider.lock later s s') ↔
    (∃ params extra, q = .allocate params extra) ∧ f = .recv ∧
      (s.candidates s.draws).val ∉ s.sets .idPool := by
  obtain ⟨v, hc⟩ := h.consumer
  cases hq with
  | execute params =>
    constructor
    · rintro ⟨s', hrun, href⟩
      obtain ⟨sent, retval, hsent⟩ := sent_of_handleExecute h.answers hrun
      have hlast := List.append_inj_right' (hsent.symm.trans href.answer) rfl
      have hmsg := List.head_eq_of_cons_eq hlast
      simp only [ConsumerRequest.refusal, Sent.msg.injEq, true_and] at hmsg
      have hlen := congrArg List.length hmsg
      simp at hlen
    · rintro ⟨⟨params', extra, hq⟩, -⟩
      cases hq
  | @allocate params extra a o hhandle hhint ha ho hop hf =>
    by_cases hid : (s.candidates s.draws).val ∈ s.sets .idPool
    · constructor
      · rintro ⟨s', hs', -⟩
        rw [agentConsumerHandler,
          run_handleAllocate_collision hc hhandle hhint h.objects ha h.pool hid] at hs'
        cases hs'
      · rintro ⟨-, -, hnot⟩
        exact absurd hid hnot
    · rw [agentConsumerHandler, copes_allocate h hf hhandle hhint ha ho hop hid]
      exact ⟨fun hf => ⟨⟨params, extra, rfl⟩, hf, hid⟩, fun h => h.2.1⟩

/-- The small agent when the next request to its provider is sent, and fails. -/
def State.struck (f : ProviderFailure) : State :=
  (State.small someIds).withNet (Net.withInq (fun _ => .fresh) (.provider 1) f.arriving)

private theorem faces_struck (f : ProviderFailure) : Faces (.struck f) 3 1 ⟨0, 2, true⟩ where
  consumer := ⟨⟨true, none⟩, rfl⟩
  answers := rfl
  record := rfl
  lock := rfl
  pool := ⟨rfl, rfl⟩
  objects := ⟨rfl, rfl⟩

private theorem strikes_struck {f : ProviderFailure} (hf : f ≠ .send) :
    f.Strikes [] ((State.struck f).net (.provider 1)) where
  sends := by simp [State.struck, Net.withInq, Conn.fresh, hf]
  arrives := by simp [State.struck]

private theorem hits_struck {f : ProviderFailure} (hf : f ≠ .send) :
    Hits (.struck f) 1 f [] (.allocate ⟨invalidHandle, 4, 1, 9⟩ []) :=
  .allocate [] rfl (by decide) (a := 6) (o := ⟨9, 77, 0, 7, 1, none⟩) rfl rfl rfl
    (strikes_struck hf)

theorem refused_recv : ∃ s', run (.consumer 3) (agentConsumerHandler literalLzo 1000 3
      (.allocate ⟨invalidHandle, 4, 1, 9⟩ [])) (.struck .recv) = .done s' () ∧
    Refused (.allocate ⟨invalidHandle, 4, 1, 9⟩ []) 3 1 2 [] (.struck .recv) s' :=
  (refused_iff (faces_struck .recv) (hits_struck nofun)).mpr ⟨⟨_, _, rfl⟩, rfl, by decide⟩

/-- The provider reports that a `clGetContextInfo` was not successful, and the agent aborts. -/
theorem not_refused_empty :
    Faces (.struck .empty) 3 1 ⟨0, 2, true⟩ ∧
    Hits (.struck .empty) 1 .empty [] (.execute ⟨9, 8, fun _ => 0, 5⟩) ∧
    ProviderFailure.empty.Strikes [] ((State.struck .empty).net (.provider 1)) ∧
    (run (.consumer 3) (agentConsumerHandler literalLzo 1000 3 (.execute ⟨9, 8, fun _ => 0, 5⟩))
      (.struck .empty)).fault? = some (.assertion .remoteExecuteSize) :=
  ⟨faces_struck .empty, .execute _, strikes_struck nofun, by decide +kernel⟩

end Clara.Agent
