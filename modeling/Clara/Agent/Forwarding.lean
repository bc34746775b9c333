import Clara.Agent.Handlers
import Clara.Agent.RefCount

/-! Requests that the agent counts itself and also passes on. The ledger here records what the
provider answered, and the agent's counts are compared with it. -/
namespace Clara.Agent

open Conc

inductive Counting
  | create
  | retain (type : ObjectType)
  | release (type : ObjectType)
  deriving DecidableEq

end Clara.Agent

namespace Clara

def ClFunction.counting : ClFunction → Option Agent.Counting
  | .createContext | .createContextFromType | .createCommandQueue | .createBuffer
  | .createProgramWithSource | .createProgramWithBinary | .createKernel => some .create
  | .retainContext => some (.retain .context)
  | .retainCommandQueue => some (.retain .commandqueue)
  | .retainMemObject => some (.retain .memobject)
  | .retainProgram => some (.retain .program)
  | .retainKernel => some (.retain .kernel)
  | .retainEvent => some (.retain .event)
  | .releaseContext => some (.release .context)
  | .releaseCommandQueue => some (.release .commandqueue)
  | .releaseMemObject => some (.release .memobject)
  | .releaseProgram => some (.release .program)
  | .releaseKernel => some (.release .kernel)
  | .releaseEvent => some (.release .event)
  | _ => none

end Clara

namespace Clara.Agent

open Conc

/-- The entries of the two tables for such a function: an object is created after the call has
been passed on, and counted before. -/
def Counting.entries : Counting → Option (Handler × List ℕ) × Option (Handler × List ℕ)
  | .create => (none, some (agentGenericCreate, []))
  | .retain type => (some (agentGenericRetain type, []), none)
  | .release type => (some (agentGenericRelease type, []), none)

theorem entries_counting (lzo : Lzo) (fuel : ℕ) {d : ClFunction} {k : Counting}
    (h : d.counting = some k) :
    (preExecFunTable d, postExecFunTable lzo fuel d) = k.entries := by
  cases d <;> first | cases h; rfl | cases h

/-- An EXECUTE request of a consumer, with the answer of the provider it is passed on to. -/
structure Forwarded where
  consumer : Addr
  params : ExecuteRequest
  response : Arg

/-- The references of the object with this id, if there is one. -/
def State.refcnt (s : State) (id : GlobalId) : ℕ :=
  match (s.sets .objects).lookup id with
  | none => 0
  | some a => match s.heap .object a with
    | none => 0
    | some o => o.refcnt.toNat

namespace Forwarded

def counting (q : Forwarded) : Option Counting :=
  (ClFunction.ofArg q.params.func).bind fun x => x.1.counting

/-- The object that is retained or released. -/
def id (q : Forwarded) : GlobalId := q.params.argv 1

/-- The request reaches a provider, whose library reports success. -/
def Succeeds (q : Forwarded) : Prop :=
  q.params.hint ≠ invalidHandle ∧ q.response = clSuccess

instance (q : Forwarded) : Decidable q.Succeeds := inferInstanceAs (Decidable (_ ∧ _))

def responseRecord (q : Forwarded) : Incoming :=
  .record (Sent.msg Msg.executeResponse (Bytes.word q.response)).record

/-- The answer waits on the connection of the provider the hint leads to. -/
def answered (q : Forwarded) (s : State) : State :=
  match (s.sets .objects).lookup q.params.hint with
  | none => s
  | some a => match s.heap .object a with
    | none => s
    | some o => s.withNet (s.net.withInq (.provider o.provider) [q.responseRecord])

/-- The request is processed by its consumer's thread. -/
def run (lzo : Lzo) (fuel : ℕ) (q : Forwarded) (s : State) : Outcome State Fault Arg :=
  Agent.run (.consumer q.consumer) (agentExecute lzo fuel q.params q.consumer) (q.answered s)

/-- Requests of owners, each about an object with fewer than 2^32 references. -/
def Admissible (l : Ledger) (s : State) (q : Forwarded) : Prop :=
  (s.heap .consumer q.consumer).isSome ∧ match q.counting with
    | none => False
    | some .create => True
    | some (.retain _) => Agent.Admissible l s (.retain q.consumer q.id)
    | some (.release _) => Agent.Admissible l s (.release q.consumer q.id)

/-- The provider reports success exactly when the agent has the object. -/
def Agrees (s : State) (q : Forwarded) : Prop :=
  match q.counting with
  | some (.retain _) | some (.release _) => q.Succeeds ↔ q.id ∈ s.sets .objects
  | _ => True

end Forwarded

/-- What the provider's answer to a request adds to the ledger. `retval` is what the consumer is
told, for a new object its id. -/
def Ledger.count (l : Ledger) (q : Forwarded) (retval : Arg) : Ledger :=
  match q.counting with
  | none => l
  | some .create => if retval = invalidId then l
    else Function.update l retval (some ⟨q.consumer, 1⟩)
  | some (.retain _) => if q.Succeeds then l.add q.id 1 else l
  | some (.release _) => if q.Succeeds then l.add q.id (-1) else l

inductive ForwardReach (lzo : Lzo) (fuel : ℕ) (allow : State → Forwarded → Prop) (init : State) :
    State → Ledger → Prop
  | refl : ForwardReach lzo fuel allow init init fun _ => none
  | request {s s' : State} {l : Ledger} {retval : Arg} (q : Forwarded)
      (h : ForwardReach lzo fuel allow init s l) (ha : q.Admissible l s) (hd : allow s q)
      (hr : q.run lzo fuel s = .done s' retval) :
      ForwardReach lzo fuel allow init s' (l.count q retval)

/-- The agent's counts are the provider's after every sequence of requests. -/
def CountsAgree (lzo : Lzo) (fuel : ℕ) (allow : State → Forwarded → Prop) (init : State) : Prop :=
  ∀ s l, ForwardReach lzo fuel allow init s l →
    ∀ id acc, l id = some acc → (s.refcnt id : ℤ) = acc.refs

section
variable {t : Tid} {s s' : State}

theorem run_executeOwner_done {hint : GlobalId} {owner : Option Addr}
    (h : run t (executeOwner hint) s = .done s' owner) :
    s' = s ∧ (hint = invalidHandle ∧ owner = none ∨ hint ≠ invalidHandle ∧
      ∃ a o, (s.sets .objects).lookup hint = some a ∧ s.heap .object a = some o ∧
        owner = some o.provider) := by
  rw [executeOwner, run_ite] at h
  split_ifs at h with hh
  · obtain ⟨s₁, a, hf, h₁⟩ := run_bind_done h
    obtain ⟨s₂, d, hd, h₂⟩ := run_bind_done hf
    obtain ⟨rfl, rfl⟩ := run_setFind_done hd
    cases hl : (s₂.sets .objects).lookup hint with
    | none =>
      rw [hl] at h₂
      cases h₂
    | some b =>
      rw [hl] at h₂
      obtain ⟨rfl, rfl⟩ := Outcome.done.inj h₂
      obtain ⟨s₃, o, hr, h₃⟩ := run_bind_done h₁
      obtain ⟨rfl, ho⟩ := run_read_done hr
      obtain ⟨rfl, rfl⟩ := Outcome.done.inj h₃
      exact ⟨rfl, .inr ⟨hh, b, o, rfl, ho, rfl⟩⟩
  · obtain ⟨rfl, rfl⟩ := Outcome.done.inj h
    exact ⟨rfl, .inl ⟨not_not.mp hh, rfl⟩⟩

/-- Without pointer arguments nothing is translated. -/
theorem translateArgs_nil (idMap : GlobalId → AProg Arg) (i n : ℕ) (params : ExecuteRequest) :
    translateArgs idMap [] i n params = pure params := by
  induction n generalizing i with
  | zero => rfl
  | succ n ih => rw [translateArgs, if_neg (by simp), ih]

section
variable {fntbl : ClFunction → Option (Handler × List ℕ)} (idMap : GlobalId → AProg Arg)
  {params : ExecuteRequest} (retval : Arg) (target : Option Addr) (source : Addr)
  {d : ClFunction} {argc : ℕ} (hd : ClFunction.ofArg params.func = some (d, argc))

include hd

theorem claraExecute_none (h : fntbl d = none) :
    claraExecute fntbl idMap params retval target source = pure (params, retval) := by
  rw [claraExecute, hd]
  simp only [h]

theorem claraExecute_some {pfn : Handler} (h : fntbl d = some (pfn, [])) :
    claraExecute fntbl idMap params retval target source =
      pfn (params.setArg 0 retval) target source >>= fun params => pure (params, params.argv 0) := by
  rw [claraExecute, hd]
  simp only [h, translateArgs_nil]
  rfl

end

/-- A remote call that completes has returned the answer that was waiting, and touched nothing
but the network. -/
theorem run_agentRemoteExecute_done {p : Addr} {provider : Provider} {params : ExecuteRequest}
    {r retval : Arg} (hp : s.heap .provider p = some provider)
    (hl : s.heap .lock provider.lock = some .free)
    (hq : (s.net (.provider p)).inq =
      [.record (Sent.msg Msg.executeResponse (Bytes.word r)).record])
    (h : run t (agentRemoteExecute (some p) params) s = .done s' (some retval)) :
    retval = r ∧ ∃ n, s' = s.withNet n := by
  have hlock : run t (providerLock p) s =
      .done (s.put .lock provider.lock (some ⟨some t, 1⟩)) () := by
    rw [providerLock, run_bind, run_read hp, Outcome.bind_done, run_lockWait_free hl]
  rw [agentRemoteExecute, run_bind, hlock, Outcome.bind_done, run_bind, run_net,
    State.put_net] at h
  obtain ⟨n, hn | hn⟩ := Net.run_claraSendmsg_cases s.net (.provider p) Msg.executeRequest
    params.bytes
  · rw [hn] at h
    cases h
  · have hn' := Net.run_claraSendmsg_inq hn (.provider p)
    rw [hq] at hn'
    have hrecv := Net.run_claraRecvmsg hn' (by simp : (Bytes.word r).length ≤ 8)
    have hunlock : run t (providerUnlock p)
        ((s.put .lock provider.lock (some ⟨some t, 1⟩)).withNet (n.withInq (.provider p) [])) =
        .done (s.withNet (n.withInq (.provider p) [])) () := by
      rw [providerUnlock, run_bind, run_read (by simpa using hp), Outcome.bind_done,
        run_lockPost_last (by simp), State.withNet_put, State.put_put, State.put_self hl]
    rw [hn, Outcome.bind_done] at h
    simp only at h
    rw [run_bind, run_net, State.withNet_net, hrecv] at h
    simp only [State.withNet_withNet, Outcome.bind_done] at h
    rw [run_bind, hunlock, Outcome.bind_done] at h
    simp only [Received.stored] at h
    rw [run_bind, Bytes.length_word, beq_self_eq_true, run_assert, if_pos rfl,
      Outcome.bind_done] at h
    obtain ⟨rfl, hr⟩ := Outcome.done.inj h
    exact ⟨by simpa using (Option.some.inj hr).symm, _, rfl⟩

end

section
variable {l : Ledger} {s s' : State} {q : Forwarded} {lzo : Lzo} {fuel : ℕ}

/-- A completed `clCreateObject` has drawn a fresh id: a collision would have ended in a use of
freed memory. -/
theorem Books.create_done (hb : Books l s) {p c : Addr} {localId : Arg} {id : GlobalId}
    (hp : (s.heap .provider p).isSome) (hc : (s.heap .consumer c).isSome)
    (h : run (.consumer c) (clCreateObject (some p) c localId invalidId) s = .done s' id) :
    Books (l.record (.create p c localId invalidId) (.created id)) s' := by
  by_cases hd : DrawsFresh s (.create p c localId invalidId)
  · obtain ⟨s₁, id', hr, hb'⟩ := hb.create ⟨hp, hc, fun hw => absurd rfl hw⟩ hd
    obtain ⟨rfl, rfl⟩ := Outcome.done.inj (h.symm.trans hr)
    exact hb'
  · obtain ⟨provider, hp⟩ := Option.isSome_iff_exists.mp hp
    obtain ⟨hreal, -, hk⟩ : localId ≠ 0 ∧ invalidId = invalidId ∧
        (s.candidates s.draws).val ∈ s.sets .idPool := by
      simpa [DrawsFresh] using hd
    rw [clCreateObject, run_bind, run_deref_some, Outcome.bind_done, run_bind, run_read hp,
      Outcome.bind_done, if_neg hreal, run_bind, if_pos rfl,
      run_idCreate_collision hb.usable_pool hk] at h
    cases h

/-- The answer waits in the network, which is not part of the books. -/
theorem Forwarded.answered_eq (q : Forwarded) (s : State) :
    ∃ n, q.answered s = s.withNet n := by
  rw [answered]
  split
  · exact ⟨s.net, rfl⟩
  · split
    · exact ⟨s.net, rfl⟩
    · exact ⟨_, rfl⟩

theorem Forwarded.answered_inq {a : Addr} {o : Object}
    (hid : (s.sets .objects).lookup q.params.hint = some a) (ho : s.heap .object a = some o) :
    ((q.answered s).net (.provider o.provider)).inq = [q.responseRecord] := by
  simp [answered, hid, ho]

/-- What the look-up of the hint has found. -/
private def Owns (s : State) (hint : GlobalId) (owner : Option Addr) : Prop :=
  hint = invalidHandle ∧ owner = none ∨ hint ≠ invalidHandle ∧
    ∃ a o, (s.sets .objects).lookup hint = some a ∧ s.heap .object a = some o ∧
      owner = some o.provider

/-- Passing the request on, from a state `s₁` in which at most objects have changed. -/
private theorem run_executeRemote_done {s₁ : State} {t : Tid} {owner : Option Addr}
    {params : ExecuteRequest} {r₀ r : Arg} (hs : Settled s)
    (hs₁ : ∀ p provider, s₁.heap .provider p = some provider →
      s₁.heap .lock provider.lock = some .free)
    (hnet : s₁.net = (q.answered s).net) (hprov : s₁.heap .provider = s.heap .provider)
    (how : Owns s q.params.hint owner)
    (h : run t (executeRemote owner params r₀) s₁ = .done s' r) :
    (∃ n, s' = s₁.withNet n) ∧ (owner.isSome → r = q.response) := by
  rcases how with ⟨-, rfl⟩ | ⟨-, a, o, hid, ho, rfl⟩
  · obtain ⟨rfl, -⟩ := Outcome.done.inj h
    exact ⟨⟨s₁.net, rfl⟩, nofun⟩
  · obtain ⟨-, o', ho', -, -, hpr⟩ := hs.entry _ a hid
    obtain rfl := Option.some.inj (ho.symm.trans ho')
    obtain ⟨provider, hp⟩ := Option.isSome_iff_exists.mp hpr
    rw [← hprov] at hp
    obtain ⟨s₂, v, hr, h₂⟩ := run_bind_done h
    cases v with
    | none => cases h₂
    | some v =>
      obtain ⟨rfl, rfl⟩ := Outcome.done.inj h₂
      obtain ⟨rfl, n, rfl⟩ := run_agentRemoteExecute_done hp (hs₁ _ _ hp)
        (by rw [hnet, q.answered_inq hid ho]; rfl) hr
      exact ⟨⟨n, rfl⟩, fun _ => rfl⟩

private theorem run_parts {retval : Arg} (h : q.run lzo fuel s = .done s' retval) :
    ∃ owner s₂ params r₀ s₃ r params', Owns s q.params.hint owner ∧
      run (.consumer q.consumer) (claraExecute preExecFunTable (agentIdMap q.consumer) q.params 0
        owner q.consumer) (q.answered s) = .done s₂ (params, r₀) ∧
      run (.consumer q.consumer) (executeRemote owner params r₀) s₂ = .done s₃ r ∧
      run (.consumer q.consumer) (claraExecute (postExecFunTable lzo fuel)
        (agentIdMap q.consumer) params r owner q.consumer) s₃ = .done s' (params', retval) := by
  obtain ⟨n, hn⟩ := q.answered_eq s
  obtain ⟨s₁, owner, hrun, h₁⟩ := run_bind_done h
  obtain ⟨rfl, how⟩ := run_executeOwner_done hrun
  obtain ⟨s₂, ⟨params, r₀⟩, hpre, h₂⟩ := run_bind_done h₁
  obtain ⟨s₃, r, hrem, h₃⟩ := run_bind_done h₂
  obtain ⟨s₄, ⟨params', r'⟩, hpost, h₄⟩ := run_bind_done h₃
  obtain ⟨rfl, rfl⟩ := Outcome.done.inj h₄
  rw [hn] at how
  exact ⟨owner, s₂, params, r₀, s₃, r, params', how, hpre, hrem, hpost⟩

private theorem forward_create {retval : Arg} (hb : Books l s)
    (hc : (s.heap .consumer q.consumer).isSome) (hk : q.counting = some .create)
    (h : q.run lzo fuel s = .done s' retval) : Books (l.count q retval) s' := by
  obtain ⟨n, hn⟩ := q.answered_eq s
  obtain ⟨⟨d, argc⟩, hd, hdk⟩ := Option.bind_eq_some_iff.mp hk
  obtain ⟨htab, htab'⟩ := Prod.mk.inj (entries_counting lzo fuel hdk)
  obtain ⟨owner, s₂, params, r₀, s₃, r, params', how, hpre, hrem, hpost⟩ := run_parts h
  rw [claraExecute_none _ _ _ _ hd htab] at hpre
  obtain ⟨rfl, hpr⟩ := Outcome.done.inj hpre
  obtain ⟨rfl, rfl⟩ := Prod.mk.inj hpr
  rw [hn] at hrem
  obtain ⟨⟨m, rfl⟩, -⟩ := run_executeRemote_done hb.toSettled (hb.withNet n).providerLock
    (by rw [hn]) rfl how hrem
  rw [claraExecute_some _ _ _ _ hd htab'] at hpost
  obtain ⟨s₅, params'', hgen, h₅⟩ := run_bind_done hpost
  obtain ⟨rfl, hpr⟩ := Outcome.done.inj h₅
  obtain ⟨rfl, rfl⟩ := Prod.mk.inj hpr
  obtain ⟨s₆, id, hcre, h₆⟩ := run_bind_done hgen
  obtain ⟨rfl, rfl⟩ := Outcome.done.inj h₆
  rcases how with ⟨-, rfl⟩ | ⟨-, a, o, hid, ho, rfl⟩
  · cases hcre
  · obtain ⟨-, o', ho', -, -, hpr⟩ := hb.entry _ a hid
    obtain rfl := Option.some.inj (ho.symm.trans ho')
    have hb' := ((hb.withNet n).withNet m).create_done hpr hc hcre
    simpa [Ledger.record, Ledger.count, hk, ExecuteRequest.setArg] using hb'

/-- A handler that runs before the call is passed on has completed with it. -/
theorem Forwarded.run_before (f : Addr → GlobalId → AProg Bool) {type : ObjectType}
    {retval : Arg} {d : ClFunction} {argc : ℕ}
    (hd : ClFunction.ofArg q.params.func = some (d, argc))
    (htab : preExecFunTable d = some (fun params _ source => do
      let b ← f source (params.argv 1)
      pure (params.setArg 0 (if b then clSuccess else invalidObjectStatus type)), []))
    (h : q.run lzo fuel s = .done s' retval) :
    ∃ s₁ b, Agent.run (.consumer q.consumer) (f q.consumer q.id) (q.answered s) = .done s₁ b := by
  obtain ⟨owner, s₂, params, r₀, s₃, r, params', -, hpre, -⟩ := run_parts h
  rw [claraExecute_some _ _ _ _ hd htab] at hpre
  obtain ⟨s₅, params'', hgen, -⟩ := run_bind_done hpre
  obtain ⟨s₆, b, hf, -⟩ := run_bind_done hgen
  exact ⟨s₆, b, hf⟩

theorem Forwarded.run_counted (f : Addr → GlobalId → AProg Bool) {type : ObjectType}
    {retval : Arg} {d : ClFunction} {argc : ℕ} (hs : Settled s)
    (hd : ClFunction.ofArg q.params.func = some (d, argc))
    (htab : preExecFunTable d = some (fun params _ source => do
      let b ← f source (params.argv 1)
      pure (params.setArg 0 (if b then clSuccess else invalidObjectStatus type)), []))
    (htab' : postExecFunTable lzo fuel d = none) {s₁ : State} {b : Bool}
    (hf : Agent.run (.consumer q.consumer) (f q.consumer q.id) (q.answered s) = .done s₁ b)
    (hnet : s₁.net = (q.answered s).net) (hprov : s₁.heap .provider = s.heap .provider)
    (hlock : ∀ p provider, s₁.heap .provider p = some provider →
      s₁.heap .lock provider.lock = some .free)
    (h : q.run lzo fuel s = .done s' retval) : ∃ n, s' = s₁.withNet n := by
  obtain ⟨owner, s₂, params, r₀, s₃, r, params', how, hpre, hrem, hpost⟩ := run_parts h
  rw [claraExecute_some _ _ _ _ hd htab] at hpre
  obtain ⟨s₅, params'', hgen, h₅⟩ := run_bind_done hpre
  obtain ⟨rfl, hpr⟩ := Outcome.done.inj h₅
  obtain ⟨rfl, rfl⟩ := Prod.mk.inj hpr
  obtain ⟨s₆, b', hrun', h₆⟩ := run_bind_done hgen
  obtain ⟨rfl, rfl⟩ := Outcome.done.inj h₆
  obtain ⟨rfl, rfl⟩ := Outcome.done.inj (hf.symm.trans hrun')
  obtain ⟨⟨m, rfl⟩, -⟩ := run_executeRemote_done hs hlock hnet hprov how hrem
  rw [claraExecute_none _ _ _ _ (by exact hd) htab'] at hpost
  obtain ⟨rfl, -⟩ := Outcome.done.inj hpost
  exact ⟨m, rfl⟩

private theorem forward_counted (f : Addr → GlobalId → AProg Bool) {type : ObjectType}
    {retval : Arg} {d : ClFunction} {argc : ℕ} (hb : Books l s)
    (hd : ClFunction.ofArg q.params.func = some (d, argc))
    (htab : preExecFunTable d = some (fun params _ source => do
      let b ← f source (params.argv 1)
      pure (params.setArg 0 (if b then clSuccess else invalidObjectStatus type)), []))
    (htab' : postExecFunTable lzo fuel d = none)
    (hf : ∃ s₂ b, run (.consumer q.consumer) (f q.consumer q.id) (q.answered s) = .done s₂ b ∧
      Books (l.count q retval) s₂ ∧ Local (q.answered s) s₂ q.id b)
    (h : q.run lzo fuel s = .done s' retval) : Books (l.count q retval) s' := by
  obtain ⟨n, hn⟩ := q.answered_eq s
  obtain ⟨s₁, b, hrun, hb₁, hloc⟩ := hf
  have hprov : s₁.heap .provider = s.heap .provider := by
    rw [hloc.provider, hn]
    rfl
  obtain ⟨m, rfl⟩ := q.run_counted f hb.toSettled hd htab htab' hrun hloc.net hprov
    hb₁.providerLock h
  exact hb₁.withNet m

/-- A request on whose outcome the two sides agree keeps the books. -/
theorem Books.forward {retval : Arg} (hb : Books l s) (ha : q.Admissible l s) (hg : q.Agrees s)
    (h : q.run lzo fuel s = .done s' retval) : Books (l.count q retval) s' := by
  obtain ⟨n, hn⟩ := q.answered_eq s
  have hb₀ : Books l (q.answered s) := hn ▸ hb.withNet n
  obtain ⟨hc, ha⟩ := ha
  rw [Forwarded.Agrees] at hg
  cases hk : q.counting with
  | none => simp [hk] at ha
  | some k =>
    obtain ⟨⟨d, argc⟩, hd, hdk⟩ := Option.bind_eq_some_iff.mp hk
    obtain ⟨htab, htab'⟩ := Prod.mk.inj (entries_counting lzo fuel hdk)
    simp only [hk] at ha hg
    cases k with
    | create => exact forward_create hb hc hk h
    | retain type =>
      have ha₀ : Admissible l (q.answered s) (.retain q.consumer q.id) := by rwa [hn]
      obtain ⟨s₂, b, hr, hb₂, hloc⟩ := hb₀.retain ha₀
      have hans : b = true ↔ q.Succeeds := by
        rw [hloc.answer, hn]
        exact hg.symm
      refine forward_counted clRetainObject hb hd htab htab' ⟨s₂, b, hr, ?_, hloc⟩ h
      cases b <;> simpa [Ledger.record, Ledger.count, hk, ← hans] using hb₂
    | release type =>
      have ha₀ : Admissible l (q.answered s) (.release q.consumer q.id) := by rwa [hn]
      obtain ⟨s₂, b, hr, hb₂, hloc⟩ := hb₀.release ha₀
      have hans : b = true ↔ q.Succeeds := by
        rw [hloc.answer, hn]
        exact hg.symm
      refine forward_counted clReleaseObject hb hd htab htab' ⟨s₂, b, hr, ?_, hloc⟩ h
      cases b <;> simpa [Ledger.record, Ledger.count, hk, ← hans] using hb₂

private theorem refs_nonneg {retval : Arg} (hb : Books l s)
    (hl : ∀ id acc, l id = some acc → 0 ≤ acc.refs) (hg : q.Agrees s) {id : GlobalId}
    {acc : Account} (h : l.count q retval id = some acc) : 0 ≤ acc.refs := by
  have hadd : ∀ id' k, (∀ acc, l id' = some acc → 0 ≤ acc.refs + k) →
      l.add id' k id = some acc → 0 ≤ acc.refs := fun id' k hk h => by
    rcases eq_or_ne id id' with rfl | hne
    · cases hl' : l id with
      | none => simp [Ledger.add, hl'] at h
      | some acc' =>
        rw [Ledger.add_self hl'] at h
        obtain rfl := Option.some.inj h
        exact hk acc' hl'
    · exact hl id acc (by rwa [Ledger.add_of_ne hne] at h)
  rw [Ledger.count] at h
  rw [Forwarded.Agrees] at hg
  cases hk : q.counting with
  | none =>
    rw [hk] at h
    exact hl id acc h
  | some k =>
    simp only [hk] at h hg
    cases k with
    | create =>
      simp only at h
      split_ifs at h
      · exact hl id acc h
      · rcases eq_or_ne id retval with rfl | hne
        · rw [Function.update_self] at h
          obtain rfl := Option.some.inj h
          exact zero_le_one
        · exact hl id acc (by rwa [Function.update_of_ne hne] at h)
    | retain type =>
      simp only at h
      split_ifs at h
      · exact hadd _ _ (fun acc' hl' => add_nonneg (hl _ _ hl') zero_le_one) h
      · exact hl id acc h
    | release type =>
      simp only at h hg
      split_ifs at h with hs
      · refine hadd _ _ (fun acc' hl' => ?_) h
        have hpos : 0 < acc'.refs := by_contra fun hpos => (hb.dead _ acc' hl' hpos).1 (hg.mp hs)
        omega
      · exact hl id acc h

end

/-- As long as the provider reports success for a retain or a release exactly when the agent has
the object, the agent's counts are the provider's. -/
theorem countsAgree {lzo : Lzo} {fuel : ℕ} {init : State} (hi : Settled init)
    (hc : ∀ c, (init.heap .consumer c).isSome → ∀ id, id ∉ init.sets (.objectsOf c)) :
    CountsAgree lzo fuel (fun s q => q.Agrees s) init := by
  intro s l h
  have hbooks : Books l s ∧ ∀ id acc, l id = some acc → 0 ≤ acc.refs := by
    induction h with
    | refl => exact ⟨hi.books hc, fun _ _ h => by cases h⟩
    | request q _ ha hg hr ih =>
      exact ⟨ih.1.forward ha hg hr, fun id acc => refs_nonneg ih.1 ih.2 hg⟩
  obtain ⟨hb, hl⟩ := hbooks
  intro id acc hacc
  by_cases hpos : 0 < acc.refs
  · obtain ⟨a, o, hid, ho, hr, -⟩ := hb.owned id acc hacc hpos
    simp [State.refcnt, hid, ho, hr]
  · have hzero : acc.refs = 0 := le_antisymm (not_lt.mp hpos) (hl id acc hacc)
    rw [State.refcnt, IdSet.not_mem_iff.mp (hb.dead id acc hacc hpos).1, hzero]
    rfl

theorem countsAgree_small :
    CountsAgree literalLzo 1 (fun s q => q.Agrees s) (.small someIds) :=
  countsAgree (small_settled _) (small_unowned _)

private def creation : Forwarded := ⟨3, ⟨9, 4, fun _ => 0, 6⟩, 21⟩

private def failedRetain : Forwarded := ⟨3, ⟨10, 6, fun _ => 10, 1⟩, clStatus 5⟩

/-- The agent has counted the reference the provider could not give. -/
theorem not_countsAgree_failed_retain :
    ¬ CountsAgree literalLzo 1 (fun _ _ => True) (.small someIds) := by
  intro h
  have hrun : (creation.run literalLzo 1 (.small someIds)).Ends fun s id => id = 10 ∧
      (s.heap .consumer 3).isSome ∧
      (failedRetain.run literalLzo 1 s).Ends fun s' _ => s'.refcnt 10 = 2 := by decide
  obtain ⟨s, id, hs, rfl, hc, hrun'⟩ := Outcome.ends_iff.mp hrun
  obtain ⟨s', retval, hs', hcnt⟩ := Outcome.ends_iff.mp hrun'
  have hk : creation.counting = some .create := by decide
  have hk' : failedRetain.counting = some (.retain .context) := by decide
  have hl : Ledger.count (fun _ => none) creation 10 =
      Function.update (fun _ => none) 10 (some ⟨3, 1⟩) := by
    rw [Ledger.count, hk]
    rfl
  have h₁ : ForwardReach literalLzo 1 (fun _ _ => True) (.small someIds) s _ :=
    .request creation .refl ⟨rfl, by rw [hk]; trivial⟩ trivial hs
  rw [hl] at h₁
  have ha : failedRetain.Admissible (Function.update (fun _ => none) 10 (some ⟨3, 1⟩)) s := by
    refine ⟨hc, ?_⟩
    rw [hk']
    refine ⟨hc, fun hno => (by cases hno), fun acc hacc _ => ?_⟩
    obtain rfl := Option.some.inj hacc
    exact ⟨rfl, by decide⟩
  have h₂ := ForwardReach.request failedRetain h₁ ha trivial hs'
  have hl' : Ledger.count (Function.update (fun _ => none) 10 (some ⟨3, 1⟩)) failedRetain
      retval 10 = some ⟨3, 1⟩ := by
    rw [Ledger.count, hk']
    rfl
  have hfalse := h s' _ h₂ 10 ⟨3, 1⟩ hl'
  rw [hcnt] at hfalse
  cases hfalse

end Clara.Agent
