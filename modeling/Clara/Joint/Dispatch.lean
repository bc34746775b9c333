import Mathlib.Data.UInt
import Clara.Agent.Custody
import Clara.Agent.Expected
import Clara.Agent.Phases
import Clara.Provider.Isolation
import Clara.Provider.Service

/-! Which handlers an EXECUTE request is given to, in the agent and at the provider, and what the
consumer is told when there is none. The number of the function is narrowed to an `int`. -/
namespace Clara.Joint

open Conc

variable {Cl : Type}

/-- The entry of the table with exactly this index is that of `d`. -/
def IsEntry {E : Type} (fntbl : ClFunction → Option E) (func : Arg) (d : ClFunction) : Prop :=
  (∃ argc, ClFunction.clfuninfo[func.toNat]? = some (d, argc)) ∧ (fntbl d).isSome

/-- A table with entries where `fntbl` has some, whose handlers only tell their index. -/
def spies (fntbl : ClFunction → Option (Agent.Handler × List ℕ)) :
    ClFunction → Option (Agent.Handler × List ℕ) := fun d =>
  (fntbl d).map fun _ => (fun params _ _ => pure (params.setArg 0 d.toArg), [])

def Invokes (fntbl : ClFunction → Option (Agent.Handler × List ℕ)) (func : Arg)
    (d : ClFunction) : Prop :=
  ∀ (t : Agent.Tid) (s : Agent.State) (idMap : GlobalId → Agent.AProg Arg)
    (params : ExecuteRequest) (retval : Arg) (target : Option Addr) (source : Addr),
    params.func = func →
      Agent.run t (Agent.claraExecute (spies fntbl) idMap params retval target source) s =
        .done s (params.setArg 0 d.toArg, d.toArg)

/-- At the provider, with the request in the receive buffer. -/
def Serves (lib : Provider.OpenCl Cl) (func : Arg) (d : ClFunction) : Prop :=
  ∀ (buf : Buffer Provider.recvbufsz) (idMap : GlobalId → Option Arg), buf.word 1 = func →
    ∃ args, (Provider.prepare (fun d => (Provider.execFunTable lib d).map fun _ => ((), []))
      idMap buf 0).request = some (d, args)

/-- A handler that leaves `argv[0]` as it finds it, whatever it comes across. -/
def PassesOn (pfn : Agent.Handler) : Prop :=
  ∀ params target source,
    (pfn params target source).Returns fun params' => params'.argv 0 = params.argv 0

def Makes (fntbl : ClFunction → Option (Agent.Handler × List ℕ)) (d : ClFunction) : Prop :=
  ∃ pfn ptrargs, fntbl d = some (pfn, ptrargs) ∧ ¬ PassesOn pfn

/-- In the phase with the table `fntbl`, which begins in `s`, the handler with exactly the index
of the request makes a result and leaves `v`. -/
def LeftByPhase (fntbl : ClFunction → Option (Agent.Handler × List ℕ)) (t : Agent.Tid) (c : Addr)
    (func : Arg) (owner : Option Addr) (params : ExecuteRequest) (retval : Arg)
    (s : Agent.State) (v : Arg) : Prop :=
  ∃ d argc pfn ptrargs s₁ params₁ s₂ params₂,
    ClFunction.clfuninfo[func.toNat]? = some (d, argc) ∧
    fntbl d = some (pfn, ptrargs) ∧ ¬ PassesOn pfn ∧
    Agent.run t (Agent.translateArgs (Agent.agentIdMap c) ptrargs 1 argc
      (params.setArg 0 retval)) s = .done s₁ params₁ ∧
    Agent.run t (pfn params₁ owner c) s₁ = .done s₂ params₂ ∧ params₂.argv 0 = v

def LeftByProvider (lib : Provider.OpenCl Cl) (func : Arg) (params : ExecuteRequest)
    (q : Provider.State Cl) (v : Arg) : Prop :=
  ∃ d argc pfn ptrargs buf q',
    ClFunction.clfuninfo[func.toNat]? = some (d, argc) ∧
    Provider.execFunTable lib d = some (pfn, ptrargs) ∧
    Provider.prepare (Provider.execFunTable lib) (Provider.providerIdMap q.idMap)
      (q.took params.bytes).buf 0 = .call d pfn argc buf ∧
    pfn (Provider.argvOf buf) { q.took params.bytes with buf := buf } = .done q' v

/-- A run of `agent_execute` that returns `v`: the owner is found, the first phase turns the
request into `asked` and has the result `first`, the owner answers `answer`. -/
structure Course (lzo : Lzo) (fuel : ℕ) (t : Agent.Tid) (c : Addr) (params : ExecuteRequest)
    (s s' : Agent.State) (v : Arg) where
  found : Agent.State
  owner : Option Addr
  run_owner : Agent.run t (Agent.executeOwner params.hint) s = .done found owner
  begun : Agent.State
  asked : ExecuteRequest
  first : Arg
  run_pre : Agent.run t (Agent.claraExecute Agent.preExecFunTable (Agent.agentIdMap c) params 0
    owner c) found = .done begun (asked, first)
  answered : Agent.State
  answer : Arg
  run_remote : Agent.run t (Agent.executeRemote owner asked first) begun = .done answered answer
  left : ExecuteRequest
  run_post : Agent.run t (Agent.claraExecute (Agent.postExecFunTable lzo fuel)
    (Agent.agentIdMap c) asked answer owner c) answered = .done s' (left, v)

/-- The value is what a handler with exactly the index of the request has left: that of the second
phase, or else the provider's, or, where nothing is passed on, that of the first phase. The
provider's handler leaves what a provider answers, however it comes to it. -/
inductive Course.Produced (lib : Provider.OpenCl Cl) {lzo : Lzo} {fuel : ℕ} {t : Agent.Tid}
    {c : Addr} {params : ExecuteRequest} {s s' : Agent.State} {v : Arg}
    (x : Course lzo fuel t c params s s' v) : Prop
  | post (h : LeftByPhase (Agent.postExecFunTable lzo fuel) t c params.func x.owner x.asked
      x.answer x.answered v)
  | exec {d : ClFunction} (hd : IsEntry (Provider.execFunTable lib) params.func d)
      (howner : x.owner.isSome) (hv : v = x.answer)
      (h : ∀ q q' : Provider.State Cl,
        Provider.claraExecute lib 0 (q.took x.asked.bytes) = .done q' x.answer →
          LeftByProvider lib params.func x.asked q x.answer)
  | pre (howner : x.owner = none) (h : LeftByPhase Agent.preExecFunTable t c params.func none
      params 0 x.found v)

/-- The handlers that are invoked for the function are those with its index, and a value that the
consumer receives was produced by one of them. -/
structure Dispatches (lib : Provider.OpenCl Cl) (func : Arg) (hint : GlobalId) : Prop where
  pre : ∀ d, Invokes Agent.preExecFunTable func d ↔ IsEntry Agent.preExecFunTable func d
  post : ∀ lzo fuel d, Invokes (Agent.postExecFunTable lzo fuel) func d ↔
    IsEntry (Agent.postExecFunTable lzo fuel) func d
  exec : hint ≠ invalidHandle → ∀ d, Serves lib func d ↔
    IsEntry (Provider.execFunTable lib) func d
  response : ∀ lzo fuel t c params s s' v, params.func = func → params.hint = hint →
    Agent.run t (Agent.agentConsumerHandler lzo fuel c (.execute params)) s = .done s' () →
    (s'.net (.consumer c)).sent =
      (s.net (.consumer c)).sent ++ [.msg Msg.executeResponse (Bytes.word v)] →
    ∃ s₁, ∃ x : Course lzo fuel t c params s s₁ v, x.Produced lib

/-- The functions whose result the second phase makes. -/
def answersItself : ClFunction → Bool
  | .getPlatformIDs | .getPlatformInfo | .getDeviceIDs | .getDeviceInfo
  | .createContext | .createContextFromType | .createCommandQueue | .createBuffer
  | .createProgramWithSource | .createProgramWithBinary | .createKernel
  | .unloadCompiler => true
  | _ => false

section
variable {fntbl : ClFunction → Option (Agent.Handler × List ℕ)} {func : Arg} {d : ClFunction}
  {lib : Provider.OpenCl Cl}

theorem ofArg_toArg (d : ClFunction) : ∃ argc, ClFunction.ofArg d.toArg = some (d, argc) := by
  cases d <;> exact ⟨_, rfl⟩

theorem toArg_injective : Function.Injective ClFunction.toArg := by
  intro d d' h
  obtain ⟨argc, hd⟩ := ofArg_toArg d
  obtain ⟨argc', hd'⟩ := ofArg_toArg d'
  rw [h] at hd
  exact (Prod.mk.inj (Option.some.inj (hd.symm.trans hd'))).1

/-- A number that is an index is not changed by narrowing. -/
theorem ofArg_of_index {x : ClFunction × ℕ} (h : ClFunction.clfuninfo[func.toNat]? = some x) :
    ClFunction.ofArg func = some x := by
  have hlt : func.toNat < ClFunction.clfuninfo.length := (List.getElem?_eq_some_iff.mp h).1
  have hlen : ClFunction.clfuninfo.length ≤ 100 := by decide
  rw [ClFunction.ofArg, Nat.mod_eq_of_lt (by omega), h]

/-- The agent invokes the entry that the narrowed number names. -/
theorem invokes_iff :
    Invokes fntbl func d ↔ (∃ argc, ClFunction.ofArg func = some (d, argc)) ∧ (fntbl d).isSome := by
  have hrun : ∀ {d : ClFunction} {argc : ℕ} (t : Agent.Tid) (s : Agent.State)
      (idMap : GlobalId → Agent.AProg Arg) (params : ExecuteRequest) (retval : Arg)
      (target : Option Addr) (source : Addr), ClFunction.ofArg params.func = some (d, argc) →
      (fntbl d).isSome → Agent.run t
        (Agent.claraExecute (spies fntbl) idMap params retval target source) s =
          .done s (params.setArg 0 d.toArg, d.toArg) := by
    intro d argc t s idMap params retval target source hd hentry
    obtain ⟨e, he⟩ := Option.isSome_iff_exists.mp hentry
    have hspy : spies fntbl d = some (fun params _ _ => pure (params.setArg 0 d.toArg), []) := by
      rw [spies, he, Option.map_some]
    have hset : (params.setArg 0 retval).setArg 0 d.toArg = params.setArg 0 d.toArg := by
      simp only [ExecuteRequest.setArg, Function.update_idem]
    have harg : (params.setArg 0 d.toArg).argv 0 = d.toArg := by
      simp only [ExecuteRequest.setArg, Function.update_self]
    rw [Agent.claraExecute_some _ _ _ _ hd hspy]
    simp only [hset, Prog.pure_bind', harg]
    rfl
  constructor
  · intro h
    obtain ⟨params, hparams⟩ : ∃ x : ExecuteRequest, x = ⟨0, func, fun _ => 0, 0⟩ := ⟨_, rfl⟩
    have hfunc : params.func = func := by rw [hparams]
    obtain ⟨s, hs⟩ : ∃ x, x = Agent.State.small Agent.someIds := ⟨_, rfl⟩
    have hne : d.toArg + 1 ≠ d.toArg := by
      cases d <;> decide
    have hspied := h (.consumer 3) s (fun _ => pure 0) params (d.toArg + 1) none 3 hfunc
    have hskip : Agent.claraExecute (spies fntbl) (fun _ => pure 0) params (d.toArg + 1) none 3 ≠
        pure (params, d.toArg + 1) := by
      intro heq
      rw [heq] at hspied
      have hx := (Outcome.done.inj hspied).2
      exact hne (Prod.mk.inj hx).2
    cases hd : ClFunction.ofArg func with
    | none =>
      exfalso
      apply hskip
      rw [Agent.claraExecute, hfunc, hd]
    | some x =>
      obtain ⟨d', argc⟩ := x
      have hd' : ClFunction.ofArg params.func = some (d', argc) := by rw [hfunc, hd]
      cases hentry : (fntbl d').isSome with
      | false =>
        exfalso
        apply hskip
        rw [Option.isSome_eq_false_iff, Option.isNone_iff_eq_none] at hentry
        exact Agent.claraExecute_none _ _ _ _ hd' (by rw [spies, hentry, Option.map_none])
      | true =>
        rw [hrun _ _ _ _ _ _ _ hd' hentry] at hspied
        have hx := (Prod.mk.inj (Outcome.done.inj hspied).2).2
        obtain rfl := toArg_injective hx
        exact ⟨⟨argc, rfl⟩, hentry⟩
  · rintro ⟨⟨argc, hd⟩, hentry⟩ t s idMap params retval target source rfl
    exact hrun t s idMap params retval target source hd hentry

theorem serves_iff : Serves lib func d ↔ (∃ argc, ClFunction.ofArg func = some (d, argc)) ∧
    (Provider.execFunTable lib d).isSome := by
  constructor
  · intro h
    obtain ⟨buf, hbuf⟩ : ∃ buf : Buffer Provider.recvbufsz, buf.word 1 = func := by
      refine ⟨(Provider.filled 0).setWord 1 func, ?_⟩
      apply Buffer.word_setWord_self
      unfold Provider.recvbufsz
      omega
    obtain ⟨args, hargs⟩ := h buf (fun _ => none) hbuf
    obtain ⟨pfn, ptrargs, hd, hf, -⟩ := Provider.prepare_request_eq_some.mp hargs
    rw [hbuf] at hd
    refine ⟨⟨_, hd⟩, ?_⟩
    have hsome : ((Provider.execFunTable lib d).map fun _ => ((), ([] : List ℕ))).isSome := by
      rw [hf]
      rfl
    rwa [Option.isSome_map] at hsome
  · rintro ⟨⟨argc, hd⟩, hentry⟩ buf idMap hbuf
    obtain ⟨e, he⟩ := Option.isSome_iff_exists.mp hentry
    refine ⟨(List.range argc).map fun i => Provider.argvOf buf (i + 1), ?_⟩
    apply Provider.prepare_request_eq_some.mpr
    refine ⟨(), [], ?_, ?_, ?_⟩
    · rw [hbuf, List.length_map, List.length_range, hd]
    · rw [he, Option.map_some]
    · intro i hi
      rw [List.length_map, List.length_range] at hi
      simp [Provider.translateArg, hi]

private theorem passesOn_agentGenericMapEvent (n : ℕ) :
    PassesOn (Agent.agentGenericMapEvent n) := by
  intro params target source
  rw [Agent.agentGenericMapEvent]
  split_ifs with hn
  · rfl
  · refine Prog.Returns.bind _ fun provider => Prog.Returns.bind _ fun _ =>
      Prog.Returns.bind _ fun virt => Prog.Returns.bind _ fun _ =>
      Prog.Returns.bind _ fun sent => Prog.Returns.bind _ fun _ => Prog.Returns.bind _ fun ptr => ?_
    cases ptr with
    | none => exact fun r => r.elim
    | some real =>
      exact Prog.Returns.bind _ fun id => Prog.Returns.bind _ fun _ =>
        Prog.Returns.bind _ fun _ => rfl

private theorem not_passesOn {pfn : Agent.Handler} {params : ExecuteRequest}
    {target : Option Addr} {source : Addr} {t : Agent.Tid} {s : Agent.State}
    (h : (Agent.run t (pfn params target source) s).Ends fun _ params' =>
      params'.argv 0 ≠ params.argv 0) : ¬ PassesOn pfn := by
  intro hp
  obtain ⟨s', params', hrun, hne⟩ := Outcome.ends_iff.mp h
  exact hne ((hp params target source).run hrun)

/-- A request whose arguments are all 0, with 1 in the place of the result. -/
private def marked : ExecuteRequest := ⟨0, 0, fun i => if i = 0 then 1 else 0, 0⟩

private theorem makes_create : ¬ PassesOn Agent.agentGenericCreate :=
  @not_passesOn _ marked (some 1) 3 (.consumer 3) (Agent.State.small Agent.someIds) (by decide)

private theorem makes_retain (type : Agent.ObjectType) :
    ¬ PassesOn (Agent.agentGenericRetain type) :=
  @not_passesOn _ marked none 3 (.consumer 3) (Agent.State.small Agent.someIds)
    (by cases type <;> decide)

private theorem makes_release (type : Agent.ObjectType) :
    ¬ PassesOn (Agent.agentGenericRelease type) :=
  @not_passesOn _ marked none 3 (.consumer 3) (Agent.State.small Agent.someIds)
    (by cases type <;> decide)

private theorem makes_getPlatformIDs : ¬ PassesOn Agent.claraPostClGetPlatformIDs :=
  @not_passesOn _ marked none 3 (.consumer 3) (Agent.State.small Agent.someIds) (by decide)

private theorem makes_getPlatformInfo : ¬ PassesOn Agent.claraPostClGetPlatformInfo :=
  @not_passesOn _ marked none 3 (.consumer 3) (Agent.State.small Agent.someIds) (by decide)

private theorem makes_getDeviceIDs : ¬ PassesOn Agent.claraPostClGetDeviceIDs :=
  @not_passesOn _ marked none 3 (.consumer 3) (Agent.State.small Agent.someIds) (by decide)

private theorem makes_getDeviceInfo (lzo : Lzo) (fuel : ℕ) :
    ¬ PassesOn (Agent.claraPostClGetDeviceInfo lzo fuel) :=
  @not_passesOn _ marked none 3 (.consumer 3) (Agent.State.initial Agent.someIds false
    Agent.unlimited)
    (show Agent.clInvalidDevice ≠ 1 by decide)

private theorem makes_unloadCompiler : ¬ PassesOn Agent.claraPostClUnloadCompiler :=
  @not_passesOn _ marked none 3 (.consumer 3) (Agent.State.initial Agent.someIds false
    Agent.unlimited) (by decide)

theorem makes_pre_iff {d : ClFunction} :
    Makes Agent.preExecFunTable d ↔ Agent.countsReferences d = true := by
  constructor
  · rintro ⟨pfn, ptrargs, hf, hpfn⟩
    cases d <;> first
      | rfl
      | cases hf
    -- What is left hands the request on as it is, or without its hint.
    all_goals exact absurd (fun _ _ _ => rfl) hpfn
  · intro h
    cases d <;> first
      | exact ⟨_, _, rfl, makes_retain _⟩
      | exact ⟨_, _, rfl, makes_release _⟩
      | cases h

theorem makes_post_iff {lzo : Lzo} {fuel : ℕ} {d : ClFunction} :
    Makes (Agent.postExecFunTable lzo fuel) d ↔ answersItself d = true := by
  constructor
  · rintro ⟨pfn, ptrargs, hf, hpfn⟩
    cases d <;> first
      | rfl
      | cases hf
    all_goals exact absurd (passesOn_agentGenericMapEvent _) hpfn
  · intro h
    cases d <;> first
      | exact ⟨_, _, rfl, makes_create⟩
      | exact ⟨_, _, rfl, makes_getPlatformIDs⟩
      | exact ⟨_, _, rfl, makes_getPlatformInfo⟩
      | exact ⟨_, _, rfl, makes_getDeviceIDs⟩
      | exact ⟨_, _, rfl, makes_getDeviceInfo lzo fuel⟩
      | exact ⟨_, _, rfl, makes_unloadCompiler⟩
      | cases h

/-- What has no result of its own passes on the result it is given. -/
theorem claraExecute_passesOn {idMap : GlobalId → Agent.AProg Arg} {params params' : ExecuteRequest}
    {retval v : Arg} {target : Option Addr} {source : Addr} {t : Agent.Tid} {s s' : Agent.State}
    (hd : ∀ d argc, ClFunction.ofArg params.func = some (d, argc) → ¬ Makes fntbl d)
    (h : Agent.run t (Agent.claraExecute fntbl idMap params retval target source) s =
      .done s' (params', v)) : v = retval := by
  have htranslate : ∀ ptrargs n i (params : ExecuteRequest),
      (Agent.translateArgs idMap ptrargs (i + 1) n params).Returns fun params' =>
        params'.argv 0 = params.argv 0 := by
    intro ptrargs n
    induction n with
    | zero => exact fun _ _ => rfl
    | succ n ih =>
      intro i params
      rw [Agent.translateArgs]
      split_ifs with hptr
      · refine Prog.Returns.bind _ fun arg => ?_
        have hset : (params.setArg (i + 1) arg).argv 0 = params.argv 0 :=
          Function.update_of_ne (Nat.succ_ne_zero i).symm arg params.argv
        rw [← hset]
        exact ih (i + 1) _
      · exact ih (i + 1) params
  cases hf : ClFunction.ofArg params.func with
  | none =>
    rw [Agent.claraExecute, hf] at h
    exact (Prod.mk.inj (Outcome.done.inj h).2).2.symm
  | some x =>
    obtain ⟨d, argc⟩ := x
    cases hentry : fntbl d with
    | none =>
      rw [Agent.claraExecute_none _ _ _ _ hf hentry] at h
      exact (Prod.mk.inj (Outcome.done.inj h).2).2.symm
    | some e =>
      obtain ⟨pfn, ptrargs⟩ := e
      have hpfn : PassesOn pfn := by
        by_contra hpfn
        exact hd d argc hf ⟨pfn, ptrargs, hentry, hpfn⟩
      rw [Agent.claraExecute, hf] at h
      simp only [hentry] at h
      obtain ⟨s₁, params₁, ht, h⟩ := Agent.run_bind_done h
      obtain ⟨s₂, params₂, hrun, h⟩ := Agent.run_bind_done h
      obtain ⟨-, hv⟩ := Prod.mk.inj (Outcome.done.inj h).2
      have h₁ := (htranslate ptrargs argc 0 _).run ht
      have h₂ := (hpfn params₁ target source).run hrun
      have h₀ : (params.setArg 0 retval).argv 0 = retval := by
        simp only [ExecuteRequest.setArg, Function.update_self]
      rw [← hv, h₂, h₁, h₀]

theorem leftByPhase {params params' : ExecuteRequest} {retval v : Arg} {owner : Option Addr}
    {c : Addr} {t : Agent.Tid} {s s' : Agent.State} {argc : ℕ} (hfunc : params.func = func)
    (hindex : ClFunction.clfuninfo[func.toNat]? = some (d, argc)) (hmakes : Makes fntbl d)
    (h : Agent.run t (Agent.claraExecute fntbl (Agent.agentIdMap c) params retval owner c) s =
      .done s' (params', v)) : LeftByPhase fntbl t c func owner params retval s v := by
  obtain ⟨pfn, ptrargs, hf, hpfn⟩ := hmakes
  rw [Agent.claraExecute, hfunc, ofArg_of_index hindex] at h
  simp only [hf] at h
  obtain ⟨s₁, params₁, ht, h⟩ := Agent.run_bind_done h
  obtain ⟨s₂, params₂, hrun, h⟩ := Agent.run_bind_done h
  obtain ⟨-, hv⟩ := Prod.mk.inj (Outcome.done.inj h).2
  exact ⟨d, argc, pfn, ptrargs, s₁, params₁, s₂, params₂, hindex, hf, hpfn, ht, hrun, hv⟩

theorem claraExecute_pre_func {idMap : GlobalId → Agent.AProg Arg} {params params' : ExecuteRequest}
    {retval v : Arg} {target : Option Addr} {source : Addr} {t : Agent.Tid} {s s' : Agent.State}
    (h : Agent.run t (Agent.claraExecute Agent.preExecFunTable idMap params retval target source)
      s = .done s' (params', v)) : params'.func = params.func := by
  have hentry : ∀ {d pfn ptrargs}, Agent.preExecFunTable d = some (pfn, ptrargs) →
      ptrargs = [] ∧ ∀ params, (pfn params target source).Returns fun params' =>
        params'.func = params.func := by
    intro d pfn ptrargs hf
    cases d <;> first
      | (cases hf; exact ⟨rfl, fun _ => rfl⟩)
      | (cases hf; exact ⟨rfl, fun _ => Prog.Returns.bind _ fun _ => rfl⟩)
      | cases hf
  cases hd : ClFunction.ofArg params.func with
  | none =>
    rw [Agent.claraExecute, hd] at h
    rw [(Prod.mk.inj (Outcome.done.inj h).2).1]
  | some x =>
    obtain ⟨d, argc⟩ := x
    cases hf : Agent.preExecFunTable d with
    | none =>
      rw [Agent.claraExecute_none _ _ _ _ hd hf] at h
      rw [(Prod.mk.inj (Outcome.done.inj h).2).1]
    | some e =>
      obtain ⟨pfn, ptrargs⟩ := e
      obtain ⟨rfl, hpfn⟩ := hentry hf
      rw [Agent.claraExecute_some _ _ _ _ hd hf] at h
      obtain ⟨s₁, params₁, hrun, h⟩ := Agent.run_bind_done h
      rw [← (Prod.mk.inj (Outcome.done.inj h).2).1]
      have hkept := (hpfn (params.setArg 0 retval)).run hrun
      exact hkept

/-- The provider finds the number of the function where the agent has put it. -/
private theorem took_func (q : Provider.State Cl) (params : ExecuteRequest) :
    (q.took params.bytes).buf.word 1 = params.func := by
  obtain ⟨b, hb⟩ : ∃ b, (params.bytes).take Provider.recvbufsz ++
      q.buf.bytes.drop params.bytes.length = Bytes.words [params.hint, params.func] ++ b := by
    refine ⟨(Bytes.words ((List.range (params.argc + 1)).map params.argv)).take
      (Provider.recvbufsz - 16) ++ q.buf.bytes.drop params.bytes.length, ?_⟩
    have hbytes : params.bytes = Bytes.words [params.hint, params.func] ++
        Bytes.words ((List.range (params.argc + 1)).map params.argv) := by
      rw [← Bytes.words_append]
      rfl
    have hlen : (Bytes.words [params.hint, params.func]).length = 16 := by simp
    rw [hbytes, List.take_append, hlen, List.take_of_length_le (by
      rw [hlen]
      decide), List.append_assoc]
  show Bytes.wordAt _ 1 = _
  rw [Provider.State.took, Buffer.receive]
  show Bytes.wordAt (_ ++ _) 1 = _
  rw [hb, Bytes.wordAt_words _ _ _ (by simp)]
  rfl

/-- A provider's answer to a function that it serves is left by its handler. -/
theorem leftByProvider {params : ExecuteRequest} {q q' : Provider.State Cl} {v : Arg} {argc : ℕ}
    (hfunc : params.func = func) (hindex : ClFunction.clfuninfo[func.toNat]? = some (d, argc))
    (hentry : (Provider.execFunTable lib d).isSome)
    (h : Provider.claraExecute lib 0 (q.took params.bytes) = .done q' v) :
    LeftByProvider lib func params q v := by
  obtain ⟨⟨pfn, ptrargs⟩, hf⟩ := Option.isSome_iff_exists.mp hentry
  have hd : ClFunction.ofArg ((q.took params.bytes).buf.word 1) = some (d, argc) := by
    rw [took_func, hfunc, ofArg_of_index hindex]
  rw [Provider.claraExecute, Provider.PProg.bind_run, Provider.PProg.get_run,
    Outcome.bind_done] at h
  cases hp : Provider.prepare (Provider.execFunTable lib) (Provider.providerIdMap q.idMap)
      (q.took params.bytes).buf 0 with
  | skip =>
    rw [Provider.prepare, hd] at hp
    simp only [hf] at hp
    split at hp <;> cases hp
  | abort =>
    have hidMap : (q.took params.bytes).idMap = q.idMap := rfl
    rw [hidMap, hp] at h
    cases h
  | call d' pfn' argc' buf =>
    have hsame : d' = d ∧ pfn' = pfn ∧ argc' = argc := by
      rw [Provider.prepare, hd] at hp
      simp only [hf] at hp
      split at hp
      · cases hp
      · obtain ⟨rfl, rfl, rfl, -⟩ := Provider.Prepared.call.inj hp
        exact ⟨rfl, rfl, rfl⟩
    obtain ⟨rfl, rfl, rfl⟩ := hsame
    have hidMap : (q.took params.bytes).idMap = q.idMap := rfl
    rw [hidMap, hp, Provider.executePrepared, Provider.PProg.bind_run,
      Provider.PProg.modify_run, Outcome.bind_done, Provider.PProg.bind_run] at h
    obtain ⟨q₁, ret, hrun, h⟩ := Outcome.bind_eq_done h
    obtain ⟨-, hv⟩ := Outcome.done.inj h
    rw [hv] at hrun
    exact ⟨d', argc', pfn', ptrargs, buf, q₁, hindex, hf, hp, hrun⟩

theorem exists_course {lzo : Lzo} {fuel : ℕ} {t : Agent.Tid} {c : Addr} {params : ExecuteRequest}
    {s s' : Agent.State} {v : Arg}
    (h : Agent.run t (Agent.agentConsumerHandler lzo fuel c (.execute params)) s = .done s' ())
    (hsent : (s'.net (.consumer c)).sent =
      (s.net (.consumer c)).sent ++ [.msg Msg.executeResponse (Bytes.word v)]) :
    ∃ s₁, Nonempty (Course lzo fuel t c params s s₁ v) := by
  obtain ⟨s₁, retval, hexecute, h⟩ := Agent.run_bind_done h
  obtain ⟨s₂, b, hsend, h⟩ := Agent.run_bind_done h
  obtain ⟨rfl, -⟩ := Outcome.done.inj h
  -- Nothing has been sent to the consumer before.
  have hconn : s₁.net (.consumer c) = s.net (.consumer c) := by
    refine Prog.All.run_keeps (I := fun s₁ => s₁.net (.consumer c) = s.net (.consumer c)) ?_
      (Agent.all_agentExecute lzo fuel c params) hexecute rfl
    intro o s₁ s₂ r ho hexec hs₁
    have hout : ∀ a, a ∉ Agent.Area.execution → o.area ≠ a := fun a ha heq => ha (heq ▸ ho)
    have hsame : s₂.net (.consumer c) = s₁.net (.consumer c) :=
      Agent.exec_conn hexec (hout .answer (by decide)) (hout .arrival (by decide))
    rw [hsame, hs₁]
  have hv : retval = v := by
    rw [claraSendExecuteResponse, if_pos rfl, sendRequest, Agent.run_net, Net.run_bind] at hsend
    by_cases hf : (s₁.net (.consumer c)).sendFails.head? = some true
    · rw [Net.run_claraSendmsg_failed hf] at hsend
      obtain ⟨rfl, -⟩ := Outcome.done.inj hsend
      simp [hconn] at hsent
    · rw [Net.run_claraSendmsg_sent hf] at hsend
      obtain ⟨rfl, -⟩ := Outcome.done.inj hsend
      simp only [Agent.State.withNet_net, Function.update_self, hconn,
        List.append_cancel_left_eq, List.cons.injEq, Sent.msg.injEq, true_and, and_true] at hsent
      rw [← Bytes.wordAt_word retval, hsent, Bytes.wordAt_word]
  subst hv
  obtain ⟨found, owner, howner, hexecute⟩ := Agent.run_bind_done hexecute
  obtain ⟨begun, ⟨asked, first⟩, hpre, hexecute⟩ := Agent.run_bind_done hexecute
  obtain ⟨answered, answer, hremote, hexecute⟩ := Agent.run_bind_done hexecute
  obtain ⟨s₂, ⟨left, v⟩, hpost, hexecute⟩ := Agent.run_bind_done hexecute
  obtain ⟨rfl, rfl⟩ := Outcome.done.inj hexecute
  exact ⟨_, ⟨⟨found, owner, howner, begun, asked, first, hpre, answered, answer, hremote, left,
    hpost⟩⟩⟩

/-- What a phase passes on that has nothing to do for a request whose arguments are all 0. -/
private theorem claraExecute_idle {idMap : GlobalId → Agent.AProg Arg} {params : ExecuteRequest}
    {target : Option Addr} {source : Addr} (h0 : ∀ i, params.argv i = 0)
    (h : ∀ d argc, ClFunction.ofArg params.func = some (d, argc) → fntbl d = none ∨
      fntbl d = some (Agent.agentNop, []) ∨ ∃ n, fntbl d = some (Agent.agentGenericMapEvent n, [])) :
    Agent.claraExecute fntbl idMap params 0 target source = pure (params, 0) := by
  have hset : params.setArg 0 0 = params := Agent.setArg_self (h0 0)
  cases hd : ClFunction.ofArg params.func with
  | none => rw [Agent.claraExecute, hd]
  | some x =>
    obtain ⟨d, argc⟩ := x
    obtain hf | hf | ⟨n, hf⟩ := h d argc hd
    · exact Agent.claraExecute_none _ _ _ _ hd hf
    · rw [Agent.claraExecute_some _ _ _ _ hd hf, hset, Agent.agentNop, Prog.pure_bind', h0]
    · rw [Agent.claraExecute_some _ _ _ _ hd hf, hset, Agent.agentGenericMapEvent,
        if_pos (show params.argv n = invalidId from h0 n), Prog.pure_bind', h0]

private theorem exec_of_countsReferences (lib : Provider.OpenCl Cl) {d : ClFunction}
    (h : Agent.countsReferences d = true) : (Provider.execFunTable lib d).isSome := by
  cases d <;> first
    | rfl
    | cases h

private theorem pre_cases {d : ClFunction} (h : Agent.countsReferences d = false)
    (h' : answersItself d = false) : Agent.preExecFunTable d = none ∨
      Agent.preExecFunTable d = some (Agent.agentNop, []) := by
  cases d <;> first
    | exact .inl rfl
    | exact .inr rfl
    | exact absurd h (by decide)
    | exact absurd h' (by decide)

private theorem post_cases {lzo : Lzo} {fuel : ℕ} {d : ClFunction} (h : answersItself d = false) :
    Agent.postExecFunTable lzo fuel d = none ∨
      ∃ n, Agent.postExecFunTable lzo fuel d = some (Agent.agentGenericMapEvent n, []) := by
  cases d <;> first
    | exact .inl rfl
    | exact .inr ⟨_, rfl⟩
    | cases h

def zeroResponse : Incoming := .record (Sent.msg Msg.executeResponse (Bytes.word 0)).record

/-- The small agent, where the hint names the object of the provider, and a response of the
provider is waiting. -/
def withHint (hint : GlobalId) : Agent.State :=
  ((Agent.State.small Agent.someIds).putSet .objects (IdSet.empty.add hint 6)).withNet
    (Net.offering zeroResponse [])

private theorem run_executeOwner_withHint {hint : GlobalId} (h : hint ≠ invalidHandle) :
    Agent.run (.consumer 3) (Agent.executeOwner hint) (withHint hint) =
      .done (withHint hint) (some 1) := by
  have hu : Agent.Usable (.consumer 3) .objects (withHint hint) := ⟨rfl, rfl⟩
  have hlook : ((withHint hint).sets .objects).lookup hint = some 6 := by
    show (IdSet.empty.add hint 6).lookup hint = some 6
    rw [IdSet.lookup_add (IdSet.not_mem_empty _), if_pos rfl]
  have hobject : (withHint hint).heap .object 6 = some ⟨9, 77, 0, 7, 1, none⟩ := rfl
  rw [Agent.executeOwner, if_pos h, Agent.run_bind, Agent.findHint, Agent.run_bind,
    Agent.run_setFind hu, hlook]
  simp only [Outcome.bind_done, Prog.run_pure]
  rw [Agent.run_bind, Agent.run_read hobject]
  rfl

/-- Both phases have nothing to do, and the result is that of the call in between. -/
private theorem run_agentExecute_between {params : ExecuteRequest} {lzo : Lzo} {fuel : ℕ}
    (h0 : ∀ i, params.argv i = 0)
    (hmakes : ∀ d argc, ClFunction.ofArg params.func = some (d, argc) →
      Agent.countsReferences d = false ∧ answersItself d = false)
    {s s' : Agent.State} {owner : Option Addr}
    (howner : Agent.run (.consumer 3) (Agent.executeOwner params.hint) s = .done s owner)
    (hremote : Agent.run (.consumer 3) (Agent.executeRemote owner params 0) s = .done s' 0) :
    Agent.run (.consumer 3) (Agent.agentExecute lzo fuel params 3) s = .done s' 0 := by
  have hpre : Agent.claraExecute Agent.preExecFunTable (Agent.agentIdMap 3) params 0 owner 3 =
      pure (params, 0) := claraExecute_idle h0 fun d argc hd =>
    (pre_cases (hmakes d argc hd).1 (hmakes d argc hd).2).imp_right .inl
  have hpost : Agent.claraExecute (Agent.postExecFunTable lzo fuel) (Agent.agentIdMap 3) params
      0 owner 3 = pure (params, 0) := claraExecute_idle h0 fun d argc hd =>
    (post_cases (hmakes d argc hd).2).imp_right .inr
  rw [Agent.agentExecute, Agent.run_bind, howner, Outcome.bind_done, hpre, Prog.pure_bind',
    Agent.run_bind, hremote, Outcome.bind_done, hpost]
  rfl

/-- The request is passed on to the provider if there is a hint, and the response is what comes
of it. -/
private theorem run_agentExecute_idle {params : ExecuteRequest} {lzo : Lzo} {fuel : ℕ}
    (h0 : ∀ i, params.argv i = 0)
    (hmakes : ∀ d argc, ClFunction.ofArg params.func = some (d, argc) →
      Agent.countsReferences d = false ∧ answersItself d = false) :
    ∃ n : Net Agent.Sd, Agent.run (.consumer 3) (Agent.agentExecute lzo fuel params 3)
        (withHint params.hint) = .done ((withHint params.hint).withNet n) 0 ∧
      n (.consumer 3) = ⟨[zeroResponse], [], []⟩ := by
  by_cases hhint : params.hint = invalidHandle
  · have howner : Agent.run (.consumer 3) (Agent.executeOwner params.hint)
        (withHint params.hint) = .done (withHint params.hint) none := by
      rw [Agent.executeOwner, if_neg (not_not_intro hhint)]
      rfl
    exact ⟨_, run_agentExecute_between h0 hmakes howner rfl, rfl⟩
  · have howner := run_executeOwner_withHint hhint
    obtain ⟨s, hs⟩ : ∃ s, s = withHint params.hint := ⟨_, rfl⟩
    rw [← hs] at howner ⊢
    have hp : s.heap .provider 1 = some ⟨0, 2, true⟩ := by
      rw [hs]
      rfl
    have hl : s.heap .lock 2 = some .free := by
      rw [hs]
      rfl
    have hnet : s.net = Net.offering zeroResponse [] := by
      rw [hs]
      rfl
    have hne : Agent.Sd.consumer 3 ≠ .provider 1 := by decide
    have hremote := @Agent.run_call_stored (.consumer 3) s zeroResponse [] 1 Msg.executeRequest
      params.bytes .remoteExecuteSize _ (Bytes.word 0) hp hl (by rw [hnet]; rfl)
      (by rw [hnet]; rfl) (by decide) (by decide)
    refine ⟨(s.net.push (.provider 1) [.msg Msg.executeRequest params.bytes]).withInq
      (.provider 1) [], ?_, ?_⟩
    · refine run_agentExecute_between h0 hmakes howner ?_
      rw [Agent.executeRemote, if_pos (Option.isSome_some), Agent.agentRemoteExecute_eq,
        Agent.run_bind, hremote, Bytes.wordAt_word]
      rfl
    · rw [Net.withInq_of_ne _ _ hne, Net.push_of_ne _ _ hne, hnet]
      rfl

/-- Without an entry in the agent's tables a request is answered with success all the same. -/
private theorem run_handleExecute_idle {params : ExecuteRequest} {lzo : Lzo} {fuel : ℕ}
    (h0 : ∀ i, params.argv i = 0)
    (hmakes : ∀ d argc, ClFunction.ofArg params.func = some (d, argc) →
      Agent.countsReferences d = false ∧ answersItself d = false) :
    ∃ s', Agent.run (.consumer 3) (Agent.agentConsumerHandler lzo fuel 3 (.execute params))
        (withHint params.hint) = .done s' () ∧
      (s'.net (.consumer 3)).sent = ((withHint params.hint).net (.consumer 3)).sent ++
        [.msg Msg.executeResponse (Bytes.word 0)] := by
  obtain ⟨n, hexec, hn⟩ := run_agentExecute_idle h0 hmakes
  have hf : (n (.consumer 3)).sendFails = [] := by rw [hn]
  refine ⟨((withHint params.hint).withNet n).withNet
    (n.push (.consumer 3) [.msg Msg.executeResponse (Bytes.word 0)]), ?_, ?_⟩
  · rw [Agent.agentConsumerHandler, Agent.handleExecute, Agent.run_bind, hexec,
      Outcome.bind_done, claraSendExecuteResponse, if_pos rfl, Agent.run_bind, Agent.run_net]
    simp only [Agent.State.withNet_net, Net.run_sendRequest hf, Outcome.bind_done]
    rfl
  · rw [Agent.State.withNet_net, Net.push_sent, hn]
    rfl

/-- The stages of a run, for a function whose index is exactly that of the request. -/
theorem Course.produced {lzo : Lzo} {fuel : ℕ} {t : Agent.Tid} {c : Addr} {params : ExecuteRequest}
    {s s' : Agent.State} {v : Arg} (x : Course lzo fuel t c params s s' v) {argc : ℕ}
    (hindex : ClFunction.clfuninfo[params.func.toNat]? = some (d, argc))
    (h : answersItself d = true ∨
      params.hint ≠ invalidHandle ∧ (Provider.execFunTable lib d).isSome ∨
      params.hint = invalidHandle ∧ Agent.countsReferences d = true) : x.Produced lib := by
  have hfunc : x.asked.func = params.func := claraExecute_pre_func x.run_pre
  cases hpost : answersItself d with
  | true => exact .post (leftByPhase hfunc hindex (makes_post_iff.mpr hpost) x.run_post)
  | false =>
    -- The second phase hands on what it is given.
    have hv : v = x.answer := by
      refine claraExecute_passesOn (fun d' argc' hd' hmakes => ?_) x.run_post
      rw [hfunc, ofArg_of_index hindex] at hd'
      obtain ⟨rfl, rfl⟩ := Prod.mk.inj (Option.some.inj hd')
      rw [makes_post_iff, hpost] at hmakes
      cases hmakes
    obtain ⟨-, ⟨hhint, howner⟩ | ⟨hhint, a, o, -, -, howner⟩⟩ :=
      Agent.run_executeOwner_done x.run_owner
    · obtain h | ⟨hne, -⟩ | ⟨-, hcounts⟩ := h
      · rw [hpost] at h
        cases h
      · exact absurd hhint hne
      · have hremote := x.run_remote
        rw [howner] at hremote
        obtain ⟨-, hfirst⟩ := Outcome.done.inj hremote
        have hpre := x.run_pre
        rw [howner, hfirst, ← hv] at hpre
        exact .pre howner (leftByPhase rfl hindex (makes_pre_iff.mpr hcounts) hpre)
    · obtain h | ⟨-, hentry⟩ | ⟨heq, -⟩ := h
      · rw [hpost] at h
        cases h
      · refine .exec ⟨⟨argc, hindex⟩, hentry⟩ (by rw [howner]; rfl) hv fun q q' hq => ?_
        exact leftByProvider hfunc hindex hentry hq
      · exact absurd heq hhint

end

/-- A function is dispatched as it should be exactly if its number is an index and the stage that
has the last say about the result has a handler for it that makes one. -/
theorem dispatches_iff (lib : Provider.OpenCl Cl) (func : Arg) (hint : GlobalId) :
    Dispatches lib func hint ↔ ∃ d argc, ClFunction.clfuninfo[func.toNat]? = some (d, argc) ∧
      (answersItself d = true ∨
        hint ≠ invalidHandle ∧ (Provider.execFunTable lib d).isSome ∨
        hint = invalidHandle ∧ Agent.countsReferences d = true) := by
  constructor
  · intro h
    by_contra hnone
    -- Then nothing but 0 comes of a request whose arguments are 0.
    have hpost : ∀ d argc, ClFunction.ofArg func = some (d, argc) → answersItself d = false := by
      intro d argc hd
      rw [Bool.eq_false_iff]
      intro hmakes
      obtain ⟨pfn, ptrargs, hf, -⟩ := (@makes_post_iff literalLzo 0 d).mpr hmakes
      obtain ⟨⟨argc', hindex⟩, -⟩ := (h.post literalLzo 0 d).mp (invokes_iff.mpr ⟨⟨argc, hd⟩, by
        rw [hf]
        rfl⟩)
      exact hnone ⟨d, argc', hindex, .inl hmakes⟩
    have hpre : ∀ d argc, ClFunction.ofArg func = some (d, argc) →
        Agent.countsReferences d = false := by
      intro d argc hd
      rw [Bool.eq_false_iff]
      intro hcounts
      by_cases hhint : hint = invalidHandle
      · obtain ⟨pfn, ptrargs, hf, -⟩ := makes_pre_iff.mpr hcounts
        obtain ⟨⟨argc', hindex⟩, -⟩ := (h.pre d).mp (invokes_iff.mpr ⟨⟨argc, hd⟩, by
          rw [hf]
          rfl⟩)
        exact hnone ⟨d, argc', hindex, .inr (.inr ⟨hhint, hcounts⟩)⟩
      · obtain ⟨⟨argc', hindex⟩, hentry⟩ := (h.exec hhint d).mp (serves_iff.mpr ⟨⟨argc, hd⟩,
          exec_of_countsReferences lib hcounts⟩)
        exact hnone ⟨d, argc', hindex, .inr (.inl ⟨hhint, hentry⟩)⟩
    obtain ⟨s', hrun, hsent⟩ := @run_handleExecute_idle ⟨hint, func, fun _ => 0, 0⟩ literalLzo 0
      (fun _ => rfl) fun d argc hd => ⟨hpre d argc hd, hpost d argc hd⟩
    obtain ⟨s₁, x, hx⟩ := h.response _ _ _ _ _ _ _ _ rfl rfl hrun hsent
    obtain ⟨-, howner⟩ := Agent.run_executeOwner_done x.run_owner
    cases hx with
    | post hleft =>
      obtain ⟨d, argc, pfn, ptrargs, _, _, _, _, hindex, hf, hpfn, -⟩ := hleft
      exact hnone ⟨d, argc, hindex, .inl (makes_post_iff.mp ⟨pfn, ptrargs, hf, hpfn⟩)⟩
    | @exec d hd hsome _ _ =>
      obtain ⟨⟨argc, hindex⟩, hentry⟩ := hd
      obtain ⟨-, hnil⟩ | ⟨hhint, -⟩ := howner
      · rw [hnil] at hsome
        cases hsome
      · exact hnone ⟨d, argc, hindex, .inr (.inl ⟨hhint, hentry⟩)⟩
    | pre hnil hleft =>
      obtain ⟨d, argc, pfn, ptrargs, _, _, _, _, hindex, hf, hpfn, -⟩ := hleft
      obtain ⟨hhint, -⟩ | ⟨-, a, o, -, -, hsome⟩ := howner
      · exact hnone ⟨d, argc, hindex, .inr (.inr ⟨hhint,
          makes_pre_iff.mp ⟨pfn, ptrargs, hf, hpfn⟩⟩)⟩
      · rw [hnil] at hsome
        cases hsome
  · rintro ⟨d, argc, hindex, hd⟩
    have hsame : ∀ d', (∃ argc, ClFunction.ofArg func = some (d', argc)) ↔
        ∃ argc, ClFunction.clfuninfo[func.toNat]? = some (d', argc) := by
      intro d'
      rw [ofArg_of_index hindex, hindex]
    refine ⟨fun d' => ?_, fun lzo fuel d' => ?_, fun _ d' => ?_, ?_⟩
    · rw [invokes_iff, hsame, IsEntry]
    · rw [invokes_iff, hsame, IsEntry]
    · rw [serves_iff, hsame, IsEntry]
    · rintro lzo fuel t c params s s' v rfl rfl hrun hsent
      obtain ⟨s₁, ⟨x⟩⟩ := exists_course hrun hsent
      exact ⟨s₁, x, x.produced hindex hd⟩

/-- The number of `clFlush`, with a bit above those of an `int`. -/
def wideFlush : Arg := 2 ^ 32 + 63

/-- The handler of `clFlush` is invoked for another number. -/
theorem not_dispatches_wideFlush : ¬ Dispatches Provider.silentCl wideFlush invalidHandle := by
  intro h
  have hflush : (∃ argc, ClFunction.ofArg wideFlush = some (.flush, argc)) ∧
      (Agent.preExecFunTable .flush).isSome := ⟨⟨1, by decide⟩, rfl⟩
  obtain ⟨⟨argc, hindex⟩, -⟩ := (h.pre .flush).mp (invokes_iff.mpr hflush)
  have hnone : ClFunction.clfuninfo[wideFlush.toNat]? = none := by decide
  rw [hnone] at hindex
  cases hindex

end Clara.Joint
