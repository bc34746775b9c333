import Clara.Agent.Forwarding
import Clara.Agent.Frame

/-! The two phases of `agent_execute` around the call at the provider, for the functions that the
provider serves. -/
namespace Clara.Agent

open Conc

variable {t : Tid} {s : State}

/-- Whether a function only changes the reference count of its first argument. -/
def countsReferences : ClFunction → Bool
  | .retainContext | .releaseContext | .retainCommandQueue | .releaseCommandQueue
  | .retainMemObject | .releaseMemObject | .retainProgram | .releaseProgram
  | .retainKernel | .releaseKernel | .retainEvent | .releaseEvent => true
  | _ => false

structure OwnedBy (s : State) (c : Addr) (id : GlobalId) (a : Addr) (o : Object) : Prop where
  consumer : (s.heap .consumer c).isSome
  entry : (s.sets .objects).lookup id = some a
  object : s.heap .object a = some o
  id_eq : o.id = id
  owner : o.consumer = some c
  refcnt : 0 < o.refcnt
  lock : s.heap .lock o.lock = some .free
  provider : (s.heap .provider o.provider).isSome
  listed : id ∈ s.sets (.objectsOf c)
  pooled : id ∈ s.sets .idPool
  apart : ∀ p provider, s.heap .provider p = some provider → provider.lock ≠ o.lock

theorem setArg_self {params : ExecuteRequest} {i : ℕ} {arg : Arg} (h : params.argv i = arg) :
    params.setArg i arg = params := by
  rw [ExecuteRequest.setArg, ← h, Function.update_eq_self]

/-- What the first phase has left alone. -/
structure Untouched (s s' : State) : Prop where
  net : s'.net = s.net
  phase : s'.phase = s.phase
  provider : s'.heap .provider = s.heap .provider
  lock : ∀ p provider, s.heap .provider p = some provider →
    s'.heap .lock provider.lock = s.heap .lock provider.lock

/-- An owner's retain succeeds, however many references there are. -/
theorem Serviceable.run_retain (hs : Serviceable s) {c a : Addr} {id : GlobalId} {o : Object}
    (h : OwnedBy s c id a o) :
    ∃ s', run (.consumer c) (clRetainObject c id) s = .done s' true ∧ Untouched s s' := by
  obtain ⟨consumer, hc⟩ := Option.isSome_iff_exists.mp h.consumer
  refine ⟨_, run_clRetainObject_owner hc hs.usable_objects h.entry h.object h.lock h.refcnt h.owner,
    rfl, rfl, State.put_object_heap_provider .., fun p provider _ => ?_⟩
  rw [State.put_object_heap_lock]

/-- So does its release. The last one frees the object and its lock. -/
theorem Serviceable.run_release (hs : Serviceable s) {c a : Addr} {id : GlobalId} {o : Object}
    (h : OwnedBy s c id a o) :
    ∃ s', run (.consumer c) (clReleaseObject c id) s = .done s' true ∧ Untouched s s' := by
  obtain ⟨consumer, hc⟩ := Option.isSome_iff_exists.mp h.consumer
  obtain ⟨p, hp⟩ := Option.isSome_iff_exists.mp h.provider
  obtain rfl := h.id_eq
  by_cases hone : o.refcnt = 1
  · have hrun := run_clReleaseObject_last (t := .consumer c) hc hs.usable_objects h.entry h.object
      h.lock hone h.owner hp (hs.usable_objectsOf h.consumer) h.listed hs.usable_pool h.pooled
    refine ⟨s.withoutObject a c o, hrun, rfl, rfl, State.withoutObject_provider ..,
      fun q provider hq => ?_⟩
    rw [State.withoutObject_lock, if_neg (h.apart q provider hq)]
  · have hne : o.refcnt - 1 ≠ 0 := by
      intro h
      have hback := UInt32.sub_add_cancel o.refcnt 1
      rw [h] at hback
      exact hone hback.symm
    refine ⟨_, run_clReleaseObject_more hc hs.usable_objects h.entry h.object h.lock hne, rfl, rfl,
      State.put_object_heap_provider .., fun q provider _ => ?_⟩
    rw [State.put_object_heap_lock]

/-- The first phase lets the request through as it is. -/
theorem Serviceable.run_pre (hs : Serviceable s) {c : Addr} {params : ExecuteRequest}
    {d : ClFunction} {argc : ℕ} (hd : ClFunction.ofArg params.func = some (d, argc))
    (hinfo : d ≠ .getDeviceInfo) (h0 : params.argv 0 = 0)
    (ho : countsReferences d = true → ∃ a o, OwnedBy s c (params.argv 1) a o)
    (target : Option Addr) :
    ∃ s', run (.consumer c) (claraExecute preExecFunTable (agentIdMap c) params 0 target c) s =
        .done s' (params, 0) ∧ Untouched s s' ∧ (countsReferences d = false → s' = s) := by
  have hsame : Untouched s s := ⟨rfl, rfl, rfl, fun _ _ _ => rfl⟩
  have hself : params.setArg 0 0 = params := setArg_self h0
  have hcounts : ∀ {prog : AProg Bool} {status : Arg} {s' : State},
      run (.consumer c) prog s = .done s' true →
      run (.consumer c) ((prog >>= fun b =>
        pure (params.setArg 0 (if b then clSuccess else status))) >>= fun params =>
          (pure (params, params.argv 0) : AProg (ExecuteRequest × Arg))) s =
        .done s' (params, 0) := by
    intro prog status s' hrun
    rw [run_bind, run_bind, hrun, Outcome.bind_done, if_pos rfl, clSuccess, hself]
    simp [h0]
  have hretain : ∀ type, preExecFunTable d = some (agentGenericRetain type, []) →
      countsReferences d = true → ∃ s', run (.consumer c)
        (claraExecute preExecFunTable (agentIdMap c) params 0 target c) s =
          .done s' (params, 0) ∧ Untouched s s' ∧ (countsReferences d = false → s' = s) := by
    intro type hf hc
    obtain ⟨a, o, howned⟩ := ho hc
    obtain ⟨s', hrun, hu⟩ := hs.run_retain howned
    rw [claraExecute_some _ _ _ _ hd hf, hself]
    exact ⟨s', hcounts hrun, hu, fun h => absurd (hc.symm.trans h) (by decide)⟩
  have hrelease : ∀ type, preExecFunTable d = some (agentGenericRelease type, []) →
      countsReferences d = true → ∃ s', run (.consumer c)
        (claraExecute preExecFunTable (agentIdMap c) params 0 target c) s =
          .done s' (params, 0) ∧ Untouched s s' ∧ (countsReferences d = false → s' = s) := by
    intro type hf hc
    obtain ⟨a, o, howned⟩ := ho hc
    obtain ⟨s', hrun, hu⟩ := hs.run_release howned
    rw [claraExecute_some _ _ _ _ hd hf, hself]
    exact ⟨s', hcounts hrun, hu, fun h => absurd (hc.symm.trans h) (by decide)⟩
  have hnop : preExecFunTable d = some (agentNop, []) → ∃ s', run (.consumer c)
        (claraExecute preExecFunTable (agentIdMap c) params 0 target c) s =
          .done s' (params, 0) ∧ Untouched s s' ∧ (countsReferences d = false → s' = s) := by
    intro hf
    rw [claraExecute_some _ _ _ _ hd hf, hself]
    exact ⟨s, by simp [agentNop, h0], hsame, fun _ => rfl⟩
  have hnone : preExecFunTable d = none → ∃ s', run (.consumer c)
        (claraExecute preExecFunTable (agentIdMap c) params 0 target c) s =
          .done s' (params, 0) ∧ Untouched s s' ∧ (countsReferences d = false → s' = s) := by
    intro hf
    rw [claraExecute_none _ _ _ _ hd hf]
    exact ⟨s, rfl, hsame, fun _ => rfl⟩
  cases d <;> first
    | exact hnone rfl
    | exact hnop rfl
    | exact hretain _ rfl rfl
    | exact hrelease _ rfl rfl
    | exact absurd rfl hinfo

def postHandler (lzo : Lzo) (fuel : ℕ) (d : ClFunction) : Handler :=
  match postExecFunTable lzo fuel d with
  | none => agentNop
  | some (pfn, _) => pfn

/-- What a function that the provider serves can have to be done afterwards. -/
inductive PostEntry (lzo : Lzo) (fuel : ℕ) (d : ClFunction) : Prop
  | none (h : postExecFunTable lzo fuel d = none)
  | create (h : postExecFunTable lzo fuel d = some (agentGenericCreate, []))
  | mapEvent (n : ℕ) (h : postExecFunTable lzo fuel d = some (agentGenericMapEvent n, []))

/-- The second phase is its handler, with the provider's result in `argv[0]`. -/
theorem PostEntry.run {lzo : Lzo} {fuel : ℕ} {d : ClFunction} (h : PostEntry lzo fuel d)
    {params : ExecuteRequest} {argc : ℕ} (hd : ClFunction.ofArg params.func = some (d, argc))
    (idMap : GlobalId → AProg Arg) (retval : Arg) (target : Option Addr) (source : Addr) :
    (claraExecute (postExecFunTable lzo fuel) idMap params retval target source >>= fun x =>
      (pure x.2 : AProg Arg)) =
      postHandler lzo fuel d (params.setArg 0 retval) target source >>= fun params =>
        pure (params.argv 0) := by
  rw [postHandler]
  cases h with
  | none h =>
    rw [claraExecute_none _ _ _ _ hd h, h]
    simp [agentNop, ExecuteRequest.setArg]
  | create h =>
    rw [claraExecute_some _ _ _ _ hd h, h, Prog.bind_assoc']
    rfl
  | mapEvent n h =>
    rw [claraExecute_some _ _ _ _ hd h, h, Prog.bind_assoc']
    rfl

/-- What the handlers touch: no connection to a consumer. -/
def Area.creation : List Area := [.look, .lock, .wire, .reserve, .count, .object]

theorem PostEntry.all {lzo : Lzo} {fuel : ℕ} {d : ClFunction} (h : PostEntry lzo fuel d)
    (params : ExecuteRequest) (target : Option Addr) (source : Addr) :
    (postHandler lzo fuel d params target source).All fun o => o.area ∈ Area.creation := by
  have hK := passes_all Area.creation
  have hobject := passes_objectCreate hK (by decide)
  rw [postHandler]
  cases h with
  | none h =>
    rw [h]
    exact Prog.all_pure params
  | create h =>
    rw [h]
    exact hK.bind (passes_clCreateObject hK (by decide) (by decide) (by decide) hobject
      target source _ _) fun _ => hK.pure _
  | mapEvent n h =>
    rw [h]
    exact passes_agentGenericMapEvent hK (by decide) (by decide) (by decide) hobject n params
      target source

end Clara.Agent
