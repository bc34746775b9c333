import Clara.Agent.Handlers
import Clara.Agent.RefCount

/-! Ownership between consumers: what the handlers of clRetain* and clRelease* do with another
consumer's object. -/
namespace Clara.Agent

open Conc

variable {t : Tid} {s s' : State} {c : Addr} {id : GlobalId} {a : Addr}

private theorem answers_true {p : AProg Bool} {b : Bool} (hp : p.Returns fun b => b = true)
    (h : run t p s = .done s' b) : b = true := hp.run h

theorem clRetainObject_found (hid : (s.sets .objects).lookup id = some a) {b : Bool}
    (h : run t (clRetainObject c id) s = .done s' b) : b = true := by
  obtain ⟨s₁, v, hc, h₁⟩ := run_bind_done h
  obtain ⟨rfl, -⟩ := run_read_done hc
  obtain ⟨s₂, d, hf, h₂⟩ := run_bind_done h₁
  obtain ⟨rfl, rfl⟩ := run_setFind_done hf
  rw [hid] at h₂
  refine answers_true ?_ h₂
  exact .bind _ fun _ => .bind _ fun _ => rfl

theorem clReleaseObject_found (hid : (s.sets .objects).lookup id = some a) {b : Bool}
    (h : run t (clReleaseObject c id) s = .done s' b) : b = true := by
  obtain ⟨s₁, v, hc, h₁⟩ := run_bind_done h
  obtain ⟨rfl, -⟩ := run_read_done hc
  obtain ⟨s₂, d, hf, h₂⟩ := run_bind_done h₁
  obtain ⟨rfl, rfl⟩ := run_setFind_done hf
  rw [hid] at h₂
  refine answers_true ?_ h₂
  refine .bind _ fun o => .bind _ fun _ => .bind _ fun _ => .bind _ fun o' => ?_
  split_ifs
  · exact .bind _ fun _ => .bind _ fun _ => .bind _ fun _ => .bind _ fun _ =>
      .bind _ fun _ => rfl
  · exact .bind _ fun _ => rfl

theorem invalidObjectStatus_ne (type : ObjectType) : invalidObjectStatus type ≠ clSuccess := by
  cases type <;> decide

/-- A handler that turns the answer `true` into `CL_SUCCESS` reports no other status when the
answer cannot be `false`. -/
private theorem status_of_answer {p : AProg Bool} {params params' : ExecuteRequest} {status : Arg}
    (hp : ∀ s' b, run t p s = .done s' b → b = true)
    (h : run t (p >>= fun b => pure (params.setArg 0 (if b then clSuccess else status))) s =
      .done s' params') : params'.argv 0 = clSuccess := by
  obtain ⟨s₁, b, hr, h₁⟩ := run_bind_done h
  rw [hp s₁ b hr] at h₁
  obtain ⟨-, rfl⟩ := Outcome.done.inj h₁
  simp [ExecuteRequest.setArg]

/-- The handler refuses consumer `b`: it answers with the status for an invalid object and
leaves the object at `a`, both consumers' sets, the agent's objects and the pool alone. -/
def Refuses (handler : Handler) (type : ObjectType) (s : State) (owner b a : Addr)
    (params : ExecuteRequest) (target : Option Addr) : Prop :=
  ∃ s' params', run (.consumer b) (handler params target b) s = .done s' params' ∧
    params'.argv 0 = invalidObjectStatus type ∧
    s'.heap .object a = s.heap .object a ∧
    s'.sets (.objectsOf owner) = s.sets (.objectsOf owner) ∧
    s'.sets (.objectsOf b) = s.sets (.objectsOf b) ∧
    s'.sets .objects = s.sets .objects ∧ s'.sets .idPool = s.sets .idPool

/-- Neither handler refuses anybody, in any state: once the id names an object the one can only
succeed or abort the agent, and the other does not look at who calls. -/
theorem not_refuses (hid : (s.sets .objects).lookup id = some a) (type : ObjectType)
    (owner b : Addr) (params : ExecuteRequest) (target : Option Addr) (hp : params.argv 1 = id) :
    ¬ Refuses (agentGenericRetain type) type s owner b a params target ∧
      ¬ Refuses (agentGenericRelease type) type s owner b a params target := by
  subst hp
  constructor
  · rintro ⟨s', params', hrun, hst, -⟩
    refine invalidObjectStatus_ne type (hst.symm.trans ?_)
    exact status_of_answer (fun _ _ h => clRetainObject_found hid h) hrun
  · rintro ⟨s', params', hrun, hst, -⟩
    refine invalidObjectStatus_ne type (hst.symm.trans ?_)
    exact status_of_answer (fun _ _ h => clReleaseObject_found hid h) hrun

/-- After consumer 3 has created an object, consumer 4 is not refused. -/
theorem not_refuses_small :
    ((ObjectCall.create 1 3 7 invalidId).run (.small fun _ => ⟨5, by decide⟩)).Ends fun s _ =>
      ¬ Refuses (agentGenericRetain .context) .context s 3 4 9 ⟨5, 6, fun _ => 5, 1⟩ none ∧
      ¬ Refuses (agentGenericRelease .context) .context s 3 4 9 ⟨5, 6, fun _ => 5, 1⟩ none := by
  have hrun : ((ObjectCall.create 1 3 7 invalidId).run (.small fun _ => ⟨5, by decide⟩)).Ends
      fun s _ => (s.sets .objects).lookup 5 = some 9 := by decide
  obtain ⟨s, ans, hs, hid⟩ := Outcome.ends_iff.mp hrun
  exact Outcome.ends_iff.mpr ⟨s, ans, hs, not_refuses hid .context 3 4 _ none rfl⟩

/-- After consumer 3 has created an object, consumer 4 retains it: the agent aborts. Or it
releases it: the handler reports success and the object is gone. -/
theorem not_refuses_second_consumer :
    ((ObjectCall.create 1 3 7 invalidId).run (.small fun _ => ⟨5, by decide⟩)).Ends fun s _ =>
      (s.sets .objects).lookup 5 = some 9 ∧
      (s.heap .object 9).map Object.consumer = some (some 3) ∧
      (s.heap .object 9).map Object.refcnt = some 1 ∧
      (run (.consumer 4) (agentGenericRetain .context ⟨5, 6, fun _ => 5, 1⟩ none 4) s).fault? =
        some (.assertion .clRetainObjectRetain) ∧
      (run (.consumer 4) (agentGenericRelease .context ⟨5, 7, fun _ => 5, 1⟩ none 4) s).Ends
        fun s' params => params.argv 0 = clSuccess ∧ (s'.sets .objects).lookup 5 = none ∧
          5 ∉ s'.sets (.objectsOf 3) ∧ 5 ∉ s'.sets .idPool := by
  decide

end Clara.Agent
