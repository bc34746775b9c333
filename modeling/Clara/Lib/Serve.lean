import Clara.Lib.Prog

/-! Two processes at the ends of a channel, seen from one of them: it runs alone until an
operation blocks, then the other is given its turn and the operation is tried again. -/
namespace Conc

variable {Op : Type} {Res : Op → Type} {σ τ φ ψ Tid α β : Type}

namespace Outcome

/-- The outcome as part of a larger system. -/
def map (g : σ → τ) (e : φ → ψ) : Outcome σ φ α → Outcome τ ψ α
  | .done s a => .done (g s) a
  | .fault f => .fault (e f)
  | .blocked => .blocked

@[simp] theorem map_done (g : σ → τ) (e : φ → ψ) (s : σ) (a : α) :
    (done s a : Outcome σ φ α).map g e = .done (g s) a := rfl

@[simp] theorem map_fault (g : σ → τ) (e : φ → ψ) (f : φ) :
    (fault f : Outcome σ φ α).map g e = .fault (e f) := rfl

@[simp] theorem map_blocked (g : σ → τ) (e : φ → ψ) :
    (blocked : Outcome σ φ α).map g e = .blocked := rfl

theorem map_eq_done {o : Outcome σ φ α} {g : σ → τ} {e : φ → ψ} {s' : τ} {a : α}
    (h : o.map g e = .done s' a) : ∃ s, o = .done s a ∧ g s = s' := by
  cases o with
  | done s b =>
    obtain ⟨rfl, rfl⟩ := Outcome.done.inj h
    exact ⟨s, rfl, rfl⟩
  | fault f => cases h
  | blocked => cases h

theorem map_eq_blocked {o : Outcome σ φ α} {g : σ → τ} {e : φ → ψ} (h : o.map g e = .blocked) :
    o = .blocked := by
  cases o with
  | done s a => cases h
  | fault f => cases h
  | blocked => rfl

end Outcome

/-- A part of a larger state that can be replaced. -/
structure Part (σ τ : Type) where
  get : τ → σ
  put : τ → σ → τ
  get_put : ∀ x s, get (put x s) = s
  put_put : ∀ x s s', put (put x s) s' = put x s'
  put_get : ∀ x, put x (get x) = x

def Part.within (v : Part σ τ) (e : φ → ψ) (exec : Tid → (o : Op) → σ → Outcome σ φ (Res o))
    (t : Tid) (o : Op) (x : τ) : Outcome τ ψ (Res o) :=
  (exec t o (v.get x)).map (v.put x) e

theorem Part.run_within (v : Part σ τ) (e : φ → ψ)
    (exec : Tid → (o : Op) → σ → Outcome σ φ (Res o)) (t : Tid) (p : Prog Op Res α) (x : τ) :
    p.run (v.within e exec) t x = (p.run exec t (v.get x)).map (v.put x) e := by
  induction p generalizing x with
  | ret a => simp [Prog.run, v.put_get]
  | op o k ih =>
    rw [Prog.run_op, Prog.run_op, Part.within]
    cases exec t o (v.get x) with
    | done s r =>
      have hput : v.put (v.put x s) = v.put x := funext (v.put_put x s)
      simp [ih, v.get_put, hput]
    | fault f => rfl
    | blocked => rfl

/-- An operation that blocks is tried once more after the other side has been served. -/
def attended (exec : Tid → (o : Op) → σ → Outcome σ φ (Res o)) (serve : σ → Outcome σ φ Unit)
    (t : Tid) (o : Op) (s : σ) : Outcome σ φ (Res o) :=
  match exec t o s with
  | .blocked => (serve s).bind fun s _ => exec t o s
  | r => r

section
variable {exec : Tid → (o : Op) → σ → Outcome σ φ (Res o)} {serve : σ → Outcome σ φ Unit} {t : Tid}

theorem attended_of_blocked {o : Op} {s : σ} (h : exec t o s = .blocked) :
    attended exec serve t o s = (serve s).bind fun s _ => exec t o s := by
  rw [attended, h]

/-- An operation completes at once or after the other side's turn. -/
theorem attended_done {o : Op} {s s' : σ} {r : Res o}
    (h : attended exec serve t o s = .done s' r) :
    exec t o s = .done s' r ∨ ∃ s₁, serve s = .done s₁ () ∧ exec t o s₁ = .done s' r := by
  unfold attended at h
  split at h
  · obtain ⟨s₁, _, hs, h⟩ := Outcome.bind_eq_done h
    exact .inr ⟨s₁, hs, h⟩
  · exact .inl h

theorem attended_of_ne {o : Op} {s : σ} (h : exec t o s ≠ .blocked) :
    attended exec serve t o s = exec t o s := by
  rw [attended]
  cases he : exec t o s with
  | done s a => rfl
  | fault f => rfl
  | blocked => exact absurd he h

/-- A program that never waits runs as if it were alone. -/
theorem run_attended {p : Prog Op Res α} {s : σ} (h : p.run exec t s ≠ .blocked) :
    p.run (attended exec serve) t s = p.run exec t s := by
  induction p generalizing s with
  | ret a => rfl
  | op o k ih =>
    rw [Prog.run_op] at h ⊢
    rw [Prog.run_op]
    cases he : exec t o s with
    | done s' r =>
      rw [he, Outcome.bind_done] at h
      rw [attended_of_ne (by rw [he]; nofun), he, Outcome.bind_done, Outcome.bind_done, ih r h]
    | fault f => rw [attended_of_ne (by rw [he]; nofun), he]; rfl
    | blocked =>
      rw [he] at h
      exact absurd rfl h

end

end Conc
