import Mathlib.Tactic.Common

/-! Programs over a signature of atomic operations. A program is a tree: it returns, or
performs one operation and continues with the answer. The same program can be run alone
or interleaved with others (`Clara.Lib.Interleave`). -/
namespace Conc

/-- `Res o` is the type of the answer to the operation `o`. -/
inductive Prog (Op : Type) (Res : Op → Type) (α : Type) : Type
  | ret (a : α)
  | op (o : Op) (k : Res o → Prog Op Res α)

/-- What an operation, or a whole program run alone, comes to. A blocked operation leaves the
state as it is and can be tried again. -/
inductive Outcome (σ φ α : Type) : Type
  | done (s : σ) (a : α)
  | fault (f : φ)
  | blocked

namespace Outcome
variable {σ φ α β : Type}

def bind (o : Outcome σ φ α) (f : σ → α → Outcome σ φ β) : Outcome σ φ β :=
  match o with
  | .done s a => f s a
  | .fault e => .fault e
  | .blocked => .blocked

/-- The outcome is a completion that satisfies `Q`. -/
def Ends (o : Outcome σ φ α) (Q : σ → α → Prop) : Prop :=
  match o with
  | .done s a => Q s a
  | _ => False

def fault? : Outcome σ φ α → Option φ
  | .fault f => some f
  | _ => none

def Aborts : Outcome σ φ α → Prop
  | .fault _ => True
  | _ => False

@[simp] theorem bind_done (s : σ) (a : α) (f : σ → α → Outcome σ φ β) :
    (done s a).bind f = f s a := rfl

@[simp] theorem bind_fault (e : φ) (f : σ → α → Outcome σ φ β) :
    (fault e : Outcome σ φ α).bind f = .fault e := rfl

@[simp] theorem bind_blocked (f : σ → α → Outcome σ φ β) :
    (blocked : Outcome σ φ α).bind f = .blocked := rfl

instance (o : Outcome σ φ α) (Q : σ → α → Prop) [∀ s a, Decidable (Q s a)] :
    Decidable (o.Ends Q) :=
  match o with
  | .done s a => inferInstanceAs (Decidable (Q s a))
  | .fault _ | .blocked => inferInstanceAs (Decidable False)

@[simp] theorem ends_done (s : σ) (a : α) (Q : σ → α → Prop) :
    (done s a : Outcome σ φ α).Ends Q ↔ Q s a := Iff.rfl

@[simp] theorem not_ends_fault (e : φ) (Q : σ → α → Prop) :
    ¬ (fault e : Outcome σ φ α).Ends Q := id

@[simp] theorem not_ends_blocked (Q : σ → α → Prop) :
    ¬ (blocked : Outcome σ φ α).Ends Q := id

theorem ends_iff {o : Outcome σ φ α} {Q : σ → α → Prop} :
    o.Ends Q ↔ ∃ s a, o = .done s a ∧ Q s a := by
  cases o with
  | done s a => simp
  | fault e => simp
  | blocked => simp

@[simp] theorem aborts_fault (e : φ) : (fault e : Outcome σ φ α).Aborts := trivial

@[simp] theorem not_aborts_done (s : σ) (a : α) : ¬ (done s a : Outcome σ φ α).Aborts := id

@[simp] theorem not_aborts_blocked : ¬ (blocked : Outcome σ φ α).Aborts := id

theorem Aborts.bind {o : Outcome σ φ α} (h : o.Aborts) (f : σ → α → Outcome σ φ β) :
    (o.bind f).Aborts := by
  cases o with
  | fault e => trivial
  | done s a => exact h.elim
  | blocked => exact h.elim

theorem bind_eq_done {o : Outcome σ φ α} {f : σ → α → Outcome σ φ β} {s' : σ} {b : β}
    (h : o.bind f = .done s' b) : ∃ s a, o = .done s a ∧ f s a = .done s' b := by
  cases o with
  | done s a => exact ⟨s, a, rfl, h⟩
  | fault e => cases h
  | blocked => cases h

end Outcome

namespace Prog
variable {Op : Type} {Res : Op → Type} {σ φ Tid α β γ : Type}

protected def bind : Prog Op Res α → (α → Prog Op Res β) → Prog Op Res β
  | .ret a, f => f a
  | .op o k, f => .op o fun r => (k r).bind f

instance : Monad (Prog Op Res) where
  pure := .ret
  bind := Prog.bind

def perform (o : Op) : Prog Op Res (Res o) := .op o .ret

@[simp] theorem ret_bind (a : α) (f : α → Prog Op Res β) : (Prog.ret a >>= f) = f a := rfl

@[simp] theorem pure_bind' (a : α) (f : α → Prog Op Res β) :
    ((pure a : Prog Op Res α) >>= f) = f a := rfl

@[simp] theorem op_bind (o : Op) (k : Res o → Prog Op Res α) (f : α → Prog Op Res β) :
    (Prog.op o k >>= f) = .op o fun r => k r >>= f := rfl

@[simp] theorem perform_bind (o : Op) (f : Res o → Prog Op Res β) :
    (perform o >>= f) = .op o f := rfl

theorem bind_assoc' (p : Prog Op Res α) (f : α → Prog Op Res β) (g : β → Prog Op Res γ) :
    (p >>= f) >>= g = p >>= fun a => f a >>= g := by
  induction p with
  | ret a => rfl
  | op o k ih => simp only [op_bind, ih]

/-- Runs a program of thread `t` alone. -/
def run (exec : Tid → (o : Op) → σ → Outcome σ φ (Res o)) (t : Tid) :
    Prog Op Res α → σ → Outcome σ φ α
  | .ret a, s => .done s a
  | .op o k, s => (exec t o s).bind fun s' r => run exec t (k r) s'

section
variable (exec : Tid → (o : Op) → σ → Outcome σ φ (Res o)) (t : Tid)

@[simp] theorem run_ret (a : α) (s : σ) :
    run exec t (.ret a : Prog Op Res α) s = .done s a := rfl

@[simp] theorem run_pure (a : α) (s : σ) :
    run exec t (pure a : Prog Op Res α) s = .done s a := rfl

theorem run_op (o : Op) (k : Res o → Prog Op Res α) (s : σ) :
    run exec t (.op o k) s = (exec t o s).bind fun s' r => run exec t (k r) s' := rfl

@[simp] theorem run_perform (o : Op) (s : σ) : run exec t (perform o) s = exec t o s := by
  rw [perform, run_op]
  cases exec t o s <;> rfl

theorem run_bind (p : Prog Op Res α) (f : α → Prog Op Res β) (s : σ) :
    run exec t (p >>= f) s = (run exec t p s).bind fun s' a => run exec t (f a) s' := by
  induction p generalizing s with
  | ret a => rfl
  | op o k ih =>
    rw [op_bind, run_op, run_op]
    cases exec t o s with
    | done s' r => exact ih r s'
    | fault f => rfl
    | blocked => rfl

end

/-- Every operation of the tree satisfies `P`, whatever the answers. -/
def All (P : Op → Prop) : Prog Op Res α → Prop
  | .ret _ => True
  | .op o k => P o ∧ ∀ r, (k r).All P

section
variable {P : Op → Prop}

@[simp] theorem all_pure (a : α) : (pure a : Prog Op Res α).All P := trivial

@[simp] theorem all_perform {o : Op} : (perform o : Prog Op Res (Res o)).All P ↔ P o :=
  ⟨And.left, fun h => ⟨h, fun _ => trivial⟩⟩

theorem All.bind {p : Prog Op Res α} {f : α → Prog Op Res β} (hp : p.All P)
    (hf : ∀ a, (f a).All P) : (p >>= f).All P := by
  induction p with
  | ret a => exact hf a
  | op o k ih => exact ⟨hp.1, fun r => ih r (hp.2 r)⟩

theorem All.mono {P' : Op → Prop} {p : Prog Op Res α} (hp : p.All P) (h : ∀ o, P o → P' o) :
    p.All P' := by
  induction p with
  | ret a => trivial
  | op o k ih => exact ⟨h o hp.1, fun r => ih r (hp.2 r)⟩

theorem all_of_forall (h : ∀ o, P o) (p : Prog Op Res α) : p.All P := by
  induction p with
  | ret a => trivial
  | op o k ih => exact ⟨h o, ih⟩

/-- What each operation of the tree keeps, a run that completes keeps. -/
theorem All.run_keeps {I : σ → Prop} {exec : Tid → (o : Op) → σ → Outcome σ φ (Res o)} {t : Tid}
    (h : ∀ o s s' r, P o → exec t o s = .done s' r → I s → I s') {p : Prog Op Res α}
    (hp : p.All P) {s s' : σ} {a : α} (hr : p.run exec t s = .done s' a) (hs : I s) : I s' := by
  induction p generalizing s with
  | ret b =>
    obtain ⟨rfl, -⟩ := Outcome.done.inj hr
    exact hs
  | op o k ih =>
    rw [run_op] at hr
    obtain ⟨s₁, r, ho, hk⟩ := Outcome.bind_eq_done hr
    exact ih r (hp.2 r) hk (h o s s₁ r hp.1 ho hs)

end

/-- A fault that no operation of the tree ends with is not what a run ends with. -/
theorem All.run_ne_fault {P : Op → Prop} {exec : Tid → (o : Op) → σ → Outcome σ φ (Res o)}
    {t : Tid} {f : φ} (h : ∀ o s, P o → exec t o s ≠ .fault f) {p : Prog Op Res α}
    (hp : p.All P) (s : σ) : p.run exec t s ≠ .fault f := by
  induction p generalizing s with
  | ret b => exact nofun
  | op o k ih =>
    rw [run_op]
    intro hf
    cases ho : exec t o s with
    | done s₁ r =>
      rw [ho, Outcome.bind_done] at hf
      exact ih r (hp.2 r) s₁ hf
    | fault f' =>
      rw [ho, Outcome.bind_fault] at hf
      exact h o s hp.1 (ho.trans (by rw [Outcome.fault.inj hf]))
    | blocked =>
      rw [ho, Outcome.bind_blocked] at hf
      cases hf

/-- Whatever the answers, the program can only return values that satisfy `P`. -/
def Returns (P : α → Prop) : Prog Op Res α → Prop
  | .ret a => P a
  | .op _ k => ∀ r, (k r).Returns P

theorem Returns.bind {P : β → Prop} (p : Prog Op Res α) {f : α → Prog Op Res β}
    (hf : ∀ a, (f a).Returns P) : (p >>= f).Returns P := by
  induction p with
  | ret a => exact hf a
  | op o k ih => exact fun r => ih r

/-- What the first program can return decides what the second one does. -/
theorem Returns.bind_of {P : α → Prop} {Q : β → Prop} {p : Prog Op Res α}
    {f : α → Prog Op Res β} (hp : p.Returns P) (hf : ∀ a, P a → (f a).Returns Q) :
    (p >>= f).Returns Q := by
  induction p with
  | ret a => exact hf a hp
  | op o k ih => exact fun r => ih r (hp r)

theorem Returns.run {P : α → Prop} {p : Prog Op Res α} (hp : p.Returns P)
    {exec : Tid → (o : Op) → σ → Outcome σ φ (Res o)} {t : Tid} {s s' : σ} {a : α}
    (h : p.run exec t s = .done s' a) : P a := by
  induction p generalizing s with
  | ret b =>
    obtain ⟨-, rfl⟩ := Outcome.done.inj h
    exact hp
  | op o k ih =>
    rw [run_op] at h
    cases he : exec t o s with
    | done s₁ r =>
      rw [he, Outcome.bind_done] at h
      exact ih r (hp r) h
    | fault f => simp [he] at h
    | blocked => simp [he] at h

/-- Every operation that the run gets to perform satisfies `P` in the state that it finds. -/
def Along (exec : Tid → (o : Op) → σ → Outcome σ φ (Res o)) (t : Tid) (P : Op → σ → Prop) :
    Prog Op Res α → σ → Prop
  | .ret _, _ => True
  | .op o k, s => P o s ∧ ∀ s' r, exec t o s = .done s' r → Along exec t P (k r) s'

section
variable {exec : Tid → (o : Op) → σ → Outcome σ φ (Res o)} {t : Tid} {P : Op → σ → Prop}

@[simp] theorem along_pure (a : α) (s : σ) :
    (pure a : Prog Op Res α).Along exec t P s := trivial

@[simp] theorem along_perform {o : Op} {s : σ} :
    (perform o : Prog Op Res (Res o)).Along exec t P s ↔ P o s :=
  ⟨And.left, fun h => ⟨h, fun _ _ _ => trivial⟩⟩

/-- A sequence is two runs, the second from where the first one ends. -/
theorem along_bind {p : Prog Op Res α} {f : α → Prog Op Res β} {s : σ} :
    (p >>= f).Along exec t P s ↔ p.Along exec t P s ∧
      ∀ s' a, p.run exec t s = .done s' a → (f a).Along exec t P s' := by
  induction p generalizing s with
  | ret a =>
    constructor
    · intro h
      refine ⟨trivial, fun s' b hr => ?_⟩
      obtain ⟨rfl, rfl⟩ := Outcome.done.inj hr
      exact h
    · intro h
      exact h.2 s a rfl
  | op o k ih =>
    rw [op_bind]
    constructor
    · rintro ⟨hP, hk⟩
      refine ⟨⟨hP, fun s' r ho => (ih r).mp (hk s' r ho) |>.1⟩, fun s' a hr => ?_⟩
      rw [run_op] at hr
      obtain ⟨s₁, r, ho, hr⟩ := Outcome.bind_eq_done hr
      exact ((ih r).mp (hk s₁ r ho)).2 s' a hr
    · rintro ⟨⟨hP, hk⟩, hf⟩
      refine ⟨hP, fun s' r ho => (ih r).mpr ⟨hk s' r ho, fun s₂ a hr => hf s₂ a ?_⟩⟩
      rw [run_op, ho, Outcome.bind_done, hr]

/-- The second run, when it is known where the first one ends. -/
theorem along_bind_done {p : Prog Op Res α} {f : α → Prog Op Res β} {s s' : σ} {a : α}
    (h : p.run exec t s = .done s' a) :
    (p >>= f).Along exec t P s ↔ p.Along exec t P s ∧ (f a).Along exec t P s' := by
  rw [along_bind]
  refine and_congr_right fun _ => ⟨fun hf => hf s' a h, fun hf s₁ b hr => ?_⟩
  obtain ⟨rfl, rfl⟩ := Outcome.done.inj (h.symm.trans hr)
  exact hf

/-- The run ends in a state that satisfies `Q`, and all that it does satisfies `P`. -/
def Meets (exec : Tid → (o : Op) → σ → Outcome σ φ (Res o)) (t : Tid) (P : Op → σ → Prop)
    (Q : σ → Prop) (p : Prog Op Res α) (s : σ) : Prop :=
  (p.run exec t s).Ends (fun s' _ => Q s') ∧ p.Along exec t P s

theorem meets_bind_done {Q : σ → Prop} {p : Prog Op Res α} {f : α → Prog Op Res β} {s s' : σ}
    {a : α} (h : p.run exec t s = .done s' a) :
    (p >>= f).Meets exec t P Q s ↔ p.Along exec t P s ∧ (f a).Meets exec t P Q s' := by
  rw [Meets, run_bind, h, Outcome.bind_done, along_bind_done h, Meets]
  exact and_left_comm

/-- What comes last is known, from wherever the run before it ends. -/
theorem meets_bind_last {Q Q' : σ → Prop} {p : Prog Op Res α} {f : α → Prog Op Res β} {s : σ}
    (h : ∀ s' a, p.run exec t s = .done s' a → ((f a).Meets exec t P Q s' ↔ Q' s')) :
    (p >>= f).Meets exec t P Q s ↔ p.Meets exec t P Q' s := by
  rw [Meets, Meets, run_bind, along_bind]
  cases hp : p.run exec t s with
  | done s' a =>
    rw [Outcome.bind_done, Outcome.ends_done, ← h s' a hp, Meets]
    constructor
    · rintro ⟨hends, halong, hrest⟩
      exact ⟨⟨hends, hrest s' a rfl⟩, halong⟩
    · rintro ⟨⟨hends, hrest⟩, halong⟩
      refine ⟨hends, halong, fun s₁ b hr => ?_⟩
      obtain ⟨rfl, rfl⟩ := Outcome.done.inj hr
      exact hrest
  | fault f => exact iff_of_false (fun h => h.1) fun h => h.1
  | blocked => exact iff_of_false (fun h => h.1) fun h => h.1

/-- What no operation of the tree violates, no run violates. -/
theorem All.along {Q : Op → Prop} (h : ∀ o s, Q o → P o s) {p : Prog Op Res α} (hp : p.All Q)
    (s : σ) : p.Along exec t P s := by
  induction p generalizing s with
  | ret a => trivial
  | op o k ih => exact ⟨h o s hp.1, fun s' r _ => ih r (hp.2 r) s'⟩

end

/-- A program of a smaller signature, read over a larger one. -/
def lift {Op' : Type} {Res' : Op' → Type} (e : Op → Op') (back : ∀ o, Res' (e o) → Res o) :
    Prog Op Res α → Prog Op' Res' α
  | .ret a => .ret a
  | .op o k => .op (e o) fun r => lift e back (k (back o r))

section
variable {Op' : Type} {Res' : Op' → Type} (e : Op → Op') (back : ∀ o, Res' (e o) → Res o)

@[simp] theorem lift_pure (a : α) : lift e back (pure a : Prog Op Res α) = pure a := rfl

theorem lift_bind (p : Prog Op Res α) (f : α → Prog Op Res β) :
    lift e back (p >>= f) = lift e back p >>= fun a => lift e back (f a) := by
  induction p with
  | ret a => rfl
  | op o k ih => exact congrArg (Prog.op (e o)) (funext fun r => ih (back o r))

end

end Prog

end Conc
