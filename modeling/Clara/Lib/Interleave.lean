import Mathlib.Logic.Function.Basic
import Clara.Lib.Prog

/-! Threads that interleave their operations on a shared state, and a rule for invariants
of every run. Each thread serves requests: it is idle, or in the middle of a program. The
rule is an Owicki-Gries argument in which what a thread owns at the moment is kept in an
auxiliary table, so that one invariant speaks of the state and of everybody's shares. -/
namespace Conc

variable {Op : Type} {Res : Op → Type} {σ φ Tid Req ρ α β : Type}

structure System (Op : Type) (Res : Op → Type) (σ φ Tid Req : Type) where
  exec : Tid → (o : Op) → σ → Outcome σ φ (Res o)
  /-- The program with which a thread serves a request. -/
  body : Tid → Req → Prog Op Res Unit
  /-- Whether a request can reach an idle thread in this state. -/
  enabled : Tid → Req → σ → Bool

structure Config (Op : Type) (Res : Op → Type) (σ φ Tid : Type) where
  state : σ
  threads : Tid → Prog Op Res Unit
  /-- The fault that ended the run, if one did. -/
  crash : Option φ

inductive Event (Tid Req : Type)
  | start (t : Tid) (q : Req)
  | step (t : Tid)

def Event.tid : Event Tid Req → Tid
  | .start t _ | .step t => t

namespace Config

def idle (s : σ) : Config Op Res σ φ Tid := ⟨s, fun _ => .ret (), none⟩

/-- No thread is in the middle of a request and none has failed. -/
def Quiescent (c : Config Op Res σ φ Tid) : Prop :=
  c.crash = none ∧ ∀ t, c.threads t = .ret ()

/-- A step taken by a thread satisfies `guard` for the operation it performs. -/
def Guarded (guard : Tid → Op → σ → Prop) (c : Config Op Res σ φ Tid) :
    Event Tid Req → Prop
  | .start _ _ => True
  | .step t => match c.threads t with
    | .ret _ => True
    | .op o _ => guard t o c.state

end Config

namespace System
variable [DecidableEq Tid] (S : System Op Res σ φ Tid Req)

/-- The configuration after an event, if it can happen. A fault ends the run. -/
def fire (c : Config Op Res σ φ Tid) : Event Tid Req → Option (Config Op Res σ φ Tid)
  | .start t q =>
    match c.crash, c.threads t with
    | none, .ret _ =>
      if S.enabled t q c.state then
        some { c with threads := Function.update c.threads t (S.body t q) }
      else none
    | _, _ => none
  | .step t =>
    match c.crash, c.threads t with
    | none, .op o k =>
      match S.exec t o c.state with
      | .done s r => some ⟨s, Function.update c.threads t (k r), none⟩
      | .fault f => some { c with crash := some f }
      | .blocked => none
    | _, _ => none

/-- The configurations of the runs from `init` whose steps all satisfy `guard`. -/
inductive Reach (guard : Tid → Op → σ → Prop) (init : Config Op Res σ φ Tid) :
    Config Op Res σ φ Tid → Prop
  | refl : Reach guard init init
  | fire {c c' : Config Op Res σ φ Tid} (e : Event Tid Req) (h : Reach guard init c)
      (hg : c.Guarded guard e) (hf : S.fire c e = some c') : Reach guard init c'

/-- Plays a schedule, giving up at an event that cannot happen or is not admitted. -/
def play (allow : Config Op Res σ φ Tid → Event Tid Req → Bool)
    (c : Config Op Res σ φ Tid) : List (Event Tid Req) → Option (Config Op Res σ φ Tid)
  | [] => some c
  | e :: es => if allow c e then (S.fire c e).bind fun c' => play allow c' es else none

variable {S}

theorem fire_start {c c' : Config Op Res σ φ Tid} {t : Tid} {q : Req}
    (h : S.fire c (.start t q) = some c') :
    c.crash = none ∧ c.threads t = .ret () ∧ S.enabled t q c.state = true ∧
      c' = { c with threads := Function.update c.threads t (S.body t q) } := by
  simp only [fire] at h
  split at h
  · next hc hth =>
    split_ifs at h with hen
    exact ⟨hc, hth, hen, (Option.some.inj h).symm⟩
  · cases h

theorem fire_step {c c' : Config Op Res σ φ Tid} {t : Tid} (h : S.fire c (.step t) = some c') :
    c.crash = none ∧ ∃ o k, c.threads t = .op o k ∧
      ((∃ s r, S.exec t o c.state = .done s r ∧
        c' = ⟨s, Function.update c.threads t (k r), none⟩) ∨
      ∃ f, S.exec t o c.state = .fault f ∧ c' = { c with crash := some f }) := by
  simp only [fire] at h
  split at h
  · next o k hc hth =>
    refine ⟨hc, o, k, hth, ?_⟩
    split at h
    · next s r he => exact .inl ⟨s, r, he, (Option.some.inj h).symm⟩
    · next f he => exact .inr ⟨f, he, (Option.some.inj h).symm⟩
    · cases h
  · cases h

theorem reach_of_play {guard : Tid → Op → σ → Prop} {allow} {init c c' : Config Op Res σ φ Tid}
    (ha : ∀ c e, allow c e = true → c.Guarded guard e) (h : S.Reach guard init c)
    {es : List (Event Tid Req)} (hp : S.play allow c es = some c') : S.Reach guard init c' := by
  induction es generalizing c with
  | nil =>
    obtain rfl := Option.some.inj hp
    exact h
  | cons e es ih =>
    rw [play] at hp
    split_ifs at hp with hae
    obtain ⟨c₁, hf, hp⟩ := Option.bind_eq_some_iff.mp hp
    exact ih (.fire e h (ha c e hae) hf) hp

/-- A run goes on where another ended. -/
theorem Reach.trans {guard : Tid → Op → σ → Prop} {init c c' : Config Op Res σ φ Tid}
    (h : S.Reach guard init c) (h' : S.Reach guard c c') : S.Reach guard init c' := by
  induction h' with
  | refl => exact h
  | fire e _ hg hf ih => exact .fire e ih hg hf

theorem Reach.mono {guard guard' : Tid → Op → σ → Prop} {init c : Config Op Res σ φ Tid}
    (h : S.Reach guard init c) (hg : ∀ t o s, guard t o s → guard' t o s) :
    S.Reach guard' init c := by
  induction h with
  | refl => exact .refl
  | @fire c₁ c₂ e _ hge hf ih =>
    refine .fire e ih ?_ hf
    cases e with
    | start t q => trivial
    | step t =>
      rw [Config.Guarded] at hge ⊢
      split at hge
      · trivial
      · exact hg _ _ _ hge

theorem threads_of_fire {c c' : Config Op Res σ φ Tid} {e : Event Tid Req} {t : Tid}
    (h : S.fire c e = some c') (ht : e.tid ≠ t) : c'.threads t = c.threads t := by
  cases e with
  | start u q =>
    obtain ⟨-, -, -, rfl⟩ := fire_start h
    exact Function.update_of_ne (Ne.symm ht) ..
  | step u =>
    obtain ⟨-, o, k, -, ⟨s, r, -, rfl⟩ | ⟨f, -, rfl⟩⟩ := fire_step h
    · exact Function.update_of_ne (Ne.symm ht) ..
    · rfl

/-- Threads that a schedule does not mention stay where they are. -/
theorem threads_of_play {allow} {c c' : Config Op Res σ φ Tid} {es : List (Event Tid Req)}
    {t : Tid} (h : S.play allow c es = some c') (ht : ∀ e ∈ es, e.tid ≠ t) :
    c'.threads t = c.threads t := by
  induction es generalizing c with
  | nil =>
    obtain rfl := Option.some.inj h
    rfl
  | cons e es ih =>
    rw [play] at h
    split_ifs at h
    obtain ⟨c₁, hf, h⟩ := Option.bind_eq_some_iff.mp h
    rw [ih h fun e he => ht e (List.mem_cons_of_mem _ he),
      threads_of_fire hf (ht e List.mem_cons_self)]

/-- A schedule whose outcome is observed gives a reachable configuration. -/
theorem exists_reach_of_play {guard : Tid → Op → σ → Prop} {allow}
    {init : Config Op Res σ φ Tid} (ha : ∀ c e, allow c e = true → c.Guarded guard e)
    {es : List (Event Tid Req)} {observe : Config Op Res σ φ Tid → β} {b : β}
    (hp : (S.play allow init es).map observe = some b) :
    ∃ c, S.Reach guard init c ∧ observe c = b := by
  obtain ⟨c, hc, rfl⟩ := Option.map_eq_some_iff.mp hp
  exact ⟨c, reach_of_play ha .refl hc, rfl⟩

/-- The same for runs without a guard. -/
theorem exists_of_play {init : Config Op Res σ φ Tid} {es : List (Event Tid Req)}
    {observe : Config Op Res σ φ Tid → β} {b : β}
    (hp : (S.play (fun _ _ => true) init es).map observe = some b) :
    ∃ c, S.Reach (fun _ _ _ => True) init c ∧ observe c = b := by
  refine exists_reach_of_play (fun c e _ => ?_) hp
  cases e with
  | start t q => trivial
  | step t =>
    rw [Config.Guarded]
    split <;> trivial

end System

section
variable {ν : Type} (note : Tid → (o : Op) → σ → Res o → ν → ν)

/-- An operation of which a note is taken when it completes, with the state that it began in. -/
def noted (exec : Tid → (o : Op) → σ → Outcome σ φ (Res o)) (t : Tid) (o : Op) (x : σ × ν) :
    Outcome (σ × ν) φ (Res o) :=
  match exec t o x.1 with
  | .done s r => .done (s, note t o x.1 r x.2) r
  | .fault f => .fault f
  | .blocked => .blocked

theorem noted_done {exec : Tid → (o : Op) → σ → Outcome σ φ (Res o)} {t : Tid} {o : Op}
    {x x' : σ × ν} {r : Res o} (h : noted note exec t o x = .done x' r) :
    exec t o x.1 = .done x'.1 r ∧ x'.2 = note t o x.1 r x.2 := by
  rw [noted] at h
  split at h
  · next s r' he =>
    obtain ⟨rfl, rfl⟩ := Outcome.done.inj h
    exact ⟨he, rfl⟩
  · cases h
  · cases h

/-- The same threads, of whose operations notes are taken: the notes decide nothing. -/
def System.noting (S : System Op Res σ φ Tid Req) : System Op Res (σ × ν) φ Tid Req where
  exec := noted note S.exec
  body := S.body
  enabled t q x := S.enabled t q x.1

def Config.forget (c : Config Op Res (σ × ν) φ Tid) : Config Op Res σ φ Tid :=
  ⟨c.state.1, c.threads, c.crash⟩

variable {note} [DecidableEq Tid] {S : System Op Res σ φ Tid Req}

theorem System.fire_forget {c c' : Config Op Res (σ × ν) φ Tid} {e : Event Tid Req}
    (h : (S.noting note).fire c e = some c') : S.fire c.forget e = some c'.forget := by
  cases e with
  | start t q =>
    obtain ⟨hc, hth, hen, rfl⟩ := fire_start h
    have hen' : S.enabled t q c.state.1 = true := hen
    simp only [fire, Config.forget, hc, hth, hen', if_true]
    rfl
  | step t =>
    obtain ⟨hc, o, k, hth, ⟨x, r, he, rfl⟩ | ⟨f, he, rfl⟩⟩ := fire_step h
    · obtain ⟨he', -⟩ := noted_done note he
      simp only [fire, Config.forget, hc, hth, he']
    · have he' : S.exec t o c.state.1 = .fault f := by
        change noted note S.exec t o c.state = .fault f at he
        rw [noted] at he
        split at he
        · cases he
        · next g hg =>
          obtain rfl := Outcome.fault.inj he
          exact hg
        · cases he
      simp only [fire, Config.forget, hc, hth, he']

theorem System.Reach.forget {guard : Tid → Op → σ → Prop} {init c : Config Op Res (σ × ν) φ Tid}
    (h : (S.noting note).Reach (fun t o x => guard t o x.1) init c) :
    S.Reach guard init.forget c.forget := by
  induction h with
  | refl => exact .refl
  | @fire c c' e _ hg hf ih =>
    refine .fire e ih ?_ (System.fire_forget hf)
    cases e with
    | start t q => trivial
    | step t => exact hg

end

/-- An invariant of the state and of the threads' shares, with the steps it is meant for,
the faults it allows and the share of an idle thread. -/
structure Discipline (Op σ φ Tid ρ : Type) where
  inv : σ → (Tid → ρ) → Prop
  guard : Tid → Op → σ → Prop
  allowed : φ → Prop
  rest : Tid → ρ → Prop

namespace Discipline
variable [DecidableEq Tid] (D : Discipline Op σ φ Tid ρ)
  (exec : Tid → (o : Op) → σ → Outcome σ φ (Res o))

/-- Started with share `r`, the program keeps the invariant at each of its operations,
whatever the others do in between, and returns only what `Q` allows. -/
def Keeps (t : Tid) : Prog Op Res α → ρ → (α → ρ → Prop) → Prop
  | .ret a, r, Q => Q a r
  | .op o k, r, Q => ∀ s own, D.inv s own → own t = r → D.guard t o s →
    match exec t o s with
    | .done s' x => ∃ r', D.inv s' (Function.update own t r') ∧ Keeps t (k x) r' Q
    | .fault f => D.allowed f
    | .blocked => True

variable {D exec} {t : Tid} {r : ρ}

@[simp] theorem keeps_pure {a : α} {Q : α → ρ → Prop} :
    D.Keeps exec t (pure a) r Q ↔ Q a r := Iff.rfl

theorem Keeps.bind {p : Prog Op Res α} {f : α → Prog Op Res β} {Q : β → ρ → Prop}
    (h : D.Keeps exec t p r fun a r' => D.Keeps exec t (f a) r' Q) :
    D.Keeps exec t (p >>= f) r Q := by
  induction p generalizing r with
  | ret a => exact h
  | op o k ih =>
    intro s own hi hr hg
    have := h s own hi hr hg
    change match exec t o s with
      | .done s' x => ∃ r', D.inv s' (Function.update own t r') ∧
          D.Keeps exec t (k x >>= f) r' Q
      | .fault f => D.allowed f
      | .blocked => True
    cases he : exec t o s with
    | done s' x =>
      rw [he] at this
      obtain ⟨r', hi', hk⟩ := this
      exact ⟨r', hi', ih x hk⟩
    | fault e => rwa [he] at this
    | blocked => trivial

theorem Keeps.mono {p : Prog Op Res α} {Q Q' : α → ρ → Prop} (h : D.Keeps exec t p r Q)
    (hq : ∀ a r', Q a r' → Q' a r') : D.Keeps exec t p r Q' := by
  induction p generalizing r with
  | ret a => exact hq a r h
  | op o k ih =>
    intro s own hi hr hg
    have := h s own hi hr hg
    cases he : exec t o s with
    | done s' x =>
      rw [he] at this
      obtain ⟨r', hi', hk⟩ := this
      exact ⟨r', hi', ih x hk⟩
    | fault e => rwa [he] at this
    | blocked => trivial

/-- The first program ends in a known share, from which the second goes on. -/
theorem Keeps.seq {p : Prog Op Res α} {f : α → Prog Op Res β} {Q : α → ρ → Prop}
    {Q' : β → ρ → Prop} (hp : D.Keeps exec t p r Q)
    (hf : ∀ a r', Q a r' → D.Keeps exec t (f a) r' Q') : D.Keeps exec t (p >>= f) r Q' :=
  (hp.mono hf).bind

/-- The first program ends in the share `r₁`. -/
theorem Keeps.step {p : Prog Op Res α} {f : α → Prog Op Res β} {r₁ : ρ} {Q : β → ρ → Prop}
    (hp : D.Keeps exec t p r fun _ r' => r' = r₁) (hf : ∀ a, D.Keeps exec t (f a) r₁ Q) :
    D.Keeps exec t (p >>= f) r Q :=
  hp.seq fun a _ h => h ▸ hf a

/-- The obligation for one operation: its completions and its faults. -/
theorem keeps_perform {o : Op} {Q : Res o → ρ → Prop}
    (hd : ∀ s own s' x, D.inv s own → own t = r → D.guard t o s → exec t o s = .done s' x →
      ∃ r', D.inv s' (Function.update own t r') ∧ Q x r')
    (hf : ∀ s own f, D.inv s own → own t = r → D.guard t o s → exec t o s = .fault f →
      D.allowed f) : D.Keeps exec t (.perform o) r Q := by
  intro s own hi hr hg
  cases he : exec t o s with
  | done s' x => exact hd s own s' x hi hr hg he
  | fault f => exact hf s own f hi hr hg he
  | blocked => trivial

variable (D exec) in
/-- The operation preserves the invariant and leaves every share alone. -/
def Harmless (o : Op) : Prop :=
  ∀ t s own, D.inv s own → D.guard t o s → match exec t o s with
    | .done s' _ => D.inv s' own
    | .fault f => D.allowed f
    | .blocked => True

variable (D exec t) in
/-- The program keeps the invariant and returns with the share it started with. -/
def Steady (p : Prog Op Res α) : Prop := ∀ r, D.Keeps exec t p r fun _ r' => r' = r

variable (D exec t) in
/-- The program keeps the invariant and returns with the share of an idle thread, if it was
started with one. -/
def Rests (p : Prog Op Res α) : Prop :=
  ∀ r, D.rest t r → D.Keeps exec t p r fun _ r' => D.rest t r'

theorem steady_pure (a : α) : D.Steady exec t (pure a) := fun _ => rfl

theorem Steady.bind {p : Prog Op Res α} {f : α → Prog Op Res β} (hp : D.Steady exec t p)
    (hf : ∀ a, D.Steady exec t (f a)) : D.Steady exec t (p >>= f) := fun r =>
  (hp r).seq fun a r' h => by
    subst h
    exact hf a r'

theorem Steady.step {p : Prog Op Res α} {f : α → Prog Op Res β} {Q : β → ρ → Prop}
    (hp : D.Steady exec t p) (hf : ∀ a, D.Keeps exec t (f a) r Q) :
    D.Keeps exec t (p >>= f) r Q :=
  (hp r).step hf

theorem Harmless.steady {o : Op} (h : D.Harmless exec o) : D.Steady exec t (.perform o) := by
  intro r s own hi hr hg
  have := h t s own hi hg
  cases he : exec t o s with
  | done s' x =>
    rw [he] at this
    exact ⟨r, by rwa [← hr, Function.update_eq_self], rfl⟩
  | fault f => rwa [he] at this
  | blocked => trivial

theorem Steady.rests {p : Prog Op Res α} (h : D.Steady exec t p) : D.Rests exec t p :=
  fun r hr => (h r).mono fun _ _ h => h ▸ hr

theorem rests_pure (a : α) : D.Rests exec t (pure a) := fun _ h => h

theorem Rests.bind {p : Prog Op Res α} {f : α → Prog Op Res β} (hp : D.Rests exec t p)
    (hf : ∀ a, D.Rests exec t (f a)) : D.Rests exec t (p >>= f) := fun r hr =>
  (hp r hr).seq fun a r' h => hf a r' h

/-- Every configuration of a guarded run satisfies the invariant, provided each request's
program keeps it from the share of an idle thread to the share of an idle thread. -/
theorem inv_of_reach {S : System Op Res σ φ Tid Req}
    {init c : Config Op Res σ φ Tid} {own : Tid → ρ} (hinv : D.inv init.state own)
    (hidle : init.Quiescent) (hrest : ∀ t, D.rest t (own t))
    (hbody : ∀ s own t q, D.inv s own → D.rest t (own t) → S.enabled t q s = true →
      ∃ r, D.inv s (Function.update own t r) ∧
        D.Keeps S.exec t (S.body t q) r fun _ r' => D.rest t r')
    (h : S.Reach D.guard init c) :
    ∃ own, D.inv c.state own ∧ (∀ f, c.crash = some f → D.allowed f) ∧
      ∀ t, D.Keeps S.exec t (c.threads t) (own t) fun _ r' => D.rest t r' := by
  induction h with
  | refl =>
    refine ⟨own, hinv, fun f hf => ?_, fun t => ?_⟩
    · rw [hidle.1] at hf
      cases hf
    · rw [hidle.2 t]
      exact hrest t
  | @fire c c' e h hg hf ih =>
    obtain ⟨own, hi, hc, hk⟩ := ih
    cases e with
    | start t q =>
      obtain ⟨_, hth, hen, rfl⟩ := System.fire_start hf
      have hr : D.rest t (own t) := by
        have := hk t
        rwa [hth] at this
      obtain ⟨r, hi', hb⟩ := hbody c.state own t q hi hr hen
      refine ⟨_, hi', hc, fun u => ?_⟩
      rcases eq_or_ne u t with rfl | hne
      · simpa using hb
      · simpa [Function.update_of_ne hne] using hk u
    | step t =>
      obtain ⟨_, o, k, hth, hstep⟩ := System.fire_step hf
      have hkt := hk t
      rw [hth] at hkt
      have hop := hkt c.state own hi rfl (by simpa [Config.Guarded, hth] using hg)
      rcases hstep with ⟨s, x, he, rfl⟩ | ⟨f, he, rfl⟩
      · rw [he] at hop
        obtain ⟨r, hi', hk'⟩ := hop
        refine ⟨_, hi', fun f hf => (by cases hf), fun u => ?_⟩
        rcases eq_or_ne u t with rfl | hne
        · simpa using hk'
        · simpa [Function.update_of_ne hne] using hk u
      · rw [he] at hop
        exact ⟨own, hi, fun f' hf' => by obtain rfl := Option.some.inj hf'; exact hop, hk⟩

end Discipline

end Conc
