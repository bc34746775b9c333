import Clara.Common.Lock
import Clara.Agent.Run

/-! The locks of the agent's state are taken and released in one step. This is what `lock.c` comes to,
access by access, when a call of `lock_wait` counts from its return and a call of `lock_post` from its
beginning. -/
namespace Clara.Agent

open Conc Locking

/-- A lock of which `lock.c` is the implementation: it shows the thread that holds it, and how many
times. -/
structure Lock.Shows (lk : Lock) (s : Locking.State Tid) : Prop where
  held : ∀ t, s.Holds t → lk = ⟨some t, s.depth t⟩
  free : (∀ t, ¬ s.Holds t) → lk = .free

/-- A thread of the agent takes or releases the lock at `a`. -/
def LockTurn (a : Addr) (s s' : Agent.State) : Prop :=
  ∃ t, run t (lockWait a) s = .done s' () ∨ run t (lockPost a) s = .done s' ()

section
variable {s : Agent.State} {a : Addr} {lk lk' : Lock} {t : Tid}

theorem lockTurn_of_wait (h : s.heap .lock a = some lk) (hw : lk.wait t = some lk') :
    LockTurn a s (s.put .lock a (some lk')) := by
  refine ⟨t, .inl ?_⟩
  rw [lockWait, perform, run, Prog.run_perform, exec, h]
  simp [hw]

theorem lockTurn_of_post (h : s.heap .lock a = some lk) (hp : lk.post t = some lk') :
    LockTurn a s (s.put .lock a (some lk')) := by
  refine ⟨t, .inr ?_⟩
  rw [lockPost, perform, run, Prog.run_perform, exec, h]
  simp [hp]

end

section
variable {s s' : Locking.State Tid} {lk : Lock} {t : Tid} {lock : Fields Tid} {point : Point}

theorem shows_initial : Lock.Shows .free Locking.State.initial where
  held _ ht := absurd ht (lt_irrefl 0)
  free _ := rfl

theorem Lock.Shows.move (h : lk.Shows s) : lk.Shows (s.move t lock point (s.depth t)) := by
  have hdepth : (s.move t lock point (s.depth t)).depth = s.depth := Function.update_eq_self ..
  constructor
  · intro u hu
    rw [Locking.State.Holds, hdepth] at hu
    rw [hdepth]
    exact h.held u hu
  · intro hnone
    apply h.free
    intro u hu
    apply hnone u
    rw [Locking.State.Holds, hdepth]
    exact hu

theorem shows_move {d : ℕ} (hpos : 0 < d) (hothers : ∀ u, u ≠ t → s.depth u = 0) :
    Lock.Shows ⟨some t, d⟩ (s.move t lock point d) := by
  constructor
  · intro u hu
    by_cases hut : u = t
    · subst hut
      rw [Locking.State.move_depth_self]
    · rw [Locking.State.Holds, Locking.State.move_depth_of_ne hut, hothers u hut] at hu
      exact absurd hu (lt_irrefl 0)
  · intro hnone
    have hself := hnone t
    rw [Locking.State.Holds, Locking.State.move_depth_self] at hself
    exact absurd hpos hself

theorem shows_move_zero (hothers : ∀ u, u ≠ t → s.depth u = 0) :
    Lock.Shows .free (s.move t lock point 0) := by
  constructor
  · intro u hu
    by_cases hut : u = t
    · subst hut
      rw [Locking.State.Holds, Locking.State.move_depth_self] at hu
      exact absurd hu (lt_irrefl 0)
    · rw [Locking.State.Holds, Locking.State.move_depth_of_ne hut, hothers u hut] at hu
      exact absurd hu (lt_irrefl 0)
  · intro _
    rfl

/-- With one holder at most, a lock that is shown is the one that the depth says. -/
theorem Lock.Shows.eq (h : lk.Shows s) (hothers : ∀ u, u ≠ t → s.depth u = 0) :
    lk = if s.depth t = 0 then .free else ⟨some t, s.depth t⟩ := by
  by_cases hzero : s.depth t = 0
  · rw [if_pos hzero]
    apply h.free
    intro u hu
    by_cases hut : u = t
    · subst hut
      exact absurd hzero (Nat.ne_of_gt hu)
    · exact absurd (hothers u hut) (Nat.ne_of_gt hu)
  · rw [if_neg hzero]
    exact h.held t (Nat.pos_of_ne_zero hzero)

/-- A thread that has passed the semaphore, or is about to post, is the only one that may hold. -/
theorem others_of_inside (hi : Invariant s) (hin : ¬ Outside (s.depth t) (s.point t)) :
    ∀ u, u ≠ t → s.depth u = 0 := by
  intro u hut
  cases hi with
  | free _ _ _ hout => exact absurd (hout t) hin
  | taken v _ _ hout =>
    by_cases htv : t = v
    · subst htv
      exact (hout u hut).depth_eq_zero
    · exact absurd (hout t htv) hin

theorem Lock.Shows.step (h : lk.Shows s) (hi : Invariant s) (hstep : Step s s') :
    ∃ lk', lk'.Shows s' ∧
      (lk' = lk ∨ ∃ t, lk.wait t = some lk' ∨ lk.post t = some lk') := by
  cases hstep with
  | callWait t hout hdepth => exact ⟨lk, h.move, .inl rfl⟩
  | wait t p hp lock point hrun =>
    cases p with
    | store cnt =>
      have hothers : ∀ u, u ≠ t → s.depth u = 0 := by
        apply others_of_inside hi
        rw [hp]
        exact id
      refine ⟨⟨some t, s.depth t + 1⟩, shows_move (Nat.succ_pos _) hothers, .inr ⟨t, .inl ?_⟩⟩
      rw [h.eq hothers]
      split_ifs with hzero
      · rw [hzero]
        rfl
      · simp [Lock.wait]
    | _ => exact ⟨lk, h.move, .inl rfl⟩
  | callPost t hout hdepth =>
    have hothers : ∀ u, u ≠ t → s.depth u = 0 := by
      apply others_of_inside hi
      rw [hout]
      exact Nat.ne_of_gt hdepth
    have hlk := h.held t hdepth
    by_cases hlast : s.depth t - 1 = 0
    · refine ⟨.free, ?_, .inr ⟨t, .inr ?_⟩⟩
      · rw [hlast]
        exact shows_move_zero hothers
      · simp [hlk, Lock.post, hlast, Lock.free]
    · refine ⟨⟨some t, s.depth t - 1⟩, shows_move (Nat.pos_of_ne_zero hlast) hothers,
        .inr ⟨t, .inr ?_⟩⟩
      simp [hlk, Lock.post, hlast]
  | post t p hp => exact ⟨lk, h.move, .inl rfl⟩

end

end Clara.Agent
