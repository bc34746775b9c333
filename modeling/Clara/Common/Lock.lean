import Mathlib.Algebra.Order.Ring.Nat
import Mathlib.Logic.Function.Basic
import Mathlib.Logic.Relation
import Mathlib.Tactic.Common

/-! `lock.c`, one access to the lock at a time: what any number of threads that wait for a lock and
post it find in its members, whatever the order of their accesses. -/
namespace Clara.Locking

variable {Tid : Type}

/-- `struct _lock`; `sem` is the value of the semaphore, and no thread has the id zero. -/
@[ext]
structure Fields (Tid : Type) where
  sem : ℕ
  owner : Option Tid
  cnt : UInt32

def lockCreate : Fields Tid := ⟨1, none, 0⟩

inductive WaitPoint
  /-- `lock->owner == 0` -/
  | unowned
  /-- `lock->owner != tid` -/
  | foreign
  /-- `sem_wait(lock->sem)` -/
  | sem
  /-- `if (lock->owner == 0)` -/
  | cleared
  /-- `lock->owner = tid` -/
  | own
  /-- `lock->cnt++` reads -/
  | load
  /-- and writes -/
  | store (cnt : UInt32)

inductive PostPoint
  /-- `assert(lock->owner == tid)` -/
  | owned
  /-- `--lock->cnt` reads -/
  | load
  /-- and writes -/
  | store (cnt : UInt32)
  /-- `lock->owner = 0` -/
  | disown
  /-- `sem_post(lock->sem)` -/
  | sem

/-- Where a thread stands: outside of both functions, or before an access. -/
inductive Point
  | out
  | wait (p : WaitPoint)
  | post (p : PostPoint)
  | aborted

/-- The access of thread `tid` in `lock_wait`, and where the thread goes from there; `none` while the
semaphore lets nobody in. -/
def lockWait [DecidableEq Tid] (tid : Tid) (lock : Fields Tid) :
    WaitPoint → Option (Fields Tid × Point)
  | .unowned => some (lock, .wait (if lock.owner = none then .sem else .foreign))
  | .foreign => some (lock, .wait (if lock.owner ≠ some tid then .sem else .load))
  | .sem => if 0 < lock.sem then some ({ lock with sem := lock.sem - 1 }, .wait .cleared) else none
  | .cleared => some (lock, .wait (if lock.owner = none then .own else .load))
  | .own => some ({ lock with owner := some tid }, .wait .load)
  | .load => some (lock, .wait (.store lock.cnt))
  | .store cnt => some ({ lock with cnt := cnt + 1 }, .out)

def lockPost [DecidableEq Tid] (tid : Tid) (lock : Fields Tid) : PostPoint → Fields Tid × Point
  | .owned => (lock, if lock.owner = some tid then .post .load else .aborted)
  | .load => (lock, .post (.store lock.cnt))
  | .store cnt => ({ lock with cnt := cnt - 1 }, if cnt - 1 = 0 then .post .disown else .out)
  | .disown => ({ lock with owner := none }, .post .sem)
  | .sem => ({ lock with sem := lock.sem + 1 }, .out)

/-- A lock with its threads. `depth` is the number of calls of `lock_wait` that have returned and
whose `lock_post` has not begun. -/
structure State (Tid : Type) where
  lock : Fields Tid
  point : Tid → Point
  depth : Tid → ℕ

/-- A lock that was just created. -/
def State.initial : State Tid := ⟨lockCreate, fun _ => .out, fun _ => 0⟩

namespace State
variable (s : State Tid)

/-- The next state, with thread `t` at another point and at another depth. -/
def move [DecidableEq Tid] (t : Tid) (lock : Fields Tid) (point : Point) (depth : ℕ) : State Tid :=
  ⟨lock, Function.update s.point t point, Function.update s.depth t depth⟩

/-- The thread is between the return of its outermost `lock_wait` and the matching `lock_post`. -/
def Holds (t : Tid) : Prop := 0 < s.depth t

end State

/-- A call of `lock_wait` returns with the write to `cnt`. -/
def WaitPoint.returns : WaitPoint → ℕ
  | .store _ => 1
  | _ => 0

/-- Threads call `lock_wait` as long as the depth stays below 2³², and `lock_post` when a `lock_wait`
is there to match; in between they access the lock one after the other, in any order. -/
inductive Step [DecidableEq Tid] (s : State Tid) : State Tid → Prop
  | callWait (t : Tid) (hout : s.point t = .out) (hdepth : s.depth t + 1 < 2 ^ 32) :
    Step s (s.move t s.lock (.wait .unowned) (s.depth t))
  | wait (t : Tid) (p : WaitPoint) (hp : s.point t = .wait p) (lock : Fields Tid) (point : Point)
    (hrun : lockWait t s.lock p = some (lock, point)) :
    Step s (s.move t lock point (s.depth t + p.returns))
  | callPost (t : Tid) (hout : s.point t = .out) (hdepth : 0 < s.depth t) :
    Step s (s.move t s.lock (.post .owned) (s.depth t - 1))
  | post (t : Tid) (p : PostPoint) (hp : s.point t = .post p) :
    Step s (s.move t (lockPost t s.lock p).1 (lockPost t s.lock p).2 (s.depth t))

/-- What can be reached from a new lock. -/
def Reachable [DecidableEq Tid] : State Tid → Prop := Relation.ReflTransGen Step State.initial

/-- The members of the lock while thread `t` has passed the semaphore, at each of its points. -/
def Inside (t : Tid) (lock : Fields Tid) (depth : ℕ) : Point → Prop
  | .out => 0 < depth ∧ lock.owner = some t ∧ lock.cnt.toNat = depth
  | .wait .unowned | .wait .foreign =>
    0 < depth ∧ depth + 1 < 2 ^ 32 ∧ lock.owner = some t ∧ lock.cnt.toNat = depth
  | .wait .sem => False
  | .wait .cleared | .wait .own => depth = 0 ∧ lock.owner = none ∧ lock.cnt = 0
  | .wait .load => depth + 1 < 2 ^ 32 ∧ lock.owner = some t ∧ lock.cnt.toNat = depth
  | .wait (.store cnt) =>
    depth + 1 < 2 ^ 32 ∧ lock.owner = some t ∧ lock.cnt.toNat = depth ∧ cnt = lock.cnt
  | .post .owned | .post .load => lock.owner = some t ∧ lock.cnt.toNat = depth + 1
  | .post (.store cnt) => lock.owner = some t ∧ lock.cnt.toNat = depth + 1 ∧ cnt = lock.cnt
  | .post .disown => depth = 0 ∧ lock.owner = some t ∧ lock.cnt = 0
  | .post .sem => depth = 0 ∧ lock.owner = none ∧ lock.cnt = 0
  | .aborted => False

def Outside (depth : ℕ) : Point → Prop
  | .out | .wait .unowned | .wait .foreign | .wait .sem => depth = 0
  | _ => False

/-- One thread at most has passed the semaphore. -/
inductive Invariant (s : State Tid) : Prop
  | free (hsem : s.lock.sem = 1) (howner : s.lock.owner = none) (hcnt : s.lock.cnt = 0)
    (hout : ∀ u, Outside (s.depth u) (s.point u))
  | taken (t : Tid) (hsem : s.lock.sem = 0) (hin : Inside t s.lock (s.depth t) (s.point t))
    (hout : ∀ u, u ≠ t → Outside (s.depth u) (s.point u))

theorem invariant_initial : Invariant (State.initial : State Tid) :=
  .free rfl rfl rfl fun _ => rfl

section
variable {s s' : State Tid} {t u : Tid} {lock lock' : Fields Tid} {depth : ℕ} {point : Point}

/-- The owner is the thread that has passed the semaphore, if there is one. -/
theorem Inside.owner (h : Inside t lock depth point) : lock.owner = none ∨ lock.owner = some t := by
  cases point with
  | out => exact .inr h.2.1
  | wait p =>
    cases p with
    | unowned => exact .inr h.2.2.1
    | foreign => exact .inr h.2.2.1
    | sem => exact h.elim
    | cleared => exact .inl h.2.1
    | own => exact .inl h.2.1
    | load => exact .inr h.2.1
    | store cnt => exact .inr h.2.1
  | post p =>
    cases p with
    | owned => exact .inr h.1
    | load => exact .inr h.1
    | store cnt => exact .inr h.1
    | disown => exact .inr h.2.1
    | sem => exact .inl h.2.1
  | aborted => exact h.elim

theorem Inside.owner_of_holds (h : Inside t lock depth point) (hd : 0 < depth) :
    lock.owner = some t := by
  cases point with
  | out => exact h.2.1
  | wait p =>
    cases p with
    | unowned => exact h.2.2.1
    | foreign => exact h.2.2.1
    | sem => exact h.elim
    | cleared => exact absurd h.1 (Nat.ne_of_gt hd)
    | own => exact absurd h.1 (Nat.ne_of_gt hd)
    | load => exact h.2.1
    | store cnt => exact h.2.1
  | post p =>
    cases p with
    | owned => exact h.1
    | load => exact h.1
    | store cnt => exact h.1
    | disown => exact h.2.1
    | sem => exact absurd h.1 (Nat.ne_of_gt hd)
  | aborted => exact h.elim

theorem Outside.depth_eq_zero (h : Outside depth point) : depth = 0 := by
  cases point with
  | out => exact h
  | wait p =>
    cases p with
    | unowned => exact h
    | foreign => exact h
    | sem => exact h
    | _ => exact h.elim
  | post p => exact h.elim
  | aborted => exact h.elim

theorem toNat_add_one {cnt : UInt32} (h : cnt.toNat + 1 < 2 ^ 32) :
    (cnt + 1).toNat = cnt.toNat + 1 := by
  rw [UInt32.toNat_add, Nat.mod_eq_of_lt (by simpa using h)]
  rfl

theorem toNat_sub_one {cnt : UInt32} {n : ℕ} (h : cnt.toNat = n + 1) :
    (cnt - 1).toNat = n := by
  have hle : (1 : UInt32) ≤ cnt := by
    rw [UInt32.le_iff_toNat_le, h]
    exact Nat.le_add_left 1 n
  rw [UInt32.toNat_sub_of_le _ _ hle, h]
  rfl

section
variable [DecidableEq Tid]

theorem State.move_depth_self (d : ℕ) : (s.move t lock point d).depth t = d :=
  Function.update_self ..

theorem State.move_point_self (d : ℕ) : (s.move t lock point d).point t = point :=
  Function.update_self ..

theorem State.move_depth_of_ne (h : u ≠ t) (d : ℕ) :
    (s.move t lock point d).depth u = s.depth u := Function.update_of_ne h ..

theorem State.move_point_of_ne (h : u ≠ t) (d : ℕ) :
    (s.move t lock point d).point u = s.point u := Function.update_of_ne h ..

/-- `lock_wait` of the thread that has passed the semaphore. -/
theorem Inside.wait {p : WaitPoint} (h : Inside t lock depth (.wait p))
    (hrun : lockWait t lock p = some (lock', point)) :
    lock'.sem = lock.sem ∧ Inside t lock' (depth + p.returns) point := by
  cases p with
  | unowned =>
    obtain ⟨hpos, hdepth, howner, hcnt⟩ := h
    have hne : lock.owner ≠ none := by
      rw [howner]
      exact Option.some_ne_none t
    rw [lockWait, if_neg hne] at hrun
    obtain ⟨rfl, rfl⟩ := Prod.mk.inj (Option.some.inj hrun)
    exact ⟨rfl, hpos, hdepth, howner, hcnt⟩
  | foreign =>
    obtain ⟨hpos, hdepth, howner, hcnt⟩ := h
    rw [lockWait, if_neg (not_not.mpr howner)] at hrun
    obtain ⟨rfl, rfl⟩ := Prod.mk.inj (Option.some.inj hrun)
    exact ⟨rfl, hdepth, howner, hcnt⟩
  | sem => exact h.elim
  | cleared =>
    rw [lockWait, if_pos h.2.1] at hrun
    obtain ⟨rfl, rfl⟩ := Prod.mk.inj (Option.some.inj hrun)
    exact ⟨rfl, h⟩
  | own =>
    obtain ⟨rfl, howner, hcnt⟩ := h
    obtain ⟨rfl, rfl⟩ := Prod.mk.inj (Option.some.inj hrun)
    refine ⟨rfl, by decide, rfl, ?_⟩
    rw [hcnt]
    rfl
  | load =>
    obtain ⟨hdepth, howner, hcnt⟩ := h
    obtain ⟨rfl, rfl⟩ := Prod.mk.inj (Option.some.inj hrun)
    exact ⟨rfl, hdepth, howner, hcnt, rfl⟩
  | store cnt =>
    obtain ⟨hdepth, howner, hcnt, rfl⟩ := h
    obtain ⟨rfl, rfl⟩ := Prod.mk.inj (Option.some.inj hrun)
    refine ⟨rfl, Nat.succ_pos depth, howner, ?_⟩
    rw [toNat_add_one (by omega), hcnt]
    rfl

/-- `lock_post` of the thread that has passed the semaphore: it goes on, or gives the lock back. -/
theorem Inside.post {p : PostPoint} (h : Inside t lock depth (.post p)) :
    ((lockPost t lock p).1.sem = lock.sem ∧
      Inside t (lockPost t lock p).1 depth (lockPost t lock p).2) ∨
    ((lockPost t lock p).1.sem = lock.sem + 1 ∧ (lockPost t lock p).1.owner = none ∧
      (lockPost t lock p).1.cnt = 0 ∧ Outside depth (lockPost t lock p).2) := by
  cases p with
  | owned =>
    left
    rw [lockPost, if_pos h.1]
    exact ⟨rfl, h⟩
  | load => exact .inl ⟨rfl, h.1, h.2, rfl⟩
  | store cnt =>
    obtain ⟨howner, hcnt, rfl⟩ := h
    have hless := toNat_sub_one hcnt
    left
    rw [lockPost]
    refine ⟨rfl, ?_⟩
    by_cases hzero : lock.cnt - 1 = 0
    · rw [if_pos hzero]
      refine ⟨?_, howner, hzero⟩
      rw [← hless, hzero]
      rfl
    · rw [if_neg hzero]
      refine ⟨?_, howner, hless⟩
      rw [← hless]
      exact Nat.pos_of_ne_zero fun h0 => hzero (UInt32.toNat_inj.mp h0)
  | disown => exact .inl ⟨rfl, h.1, rfl, h.2.2⟩
  | sem => exact .inr ⟨rfl, h.2.1, h.2.2, h.1⟩

/-- A thread that has not passed the semaphore leaves the members alone until it does. -/
theorem Outside.wait {p : WaitPoint} (h : Outside depth (.wait p)) (hne : lock.owner ≠ some t)
    (hrun : lockWait t lock p = some (lock', point)) :
    (lock' = lock ∧ Outside (depth + p.returns) point) ∨
      (0 < lock.sem ∧ lock' = { lock with sem := lock.sem - 1 } ∧ depth + p.returns = 0 ∧
        point = .wait .cleared) := by
  cases p with
  | unowned =>
    obtain ⟨rfl, rfl⟩ := Prod.mk.inj (Option.some.inj hrun)
    left
    refine ⟨rfl, ?_⟩
    split_ifs
    · exact h
    · exact h
  | foreign =>
    rw [lockWait, if_pos hne] at hrun
    obtain ⟨rfl, rfl⟩ := Prod.mk.inj (Option.some.inj hrun)
    exact .inl ⟨rfl, h⟩
  | sem =>
    rw [lockWait] at hrun
    split_ifs at hrun with hsem
    obtain ⟨rfl, rfl⟩ := Prod.mk.inj (Option.some.inj hrun)
    exact .inr ⟨hsem, rfl, h, rfl⟩
  | _ => exact h.elim

/-- The thread moves inside, and the others stay where they are. -/
theorem Invariant.move_inside (hsem : lock.sem = 0) (hin : Inside t lock depth point)
    (hout : ∀ u, u ≠ t → Outside (s.depth u) (s.point u)) :
    Invariant (s.move t lock point depth) := by
  apply Invariant.taken t hsem
  · rw [State.move_depth_self, State.move_point_self]
    exact hin
  · intro u hu
    rw [State.move_depth_of_ne hu, State.move_point_of_ne hu]
    exact hout u hu

theorem outside_move (hself : Outside depth point)
    (hout : ∀ u, u ≠ t → Outside (s.depth u) (s.point u)) (u : Tid) :
    Outside ((s.move t lock point depth).depth u) ((s.move t lock point depth).point u) := by
  by_cases hu : u = t
  · subst hu
    rw [State.move_depth_self, State.move_point_self]
    exact hself
  · rw [State.move_depth_of_ne hu, State.move_point_of_ne hu]
    exact hout u hu

/-- A thread moves outside while another one has passed the semaphore. -/
theorem Invariant.move_outside (hsem : s.lock.sem = 0) (hne : t ≠ u)
    (hin : Inside u s.lock (s.depth u) (s.point u))
    (hout : ∀ v, v ≠ u → Outside (s.depth v) (s.point v)) (hself : Outside depth point) :
    Invariant (s.move t s.lock point depth) := by
  refine .taken u hsem ?_ ?_
  · rw [State.move_depth_of_ne hne.symm, State.move_point_of_ne hne.symm]
    exact hin
  · intro v hv
    by_cases hvt : v = t
    · subst hvt
      rw [State.move_depth_self, State.move_point_self]
      exact hself
    · rw [State.move_depth_of_ne hvt, State.move_point_of_ne hvt]
      exact hout v hv

theorem Step.invariant (h : Step s s') (hi : Invariant s) : Invariant s' := by
  cases h with
  | callWait t hout hdepth =>
    cases hi with
    | free hsem howner hcnt hall =>
      have hself : Outside (s.depth t) (.wait .unowned) := (hall t).depth_eq_zero
      exact .free hsem howner hcnt (outside_move hself fun u _ => hall u)
    | taken u hsem hin hall =>
      by_cases htu : t = u
      · subst htu
        rw [hout] at hin
        exact .move_inside hsem ⟨hin.1, hdepth, hin.2⟩ hall
      · have hself : Outside (s.depth t) (.wait .unowned) := (hall t htu).depth_eq_zero
        exact .move_outside hsem htu hin hall hself
  | wait t p hp lock point hrun =>
    cases hi with
    | free hsem howner hcnt hall =>
      have houtside := hall t
      rw [hp] at houtside
      have hne : s.lock.owner ≠ some t := by
        rw [howner]
        exact nofun
      rcases houtside.wait hne hrun with ⟨rfl, hself⟩ | ⟨-, rfl, hdepth, rfl⟩
      · exact .free hsem howner hcnt (outside_move hself fun u _ => hall u)
      · have hzero : s.lock.sem - 1 = 0 := by omega
        exact .move_inside hzero ⟨hdepth, howner, hcnt⟩ fun u _ => hall u
    | taken u hsem hin hall =>
      by_cases htu : t = u
      · subst htu
        rw [hp] at hin
        obtain ⟨hsame, hin'⟩ := hin.wait hrun
        exact .move_inside (hsame.trans hsem) hin' hall
      · have houtside := hall t htu
        rw [hp] at houtside
        have hne : s.lock.owner ≠ some t := by
          rcases hin.owner with hnone | hsome
          · rw [hnone]
            exact nofun
          · rw [hsome]
            exact fun heq => htu (Option.some.inj heq).symm
        rcases houtside.wait hne hrun with ⟨rfl, hself⟩ | ⟨hpos, -⟩
        · exact .move_outside hsem htu hin hall hself
        · omega
  | callPost t hout hdepth =>
    cases hi with
    | free hsem howner hcnt hall =>
      have hzero := (hall t).depth_eq_zero
      omega
    | taken u hsem hin hall =>
      by_cases htu : t = u
      · subst htu
        rw [hout] at hin
        have hcnt : s.lock.cnt.toNat = s.depth t - 1 + 1 := by
          rw [hin.2.2]
          omega
        exact .move_inside hsem ⟨hin.2.1, hcnt⟩ hall
      · have hzero := (hall t htu).depth_eq_zero
        omega
  | post t p hp =>
    cases hi with
    | free hsem howner hcnt hall =>
      have houtside := hall t
      rw [hp] at houtside
      exact houtside.elim
    | taken u hsem hin hall =>
      by_cases htu : t = u
      · subst htu
        rw [hp] at hin
        rcases hin.post with ⟨hsame, hin'⟩ | ⟨hup, howner, hcnt, hself⟩
        · exact .move_inside (hsame.trans hsem) hin' hall
        · have hone : (lockPost t s.lock p).1.sem = 1 := by
            rw [hup, hsem]
          exact .free hone howner hcnt (outside_move hself hall)
      · have houtside := hall t htu
        rw [hp] at houtside
        exact houtside.elim

/-- Whatever the threads do, and in whatever order. -/
theorem Reachable.invariant (h : Reachable s) : Invariant s := by
  induction h with
  | refl => exact invariant_initial
  | tail _ hstep ih => exact hstep.invariant ih

end

end

/-- What a lock is for, and how its members show it. -/
structure Excludes (s : State Tid) : Prop where
  exclusive : ∀ t u, s.Holds t → s.Holds u → t = u
  owner : ∀ t, s.Holds t → s.lock.owner = some t
  counted : ∀ t, s.Holds t → s.point t = .out → s.lock.cnt.toNat = s.depth t
  available : 0 < s.lock.sem → s.lock.owner = none ∧ s.lock.cnt = 0
  asserted : ∀ t, s.point t ≠ .aborted

theorem Invariant.holds {s : State Tid} (hi : Invariant s) {t : Tid} (ht : s.Holds t) :
    s.lock.sem = 0 ∧ Inside t s.lock (s.depth t) (s.point t) := by
  cases hi with
  | free hsem howner hcnt hout => exact absurd (hout t).depth_eq_zero (Nat.ne_of_gt ht)
  | taken u hsem hin hout =>
    by_cases htu : t = u
    · subst htu
      exact ⟨hsem, hin⟩
    · exact absurd (hout t htu).depth_eq_zero (Nat.ne_of_gt ht)

theorem Outside.ne_aborted {depth : ℕ} {point : Point} (h : Outside depth point) :
    point ≠ .aborted := by
  rintro rfl
  exact h

/-- The lock excludes in every state that any number of threads can reach. -/
theorem excludes_of_reachable [DecidableEq Tid] {s : State Tid} (h : Reachable s) :
    Excludes s := by
  have hi := h.invariant
  constructor
  · intro t u ht hu
    have hownert := (hi.holds ht).2.owner_of_holds ht
    have howneru := (hi.holds hu).2.owner_of_holds hu
    exact Option.some.inj (hownert.symm.trans howneru)
  · intro t ht
    exact (hi.holds ht).2.owner_of_holds ht
  · intro t ht hout
    have hin := (hi.holds ht).2
    rw [hout] at hin
    exact hin.2.2
  · intro hsem
    cases hi with
    | free _ howner hcnt _ => exact ⟨howner, hcnt⟩
    | taken u hzero _ _ => omega
  · intro t
    cases hi with
    | free _ _ _ hout => exact (hout t).ne_aborted
    | taken u _ hin hout =>
      by_cases htu : t = u
      · subst htu
        intro habort
        rw [habort] at hin
        exact hin
      · exact (hout t htu).ne_aborted

/-- Two threads call `lock_wait`; one of them has come back, and the other one waits. -/
theorem excludes_two : ∃ s : State Bool, s.Holds true ∧ s.point false = .wait .sem ∧
    Excludes s := by
  have h₁ : Reachable (State.initial : State Bool) := .refl
  have h₂ := (h₁.tail (.callWait true rfl (by decide))).tail (.wait true .unowned rfl _ _ rfl)
  have h₃ := (h₂.tail (.wait true .sem rfl _ _ rfl)).tail (.wait true .cleared rfl _ _ rfl)
  have h₄ := (h₃.tail (.callWait false rfl (by decide))).tail (.wait false .unowned rfl _ _ rfl)
  have h₅ := (h₄.tail (.wait true .own rfl _ _ rfl)).tail (.wait true .load rfl _ _ rfl)
  have h₆ := h₅.tail (.wait true (.store 0) rfl _ _ rfl)
  refine ⟨_, ?_, ?_, excludes_of_reachable h₆⟩
  · exact Nat.zero_lt_one
  · rfl

end Clara.Locking
