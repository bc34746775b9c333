import Clara.Agent.Object

/-! Running the agent's programs alone: the effect of each operation as an equation, and the
order in which writes to different places are brought, locks innermost and sets outermost. -/
namespace Clara.Agent

open Conc

namespace State
variable (s : State) {k k' : Kind} {r r' : SetRef}

@[simp] theorem put_put (a : Addr) (v w : Option k.Rec) :
    (s.put k a v).put k a w = s.put k a w := by
  simp [put]

theorem put_heap (a : Addr) (v : Option k.Rec) :
    (s.put k a v).heap k = Function.update (s.heap k) a v := by
  simp [put]

theorem put_comm (h : k ≠ k') (a b : Addr) (v : Option k.Rec) (w : Option k'.Rec) :
    (s.put k a v).put k' b w = (s.put k' b w).put k a v := by
  simp only [put, Function.update_of_ne h, Function.update_of_ne h.symm]
  rw [Function.update_comm h]

theorem put_comm_of_ne {a b : Addr} (h : a ≠ b) (v w : Option k.Rec) :
    (s.put k a v).put k b w = (s.put k b w).put k a v := by
  simp only [put, Function.update_self, Function.update_idem]
  rw [Function.update_comm h]

@[simp] theorem put_self {s : State} {a : Addr} {v : Option k.Rec} (h : s.heap k a = v) :
    s.put k a v = s := by
  rw [put, ← h, Function.update_eq_self, Function.update_eq_self]

@[simp] theorem put_object_lock (a b : Addr) (v : Option Object) (w : Option Lock) :
    (s.put .object a v).put .lock b w = (s.put .lock b w).put .object a v :=
  @put_comm s .object .lock (by decide) a b v w

@[simp] theorem putSet_put (v : IdSet r.Key Addr) (a : Addr) (w : Option k.Rec) :
    (s.putSet r v).put k a w = (s.put k a w).putSet r v := rfl

/-- The network is in state `n`. -/
def withNet (s : State) (n : Net Sd) : State := { s with net := n }

section
variable (n m : Net Sd)

@[simp] theorem withNet_put (a : Addr) (v : Option k.Rec) :
    (s.withNet n).put k a v = (s.put k a v).withNet n := rfl

@[simp] theorem withNet_withNet : (s.withNet n).withNet m = s.withNet m := rfl

@[simp] theorem withNet_net : (s.withNet n).net = n := rfl

@[simp] theorem withNet_heap : (s.withNet n).heap = s.heap := rfl

@[simp] theorem withNet_sets : (s.withNet n).sets = s.sets := rfl

@[simp] theorem withNet_setLock : (s.withNet n).setLock = s.setLock := rfl

end

@[simp] theorem put_object_heap_lock (a : Addr) (v : Option Object) :
    (s.put .object a v).heap .lock = s.heap .lock :=
  @put_heap_kind s .object .lock a v (by decide)

@[simp] theorem put_lock_heap_object (a : Addr) (v : Option Lock) :
    (s.put .lock a v).heap .object = s.heap .object :=
  @put_heap_kind s .lock .object a v (by decide)

@[simp] theorem put_lock_heap_provider (a : Addr) (v : Option Lock) :
    (s.put .lock a v).heap .provider = s.heap .provider :=
  @put_heap_kind s .lock .provider a v (by decide)

@[simp] theorem put_object_heap_provider (a : Addr) (v : Option Object) :
    (s.put .object a v).heap .provider = s.heap .provider :=
  @put_heap_kind s .object .provider a v (by decide)

@[simp] theorem put_lock_heap_consumer (a : Addr) (v : Option Lock) :
    (s.put .lock a v).heap .consumer = s.heap .consumer :=
  @put_heap_kind s .lock .consumer a v (by decide)

@[simp] theorem put_object_heap_consumer (a : Addr) (v : Option Object) :
    (s.put .object a v).heap .consumer = s.heap .consumer :=
  @put_heap_kind s .object .consumer a v (by decide)

end State

namespace Lock
variable {t : Tid} {lk lk' : Lock}

/-- A lock as `lock_create` makes it and as `lock_wait` and `lock_post` leave it. -/
def Sound (lk : Lock) : Prop := lk.owner = none ↔ lk.cnt = 0

theorem sound_free : free.Sound := iff_of_true rfl rfl

theorem wait_sound (h : lk.wait t = some lk') : lk'.Sound := by
  obtain ⟨owner, cnt⟩ := lk
  cases owner with
  | none =>
    obtain rfl := Option.some.inj h
    exact iff_of_false nofun (Nat.succ_ne_zero _)
  | some u =>
    simp only [wait] at h
    split_ifs at h
    obtain rfl := Option.some.inj h
    exact iff_of_false nofun (Nat.succ_ne_zero _)

theorem post_wait (hs : lk.Sound) (h : lk.wait t = some lk') : lk'.post t = some lk := by
  obtain ⟨owner, cnt⟩ := lk
  cases owner with
  | none =>
    obtain rfl : cnt = 0 := hs.mp rfl
    obtain rfl := Option.some.inj h
    simp [post]
  | some u =>
    have hcnt : cnt ≠ 0 := fun h0 => nomatch hs.mpr h0
    simp only [wait] at h
    split_ifs at h with hu
    obtain rfl := Option.some.inj h
    subst hu
    simp [post, hcnt]

theorem wait_ne (h : lk.wait t = some lk') : lk' ≠ lk := by
  have hcnt : lk'.cnt = lk.cnt + 1 := by
    obtain ⟨owner, cnt⟩ := lk
    cases owner with
    | none =>
      obtain rfl := Option.some.inj h
      rfl
    | some u =>
      simp only [wait] at h
      split_ifs at h
      obtain rfl := Option.some.inj h
      rfl
  rintro rfl
  omega

theorem wait_wait (h : lk.wait t = some lk') : ∃ lk'', lk'.wait t = some lk'' := by
  obtain ⟨owner, cnt⟩ := lk
  cases owner with
  | none =>
    obtain rfl := Option.some.inj h
    exact ⟨_, if_pos rfl⟩
  | some u =>
    simp only [wait] at h
    split_ifs at h
    obtain rfl := Option.some.inj h
    exact ⟨_, if_pos rfl⟩

theorem exists_wait_of_admits (h : lk.admits t = true) : ∃ lk', lk.wait t = some lk' := by
  obtain ⟨owner, cnt⟩ := lk
  cases owner with
  | none => exact ⟨_, rfl⟩
  | some u =>
    have hu : u = t := by simpa [admits] using h
    exact ⟨_, if_pos hu⟩

end Lock

section
variable {α β : Type} (t : Tid) (s : State)

theorem run_bind (p : AProg α) (f : α → AProg β) :
    run t (p >>= f) s = (run t p s).bind fun s a => run t (f a) s := Prog.run_bind _ _ p f s

/-- A sequence that completes does so in two parts. -/
theorem run_bind_done {p : AProg α} {f : α → AProg β} {t : Tid} {s s' : State} {b : β}
    (h : run t (p >>= f) s = .done s' b) :
    ∃ s₁ a, run t p s = .done s₁ a ∧ run t (f a) s₁ = .done s' b := by
  rw [run_bind] at h
  cases hp : run t p s with
  | done s₁ a => exact ⟨s₁, a, rfl, by rwa [hp] at h⟩
  | fault e => simp [hp] at h
  | blocked => simp [hp] at h

@[simp] theorem run_fail (f : Fault) : run t (fail f : AProg α) s = .fault f := rfl

@[simp] theorem run_assert (b : Bool) (a : Assertion) :
    run t (assert b a) s = if b then .done s () else .fault (.assertion a) := by
  cases b <;> rfl

@[simp] theorem run_deref_none : run t (deref (none : Option α)) s = .fault .nullPointer := rfl

@[simp] theorem run_deref_some (a : α) : run t (deref (some a)) s = .done s a := rfl

theorem run_ite (c : Prop) [Decidable c] (p q : AProg α) :
    run t (if c then p else q) s = if c then run t p s else run t q s := by
  split_ifs <;> rfl

end

section
variable {t : Tid} {s : State} {k : Kind} {a : Addr} {r : SetRef}

-- so that its many equations are there before the lemmas that rewrite with them
attribute [local simp] exec

theorem run_new (v : k.Rec) :
    run t (new k v) s = .done { s.put k s.next (some v) with next := s.next + 1 } s.next := by
  rw [new, perform, run, Prog.run_perform, exec]

theorem run_read {v : k.Rec} (h : s.heap k a = some v) : run t (read k a) s = .done s v := by
  rw [read, perform, run, Prog.run_perform, exec, h]

theorem run_store {v : k.Rec} (h : s.heap k a = some v) (w : k.Store) :
    run t (store k a w) s = .done (s.put k a (some (k.store w v))) () := by
  rw [store, perform, run, Prog.run_perform, exec, h]

theorem run_free {v : k.Rec} (h : s.heap k a = some v) :
    run t (free k a) s = .done (s.put k a none) () := by
  rw [free, perform, run, Prog.run_perform, exec, h]

theorem run_lockWait_free (h : s.heap .lock a = some .free) :
    run t (lockWait a) s = .done (s.put .lock a (some ⟨some t, 1⟩)) () := by
  rw [lockWait, perform, run, Prog.run_perform, exec, h]
  rfl

theorem run_lockWait_own {n : ℕ} (h : s.heap .lock a = some ⟨some t, n⟩) :
    run t (lockWait a) s = .done (s.put .lock a (some ⟨some t, n + 1⟩)) () := by
  rw [lockWait, perform, run, Prog.run_perform, exec, h]
  simp [Lock.wait]

theorem run_lockPost {n : ℕ} (h : s.heap .lock a = some ⟨some t, n + 2⟩) :
    run t (lockPost a) s = .done (s.put .lock a (some ⟨some t, n + 1⟩)) () := by
  rw [lockPost, perform, run, Prog.run_perform, exec, h]
  simp [Lock.post]

theorem run_lockPost_last (h : s.heap .lock a = some ⟨some t, 1⟩) :
    run t (lockPost a) s = .done (s.put .lock a (some .free)) () := by
  rw [lockPost, perform, run, Prog.run_perform, exec, h]
  simp [Lock.post, Lock.free]

theorem run_providerLock {p : Addr} {provider : Provider}
    (hp : s.heap .provider p = some provider) (hl : s.heap .lock provider.lock = some .free) :
    run t (providerLock p) s = .done (s.put .lock provider.lock (some ⟨some t, 1⟩)) () := by
  rw [providerLock, run_bind, run_read hp, Outcome.bind_done, run_lockWait_free hl]

/-- `provider_unlock` leaves what was there before `provider_lock`. -/
theorem run_providerUnlock {p : Addr} {provider : Provider}
    (hp : s.heap .provider p = some provider) (hl : s.heap .lock provider.lock = some .free) :
    run t (providerUnlock p) (s.put .lock provider.lock (some ⟨some t, 1⟩)) = .done s () := by
  have hrecord : (s.put .lock provider.lock (some ⟨some t, 1⟩)).heap .provider p =
      some provider := by rw [State.put_lock_heap_provider, hp]
  rw [providerUnlock, run_bind, run_read hrecord, Outcome.bind_done,
    run_lockPost_last (by rw [State.put_heap_self]), State.put_put, State.put_self hl]

/-- The set can be used: no item it holds was freed, and no other thread is visiting it. -/
structure Usable (t : Tid) (r : SetRef) (s : State) : Prop where
  sound : (s.sets r).damaged = false
  admits : (s.setLock r).admits t = true

theorem Usable.put (h : Usable t r s) {v : Option k.Rec} : Usable t r (s.put k a v) :=
  ⟨h.sound, h.admits⟩

theorem Usable.putSet (h : Usable t r s) {r' : SetRef} (hr : r ≠ r') {v : IdSet r'.Key Addr} :
    Usable t r (s.putSet r' v) :=
  ⟨by rw [State.putSet_sets_of_ne s v hr, h.sound], h.admits⟩

theorem run_setInsert (h : Usable t r s) (key : r.Key) (d : Addr) :
    run t (setInsert r key d) s =
      .done (s.putSet r ((s.sets r).add key d)) (decide (key ∉ s.sets r)) := by
  rw [setInsert, perform, run, Prog.run_perform, exec, if_pos h.admits]
  simp [IdSet.setInsert, h.sound, ofSet]

theorem run_setInsert_damaged (hl : (s.setLock r).admits t = true)
    (hd : (s.sets r).damaged = true) (key : r.Key) (d : Addr) :
    run t (setInsert r key d) s = .fault .freedMemory := by
  rw [setInsert, perform, run, Prog.run_perform, exec, if_pos hl]
  simp [IdSet.setInsert, hd, ofSet]

theorem run_setRemove (h : Usable t r s) (key : r.Key) :
    run t (setRemove r key) s =
      .done (s.putSet r ((s.sets r).erase key)) (decide (key ∈ s.sets r)) := by
  rw [setRemove, perform, run, Prog.run_perform, exec, if_pos h.admits]
  simp [IdSet.setRemove, h.sound, ofSet]

theorem run_setFind (h : Usable t r s) (key : r.Key) :
    run t (setFind r key) s = .done s ((s.sets r).lookup key) := by
  rw [setFind, perform, run, Prog.run_perform, exec, if_pos h.admits]
  simp [IdSet.setFind, h.sound, ofSet]

theorem run_rand :
    run t rand s = .done { s with draws := s.draws + 1 } (s.candidates s.draws) := by
  rw [rand, perform, run, Prog.run_perform, exec]

theorem run_read_done {s' : State} {v : k.Rec} (h : run t (read k a) s = .done s' v) :
    s' = s ∧ s.heap k a = some v := by
  rw [read, perform, run, Prog.run_perform, exec] at h
  split at h
  · cases h
  · next r hr =>
    obtain ⟨rfl, rfl⟩ := Outcome.done.inj h
    exact ⟨rfl, hr⟩

theorem run_store_done {s' : State} {w : k.Store} (h : run t (store k a w) s = .done s' ()) :
    ∃ v, s.heap k a = some v ∧ s' = s.put k a (some (k.store w v)) := by
  cases hv : s.heap k a with
  | none =>
    rw [store, perform, run, Prog.run_perform, exec, hv] at h
    cases h
  | some v =>
    rw [run_store hv] at h
    obtain ⟨rfl, -⟩ := Outcome.done.inj h
    exact ⟨v, rfl, rfl⟩

theorem run_setFind_done {s' : State} {key : r.Key} {d : Option Addr}
    (h : run t (setFind r key) s = .done s' d) : s' = s ∧ d = (s.sets r).lookup key := by
  rw [setFind, perform, run, Prog.run_perform, exec] at h
  split_ifs at h
  rw [IdSet.setFind] at h
  split_ifs at h
  · cases h
  · obtain ⟨rfl, rfl⟩ := Outcome.done.inj h
    exact ⟨rfl, rfl⟩

theorem run_assert_done {s' : State} {b : Bool} {x : Assertion}
    (h : run t (assert b x) s = .done s' ()) : s' = s ∧ b = true := by
  rw [run_assert] at h
  split_ifs at h with hb
  obtain ⟨rfl, -⟩ := Outcome.done.inj h
  exact ⟨rfl, hb⟩

/-- A program that only uses the network runs as it does there. -/
theorem run_net {α : Type} (p : NetProg Sd α) :
    run t (net p) s = match Net.run p s.net with
      | .done n a => .done (s.withNet n) a
      | .fault f => .fault (.net f)
      | .blocked => .blocked := by
  rw [net]
  induction p generalizing s with
  | ret a => rfl
  | op o k ih =>
    have hrun : Net.run (.op o k) s.net =
        (Net.exec o s.net).bind fun n r => Net.run (k r) n := rfl
    rw [hrun, run, Prog.lift, Prog.run_op, exec]
    cases Net.exec o s.net with
    | done n r => exact ih (s := s.withNet n) r
    | fault f => rfl
    | blocked => rfl

end

end Clara.Agent
