import Mathlib.Logic.Function.Basic
import Clara.Lib.Prog

/-! Programs of one thread over a heap with records of several kinds. An access to a record that is
not there, because it was freed, is a fault. -/
namespace Conc

/-- The records of each kind by their addresses, and those that were freed, the last one first. -/
structure Heap (κ : Type) (Rec : κ → Type) (Ptr : Type) where
  cell : (k : κ) → Ptr → Option (Rec k)
  freed : List (κ × Ptr)

inductive HeapFault (κ : Type)
  | freed (k : κ)
  | nullPointer
  | overflow
  deriving DecidableEq

/-- A program; a loop whose fuel is used up is blocked. -/
def HeapProg (κ : Type) (Rec : κ → Type) (Ptr α : Type) :=
  Heap κ Rec Ptr → Outcome (Heap κ Rec Ptr) (HeapFault κ) α

variable {κ Ptr α β : Type} {Rec : κ → Type}

namespace HeapProg

instance : Monad (HeapProg κ Rec Ptr) where
  pure a := fun h => .done h a
  bind p f := fun h => (p h).bind fun h a => f a h

@[simp] theorem pure_run (a : α) (h : Heap κ Rec Ptr) :
    (pure a : HeapProg κ Rec Ptr α) h = .done h a := rfl

@[simp] theorem bind_run (p : HeapProg κ Rec Ptr α) (f : α → HeapProg κ Rec Ptr β)
    (h : Heap κ Rec Ptr) : (p >>= f) h = (p h).bind fun h a => f a h := rfl

def fail (f : HeapFault κ) : HeapProg κ Rec Ptr α := fun _ => .fault f

def spin : HeapProg κ Rec Ptr α := fun _ => .blocked

def deref : Option Ptr → HeapProg κ Rec Ptr Ptr
  | none => fail .nullPointer
  | some a => pure a

def load (k : κ) (a : Ptr) : HeapProg κ Rec Ptr (Rec k) := fun h =>
  match h.cell k a with
  | none => .fault (.freed k)
  | some v => .done h v

end HeapProg

namespace Heap
variable {h h' : Heap κ Rec Ptr}

/-- Only records of the kind `k` are changed, and none is allocated. -/
structure Rewrites (k : κ) (h h' : Heap κ Rec Ptr) : Prop where
  dwindles : ∀ a, h.cell k a = none → h'.cell k a = none
  others : ∀ k', k' ≠ k → h'.cell k' = h.cell k'

theorem Rewrites.refl (k : κ) (h : Heap κ Rec Ptr) : Rewrites k h h := ⟨fun _ ha => ha, fun _ _ => rfl⟩

theorem Rewrites.trans {k : κ} {h₁ : Heap κ Rec Ptr} (hd : Rewrites k h h₁)
    (hd' : Rewrites k h₁ h') : Rewrites k h h' where
  dwindles a ha := hd'.dwindles a (hd.dwindles a ha)
  others k' hk := (hd'.others k' hk).trans (hd.others k' hk)

end Heap

namespace HeapProg
variable {h h' : Heap κ Rec Ptr} {k : κ} {a : Ptr} {v : Rec k}

theorem load_run (ha : h.cell k a = some v) : (load k a : HeapProg κ Rec Ptr _) h = .done h v := by
  rw [load, ha]

theorem load_freed (ha : h.cell k a = none) :
    (load k a : HeapProg κ Rec Ptr _) h = .fault (.freed k) := by
  rw [load, ha]

@[simp] theorem deref_some_run : (deref (some a) : HeapProg κ Rec Ptr _) h = .done h a := rfl

theorem load_done (hr : (load k a : HeapProg κ Rec Ptr _) h = .done h' v) :
    h' = h ∧ h.cell k a = some v := by
  rw [load] at hr
  cases ha : h.cell k a with
  | none =>
    rw [ha] at hr
    cases hr
  | some w =>
    rw [ha] at hr
    obtain ⟨rfl, rfl⟩ := Outcome.done.inj hr
    exact ⟨rfl, rfl⟩

/-- A run of the program, when it comes to an end, has only changed records of the kind `k`. -/
def Rewrites (k : κ) (p : HeapProg κ Rec Ptr α) : Prop :=
  ∀ h h' x, p h = .done h' x → Heap.Rewrites k h h'

theorem rewrites_pure (k : κ) (x : α) : (pure x : HeapProg κ Rec Ptr α).Rewrites k := by
  intro h h' y hr
  obtain ⟨rfl, -⟩ := Outcome.done.inj hr
  exact .refl k h

theorem rewrites_fail (k : κ) (f : HeapFault κ) :
    (fail f : HeapProg κ Rec Ptr α).Rewrites k := by
  intro h h' y hr
  cases hr

theorem rewrites_spin (k : κ) : (spin : HeapProg κ Rec Ptr α).Rewrites k := by
  intro h h' y hr
  cases hr

theorem Rewrites.bind {p : HeapProg κ Rec Ptr α} {f : α → HeapProg κ Rec Ptr β}
    (hp : p.Rewrites k) (hf : ∀ x, (f x).Rewrites k) : (p >>= f).Rewrites k := by
  intro h h' y hr
  obtain ⟨h₁, x, hx, hy⟩ := Outcome.bind_eq_done hr
  exact (hp h h₁ x hx).trans (hf x h₁ h' y hy)

theorem rewrites_deref (k : κ) (p : Option Ptr) :
    (deref p : HeapProg κ Rec Ptr Ptr).Rewrites k := by
  cases p with
  | none => exact rewrites_fail k _
  | some a => exact rewrites_pure k a

theorem rewrites_load (k k' : κ) (a : Ptr) : (load k' a : HeapProg κ Rec Ptr _).Rewrites k := by
  intro h h' v hr
  obtain ⟨rfl, -⟩ := load_done hr
  exact .refl k h'

end HeapProg

section
variable [DecidableEq κ] [DecidableEq Ptr]

def Heap.put (h : Heap κ Rec Ptr) (k : κ) (a : Ptr) (v : Option (Rec k)) : Heap κ Rec Ptr :=
  { h with cell := Function.update h.cell k (Function.update (h.cell k) a v) }

def Heap.drop (h : Heap κ Rec Ptr) (k : κ) (a : Ptr) : Heap κ Rec Ptr :=
  { h.put k a none with freed := (k, a) :: h.freed }

namespace HeapProg

def store (k : κ) (a : Ptr) (v : Rec k) : HeapProg κ Rec Ptr Unit := fun h =>
  match h.cell k a with
  | none => .fault (.freed k)
  | some _ => .done (h.put k a (some v)) ()

def free (k : κ) (a : Ptr) : HeapProg κ Rec Ptr Unit := fun h =>
  match h.cell k a with
  | none => .fault (.freed k)
  | some _ => .done (h.drop k a) ()

end HeapProg

namespace Heap
variable {h h' : Heap κ Rec Ptr} {k k' : κ} {a b : Ptr}

@[simp] theorem put_self (v : Option (Rec k)) : (h.put k a v).cell k a = v := by
  simp [put]

theorem put_of_ne (v : Option (Rec k)) (hb : b ≠ a) : (h.put k a v).cell k b = h.cell k b := by
  simp [put, Function.update_of_ne hb]

theorem put_kind (v : Option (Rec k)) (hk : k' ≠ k) : (h.put k a v).cell k' = h.cell k' := by
  simp [put, Function.update_of_ne hk]

@[simp] theorem put_freed (v : Option (Rec k)) : (h.put k a v).freed = h.freed := rfl

@[simp] theorem drop_self : (h.drop k a).cell k a = none := put_self (h := h) none

theorem drop_of_ne (hb : b ≠ a) : (h.drop k a).cell k b = h.cell k b := put_of_ne (h := h) none hb

theorem drop_kind (hk : k' ≠ k) : (h.drop k a).cell k' = h.cell k' := put_kind (h := h) none hk

@[simp] theorem drop_freed : (h.drop k a).freed = (k, a) :: h.freed := rfl

/-- A record that is there is changed or taken away. -/
theorem rewrites_put {v₀ : Rec k} (ha : h.cell k a = some v₀) (v : Option (Rec k)) :
    Rewrites k h (h.put k a v) where
  dwindles b hb := by
    have hne : b ≠ a := by
      rintro rfl
      rw [ha] at hb
      cases hb
    rw [put_of_ne v hne, hb]
  others k' hk := put_kind v hk

theorem rewrites_drop {v₀ : Rec k} (ha : h.cell k a = some v₀) : Rewrites k h (h.drop k a) :=
  (rewrites_put ha none).trans ⟨fun _ hb => hb, fun _ _ => rfl⟩

end Heap

namespace HeapProg
variable {h h' : Heap κ Rec Ptr} {k : κ} {a : Ptr} {v v₀ : Rec k}

theorem store_run (ha : h.cell k a = some v₀) :
    (store k a v : HeapProg κ Rec Ptr _) h = .done (h.put k a (some v)) () := by
  rw [store, ha]

theorem free_run (ha : h.cell k a = some v₀) :
    (free k a : HeapProg κ Rec Ptr _) h = .done (h.drop k a) () := by
  rw [free, ha]

theorem free_done (hr : (free k a : HeapProg κ Rec Ptr _) h = .done h' ()) :
    h' = h.drop k a := by
  rw [free] at hr
  cases ha : h.cell k a with
  | none =>
    rw [ha] at hr
    cases hr
  | some w =>
    rw [ha] at hr
    exact (Outcome.done.inj hr).1.symm

theorem rewrites_store (k : κ) (a : Ptr) (v : Rec k) :
    (store k a v : HeapProg κ Rec Ptr _).Rewrites k := by
  intro h h' x hr
  cases ha : h.cell k a with
  | none =>
    rw [store, ha] at hr
    cases hr
  | some w =>
    rw [store_run ha] at hr
    obtain ⟨rfl, -⟩ := Outcome.done.inj hr
    exact Heap.rewrites_put ha _

theorem rewrites_free (k : κ) (a : Ptr) : (free k a : HeapProg κ Rec Ptr _).Rewrites k := by
  intro h h' x hr
  cases ha : h.cell k a with
  | none =>
    rw [free, ha] at hr
    cases hr
  | some w =>
    rw [free_run ha] at hr
    obtain ⟨rfl, -⟩ := Outcome.done.inj hr
    exact Heap.rewrites_drop ha

end HeapProg

end

end Conc
