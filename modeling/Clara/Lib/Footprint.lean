import Mathlib.Algebra.Order.Group.Multiset
import Mathlib.Tactic.Abel
import Clara.Lib.Heap

/-! What a program does to the records it works on, whatever else is on the heap. -/
namespace Conc

structure Cell (κ : Type) (Rec : κ → Type) (Ptr : Type) where
  kind : κ
  addr : Ptr
  value : Option (Rec kind)

variable {κ Ptr α β : Type} {Rec : κ → Type}

def Cell.place (c : Cell κ Rec Ptr) : κ × Ptr := (c.kind, c.addr)

/-- The cells are on the heap, each at an address of its own. -/
structure Heap.Holds (h : Heap κ Rec Ptr) (s : Multiset (Cell κ Rec Ptr)) : Prop where
  nodup : (s.map Cell.place).Nodup
  cell : ∀ c ∈ s, h.cell c.kind c.addr = c.value

theorem Heap.Holds.of_le {h : Heap κ Rec Ptr} {s s' : Multiset (Cell κ Rec Ptr)}
    (hs : h.Holds s) (hle : s' ≤ s) : h.Holds s' where
  nodup := Multiset.nodup_of_le (Multiset.map_le_map hle) hs.nodup
  cell c hc := hs.cell c (Multiset.mem_of_le hle hc)

theorem Heap.Holds.ne_of_mem {h : Heap κ Rec Ptr} {s : Multiset (Cell κ Rec Ptr)}
    {c c' : Cell κ Rec Ptr} (hs : h.Holds ({c} + s)) (hc : c' ∈ s) :
    c'.place ≠ c.place := by
  have hnodup := hs.nodup
  rw [Multiset.map_add, Multiset.map_singleton, Multiset.singleton_add,
    Multiset.nodup_cons] at hnodup
  exact fun heq => hnodup.1 (heq ▸ Multiset.mem_map_of_mem _ hc)

/-- An address where nothing stands is none of the others. -/
theorem Heap.Holds.add_empty {h : Heap κ Rec Ptr} {s : Multiset (Cell κ Rec Ptr)} {k : κ} {a : Ptr}
    (hs : h.Holds s) (ha : h.cell k a = none) (hne : ∀ c ∈ s, c.place ≠ (k, a)) :
    h.Holds ({⟨k, a, none⟩} + s) where
  nodup := by
    rw [Multiset.map_add, Multiset.map_singleton, Multiset.singleton_add, Multiset.nodup_cons]
    refine ⟨fun hmem => ?_, hs.nodup⟩
    obtain ⟨c, hc, heq⟩ := Multiset.mem_map.mp hmem
    exact hne c hc heq
  cell c hc := by
    rcases Multiset.mem_add.mp hc with hc | hc
    · obtain rfl := Multiset.mem_singleton.mp hc
      exact ha
    · exact hs.cell c hc

theorem Heap.Holds.ne_of_empty {h : Heap κ Rec Ptr} {s : Multiset (Cell κ Rec Ptr)} {k : κ} {a : Ptr}
    (hs : h.Holds s) (ha : h.cell k a = none) {c : Cell κ Rec Ptr} (hc : c ∈ s)
    (hvalue : c.value.isSome) : c.place ≠ (k, a) := by
  obtain ⟨k', a', v⟩ := c
  intro heq
  obtain ⟨rfl, rfl⟩ := Prod.mk.inj heq
  have hcell := hs.cell _ hc
  rw [ha] at hcell
  rw [← hcell] at hvalue
  cases hvalue

theorem places_replace (k : κ) (a : Ptr) (v w : Option (Rec k)) (s : Multiset (Cell κ Rec Ptr)) :
    ({⟨k, a, v⟩} + s).map Cell.place = ({⟨k, a, w⟩} + s).map Cell.place := by
  rw [Multiset.map_add, Multiset.map_singleton, Multiset.map_add, Multiset.map_singleton]
  rfl

/-- The cells, and no others. -/
structure Heap.Is (h : Heap κ Rec Ptr) (s : Multiset (Cell κ Rec Ptr)) : Prop extends
    h.Holds s where
  others : ∀ k a, (k, a) ∉ s.map Cell.place → h.cell k a = none

theorem Heap.Is.of_add {h : Heap κ Rec Ptr} {s s' : Multiset (Cell κ Rec Ptr)}
    (hs : h.Is (s + s')) (hempty : ∀ c ∈ s, c.value = none) : h.Is s' where
  toHolds := hs.of_le (Multiset.le_add_left _ _)
  others k a hka := by
    by_cases hmem : (k, a) ∈ s.map Cell.place
    · obtain ⟨c, hc, heq⟩ := Multiset.mem_map.mp hmem
      obtain ⟨rfl, rfl⟩ := Prod.mk.inj heq
      rw [hs.cell c (Multiset.mem_add.mpr (.inl hc)), hempty c hc]
    · refine hs.others k a fun hadd => ?_
      rw [Multiset.map_add, Multiset.mem_add] at hadd
      exact hadd.elim hmem hka

theorem Heap.Is.add_empty {h : Heap κ Rec Ptr} {s : Multiset (Cell κ Rec Ptr)} {k : κ} {a : Ptr}
    (hs : h.Is s) (ha : h.cell k a = none) (hne : ∀ c ∈ s, c.place ≠ (k, a)) :
    h.Is ({⟨k, a, none⟩} + s) where
  toHolds := hs.toHolds.add_empty ha hne
  others k' a' hka := hs.others k' a' fun hmem =>
    hka (by rw [Multiset.map_add]; exact Multiset.mem_add.mpr (.inr hmem))

namespace HeapProg

/-- The program comes to its end with the result `x`, and turns the cells `P` into the cells `Q` at
the same addresses; all others are left alone. -/
structure Triple (P : Multiset (Cell κ Rec Ptr)) (p : HeapProg κ Rec Ptr α) (x : α)
    (Q : Multiset (Cell κ Rec Ptr)) : Prop where
  places : Q.map Cell.place = P.map Cell.place
  run : ∀ h F, h.Holds (P + F) → ∃ h', p h = .done h' x ∧ h'.Holds (Q + F)

variable {P Q R : Multiset (Cell κ Rec Ptr)} {p : HeapProg κ Rec Ptr α} {x : α} {y : β} {k : κ}
  {a : Ptr} {v v' : Rec k}

theorem Triple.pure (x : α) (P : Multiset (Cell κ Rec Ptr)) :
    Triple P (pure x : HeapProg κ Rec Ptr α) x P := ⟨rfl, fun h _ hP => ⟨h, rfl, hP⟩⟩

theorem Triple.bind {f : α → HeapProg κ Rec Ptr β} (hp : Triple P p x Q)
    (hf : Triple Q (f x) y R) : Triple P (p >>= f) y R := by
  refine ⟨hf.places.trans hp.places, fun h F hP => ?_⟩
  obtain ⟨h₁, hx, hQ⟩ := hp.run h F hP
  obtain ⟨h₂, hy, hR⟩ := hf.run h₁ F hQ
  exact ⟨h₂, by rw [bind_run, hx, Outcome.bind_done, hy], hR⟩

theorem Triple.frame (hp : Triple P p x Q) (R : Multiset (Cell κ Rec Ptr)) :
    Triple (P + R) p x (Q + R) := by
  refine ⟨by rw [Multiset.map_add, Multiset.map_add, hp.places], fun h F hP => ?_⟩
  rw [add_assoc] at hP ⊢
  exact hp.run h (R + F) hP

theorem Triple.of_eq {P' Q' : Multiset (Cell κ Rec Ptr)} (hp : Triple P' p x Q') (hP : P = P')
    (hQ : Q' = Q) : Triple P p x Q := by
  rw [hP, ← hQ]
  exact hp

theorem Triple.reads {P' : Multiset (Cell κ Rec Ptr)} (hp : Triple P' p x P') (hP : P = P') :
    Triple P p x P := hp.of_eq hP hP.symm

theorem Triple.congr_prog {p' : HeapProg κ Rec Ptr α} (hp : Triple P p x Q) (h : p = p') :
    Triple P p' x Q := h ▸ hp

theorem Triple.of_result {z : α} (hp : Triple P p x Q) (hx : x = z) : Triple P p z Q := hx ▸ hp

theorem Triple.deref (a : Ptr) (P : Multiset (Cell κ Rec Ptr)) :
    Triple P (deref (some a) : HeapProg κ Rec Ptr Ptr) a P := Triple.pure a P

/-- Where nothing stood beside the cells, nothing stands afterwards. -/
theorem Triple.is (hp : Triple P p x Q) {h : Heap κ Rec Ptr} {F : Multiset (Cell κ Rec Ptr)}
    (hP : h.Is (P + F)) : ∃ h', p h = .done h' x ∧ h'.Is (Q + F) := by
  obtain ⟨h', hrun, hQ⟩ := hp.run h F hP.toHolds
  refine ⟨h', hrun, hQ, fun k a hka => ?_⟩
  rw [Multiset.map_add, hp.places, ← Multiset.map_add] at hka
  have hempty := hP.toHolds.add_empty (hP.others k a hka) fun c hc heq =>
    hka (heq ▸ Multiset.mem_map_of_mem _ hc)
  rw [add_left_comm] at hempty
  obtain ⟨h'', hrun', hQ'⟩ := hp.run h _ hempty
  obtain ⟨rfl, -⟩ := Outcome.done.inj (hrun.symm.trans hrun')
  exact hQ'.cell ⟨k, a, none⟩ (by simp)

theorem Triple.load (hmem : ⟨k, a, some v⟩ ∈ P) :
    Triple P (load k a : HeapProg κ Rec Ptr (Rec k)) v P := by
  refine ⟨rfl, fun h F hP => ?_⟩
  exact ⟨h, load_run (hP.cell _ (Multiset.mem_add.mpr (.inl hmem))), hP⟩

variable [DecidableEq κ] [DecidableEq Ptr]

def alloc (k : κ) (a : Ptr) (v : Rec k) : HeapProg κ Rec Ptr Unit :=
  fun h => .done (h.put k a (some v)) ()

end HeapProg

theorem Heap.Holds.put [DecidableEq κ] [DecidableEq Ptr] {h : Heap κ Rec Ptr}
    {s : Multiset (Cell κ Rec Ptr)} {k : κ} {a : Ptr} {w : Option (Rec k)}
    (hs : h.Holds ({⟨k, a, w⟩} + s)) (v : Option (Rec k)) :
    (h.put k a v).Holds ({⟨k, a, v⟩} + s) where
  nodup := by
    rw [places_replace k a v w]
    exact hs.nodup
  cell c hc := by
    rcases Multiset.mem_add.mp hc with hc | hc
    · obtain rfl := Multiset.mem_singleton.mp hc
      exact Heap.put_self v
    · have hne : c.place ≠ (k, a) := hs.ne_of_mem hc
      rw [← hs.cell c (Multiset.mem_add.mpr (.inr hc))]
      by_cases hk : c.kind = k
      · have ha : c.addr ≠ a := fun ha => hne (Prod.ext hk ha)
        obtain ⟨k', a', v'⟩ := c
        obtain rfl : k' = k := hk
        exact Heap.put_of_ne v ha
      · rw [Heap.put_kind v hk]

def Heap.ofCells [DecidableEq κ] [DecidableEq Ptr] : List (Cell κ Rec Ptr) → Heap κ Rec Ptr
  | [] => ⟨fun _ _ => none, []⟩
  | c :: cs => (ofCells cs).put c.kind c.addr c.value

theorem Heap.is_ofCells [DecidableEq κ] [DecidableEq Ptr] {cs : List (Cell κ Rec Ptr)}
    (hnodup : (cs.map Cell.place).Nodup) : (Heap.ofCells cs).Is (Multiset.ofList cs) := by
  induction cs with
  | nil => exact ⟨⟨Multiset.nodup_zero, fun c hc => absurd hc (Multiset.notMem_zero c)⟩,
      fun _ _ _ => rfl⟩
  | cons c cs ih =>
    rw [List.map_cons, List.nodup_cons] at hnodup
    have hcs := ih hnodup.2
    have hplace : (c.kind, c.addr) ∉ (Multiset.ofList cs).map Cell.place := hnodup.1
    have hempty : (ofCells cs).Is ({⟨c.kind, c.addr, none⟩} + Multiset.ofList cs) :=
      hcs.add_empty (hcs.others _ _ hplace) fun c' hc' heq =>
        hplace (heq ▸ Multiset.mem_map_of_mem _ hc')
    refine ⟨hempty.toHolds.put c.value, fun k a hka => ?_⟩
    have hka' : (k, a) ≠ c.place ∧ (k, a) ∉ (Multiset.ofList cs).map Cell.place := by
      simpa [Multiset.map_coe] using hka
    rw [ofCells]
    by_cases hk : k = c.kind
    · subst hk
      have ha : a ≠ c.addr := fun ha => hka'.1 (Prod.ext rfl ha)
      rw [Heap.put_of_ne _ ha]
      exact hcs.others _ _ hka'.2
    · rw [Heap.put_kind _ hk]
      exact hcs.others _ _ hka'.2

theorem Heap.Holds.of_cell_eq {h h' : Heap κ Rec Ptr} {s : Multiset (Cell κ Rec Ptr)}
    (hs : h.Holds s) (hcell : h'.cell = h.cell) : h'.Holds s :=
  ⟨hs.nodup, fun c hc => by rw [hcell]; exact hs.cell c hc⟩

namespace HeapProg

variable [DecidableEq κ] [DecidableEq Ptr] {P Q R : Multiset (Cell κ Rec Ptr)} {k : κ} {a : Ptr}
  {v v' : Rec k}

theorem Triple.alloc (v : Rec k) (R : Multiset (Cell κ Rec Ptr)) :
    Triple ({⟨k, a, none⟩} + R) (alloc k a v) () ({⟨k, a, some v⟩} + R) := by
  refine ⟨places_replace .., fun h F hP => ?_⟩
  rw [add_assoc] at hP ⊢
  exact ⟨_, rfl, hP.put _⟩

theorem Triple.store (v' : Rec k) (R : Multiset (Cell κ Rec Ptr)) :
    Triple ({⟨k, a, some v⟩} + R) (store k a v') () ({⟨k, a, some v'⟩} + R) := by
  refine ⟨places_replace .., fun h F hP => ?_⟩
  rw [add_assoc] at hP ⊢
  have hcell : h.cell k a = some v :=
    hP.cell ⟨k, a, some v⟩ (Multiset.mem_add.mpr (.inl (Multiset.mem_singleton_self _)))
  exact ⟨_, store_run hcell, hP.put _⟩

theorem Triple.free (R : Multiset (Cell κ Rec Ptr)) :
    Triple ({⟨k, a, some v⟩} + R) (free k a) () ({⟨k, a, none⟩} + R) := by
  refine ⟨places_replace .., fun h F hP => ?_⟩
  rw [add_assoc] at hP ⊢
  have hcell : h.cell k a = some v :=
    hP.cell ⟨k, a, some v⟩ (Multiset.mem_add.mpr (.inl (Multiset.mem_singleton_self _)))
  exact ⟨_, free_run hcell, (hP.put none).of_cell_eq rfl⟩

end HeapProg

end Conc
