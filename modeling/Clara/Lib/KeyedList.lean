import Mathlib.Data.List.Sort
import Mathlib.Order.Basic

/-! Lists ordered by a key without duplicate keys: what an ordered search tree
documents about itself, independent of how the tree is balanced. -/
namespace KeyedList

section
variable {α β κ : Type} [LinearOrder κ] (f : α → κ)

/-- Strictly increasing keys, hence one element for each key. -/
def Ordered (l : List α) : Prop := l.Pairwise fun x y => f x < f y

def find (k : κ) (l : List α) : Option α := l.find? fun x => f x = k

/-- Insertion at the place the order gives; the caller checks that the key is absent. -/
def insert (x : α) (l : List α) : List α := l.orderedInsert (fun a b => f a ≤ f b) x

def erase (k : κ) (l : List α) : List α := l.filter fun x => f x ≠ k

variable {f}

@[simp] theorem find_nil (k : κ) : find f k [] = none := rfl

theorem find_cons (k : κ) (x : α) (l : List α) :
    find f k (x :: l) = if f x = k then some x else find f k l := by
  by_cases h : f x = k <;> simp [find, h]

theorem find_key {k : κ} {l : List α} {x : α} (h : find f k l = some x) : f x = k := by
  simpa using List.find?_some h

theorem find_mem {k : κ} {l : List α} {x : α} (h : find f k l = some x) : x ∈ l :=
  List.mem_of_find?_eq_some h

theorem find_eq_none {k : κ} {l : List α} : find f k l = none ↔ ∀ x ∈ l, f x ≠ k := by
  simp [find]

/-- In an ordered list every element is the one found under its key. -/
theorem find_of_mem {l : List α} (hl : Ordered f l) {x : α} (hx : x ∈ l) :
    find f (f x) l = some x := by
  induction l with
  | nil => cases hx
  | cons y l ih =>
    obtain ⟨hy, hl'⟩ := List.pairwise_cons.mp hl
    rw [find_cons]
    rcases List.mem_cons.mp hx with rfl | hx'
    · simp
    · rw [if_neg (hy x hx').ne]
      exact ih hl' hx'

/-- A search for anything else finds the element with the least key. -/
theorem find?_of_least {l : List α} (hl : Ordered f l) {p : α → Bool} {x : α} (hx : x ∈ l)
    (hp : p x = true) (hmin : ∀ y ∈ l, p y = true → f x ≤ f y) : l.find? p = some x := by
  induction l with
  | nil => cases hx
  | cons y l ih =>
    obtain ⟨hy, hl'⟩ := List.pairwise_cons.mp hl
    rcases List.mem_cons.mp hx with rfl | hx'
    · exact List.find?_cons_of_pos hp
    · have hpy : ¬ p y = true := fun h =>
        absurd (hmin y List.mem_cons_self h) (not_le.mpr (hy x hx'))
      rw [List.find?_cons_of_neg hpy]
      exact ih hl' hx' fun z hz => hmin z (List.mem_cons_of_mem y hz)

@[simp] theorem mem_insert {x y : α} {l : List α} : y ∈ insert f x l ↔ y = x ∨ y ∈ l := by
  simp [insert]

@[simp] theorem mem_erase {k : κ} {y : α} {l : List α} :
    y ∈ erase f k l ↔ y ∈ l ∧ f y ≠ k := by
  simp [erase]

theorem find_insert_of_ne {k : κ} {x : α} (h : f x ≠ k) (l : List α) :
    find f k (insert f x l) = find f k l := by
  induction l with
  | nil => simp [insert, find_cons, h]
  | cons y l ih =>
    rw [insert, List.orderedInsert_cons]
    split_ifs
    · rw [find_cons, if_neg h]
    · rw [find_cons, find_cons]
      exact congrArg _ ih

theorem find_insert_self {x : α} {l : List α} (h : find f (f x) l = none) :
    find f (f x) (insert f x l) = some x := by
  induction l with
  | nil => simp [insert, find_cons]
  | cons y l ih =>
    have hy : f y ≠ f x := find_eq_none.mp h y (by simp)
    rw [find_cons, if_neg hy] at h
    rw [insert, List.orderedInsert_cons]
    split_ifs
    · simp [find_cons]
    · rw [find_cons, if_neg hy]
      exact ih h

theorem find_erase (k k' : κ) (l : List α) :
    find f k' (erase f k l) = if k' = k then none else find f k' l := by
  induction l with
  | nil => simp [erase]
  | cons y l ih =>
    have he : erase f k (y :: l) = if f y ≠ k then y :: erase f k l else erase f k l := by
      by_cases h : f y = k <;> simp [erase, h]
    rw [he]
    by_cases h : f y = k
    · rw [if_neg (not_not.mpr h), ih, find_cons]
      by_cases hk : k' = k
      · simp [hk]
      · rw [if_neg hk, if_neg hk, if_neg (fun e => hk (e.symm.trans h))]
    · rw [if_pos h, find_cons, find_cons, ih]
      by_cases hk : k' = k
      · subst hk; simp [h]
      · simp [hk]

theorem Ordered.insert {x : α} {l : List α} (hl : Ordered f l)
    (h : find f (f x) l = none) : Ordered f (insert f x l) := by
  induction l with
  | nil => simp [KeyedList.insert, Ordered]
  | cons y l ih =>
    obtain ⟨hy, hl'⟩ := List.pairwise_cons.mp hl
    have hne : f y ≠ f x := find_eq_none.mp h y (by simp)
    have hnone : find f (f x) l = none := by rwa [find_cons, if_neg hne] at h
    rw [KeyedList.insert, List.orderedInsert_cons]
    split_ifs with hle
    · have hlt : f x < f y := lt_of_le_of_ne hle hne.symm
      refine List.pairwise_cons.mpr ⟨fun z hz => ?_, hl⟩
      rcases List.mem_cons.mp hz with rfl | hz'
      · exact hlt
      · exact hlt.trans (hy z hz')
    · refine List.pairwise_cons.mpr ⟨fun z hz => ?_, ih hl' hnone⟩
      rcases mem_insert.mp hz with rfl | hz'
      · exact not_le.mp hle
      · exact hy z hz'

theorem Ordered.erase {l : List α} (hl : Ordered f l) (k : κ) :
    Ordered f (erase f k l) := List.Pairwise.filter _ hl

theorem erase_insert {x : α} {l : List α} (h : find f (f x) l = none) :
    erase f (f x) (insert f x l) = l := by
  induction l with
  | nil => simp [insert, erase]
  | cons y l ih =>
    have hy : f y ≠ f x := find_eq_none.mp h y (by simp)
    have hl : find f (f x) l = none := by rwa [find_cons, if_neg hy] at h
    have hkept : erase f (f x) l = l :=
      List.filter_eq_self.mpr fun z hz => decide_eq_true (find_eq_none.mp hl z hz)
    rw [insert, List.orderedInsert_cons]
    split_ifs
    · have hcons : erase f (f x) (x :: y :: l) = erase f (f x) (y :: l) := by simp [erase]
      have hhead : erase f (f x) (y :: l) = y :: erase f (f x) l := by simp [erase, hy]
      rw [hcons, hhead, hkept]
    · have hhead : ∀ l', erase f (f x) (y :: l') = y :: erase f (f x) l' := by simp [erase, hy]
      rw [hhead]
      exact congrArg _ (ih hl)

/-- Renaming the elements without touching their keys commutes with insertion. -/
theorem map_insert {e : β → κ} (g : α → β) {x : α} {l : List α}
    (hx : e (g x) = f x) (hl : ∀ y ∈ l, e (g y) = f y) :
    (insert f x l).map g = insert e (g x) (l.map g) := by
  induction l with
  | nil => simp [insert]
  | cons y l ih =>
    have hy : e (g y) = f y := hl y (by simp)
    simp only [insert, List.map_cons, List.orderedInsert_cons, hx, hy]
    split_ifs
    · simp
    · simpa [insert] using ih fun z hz => hl z (by simp [hz])

theorem map_erase {e : β → κ} (g : α → β) (k : κ) {l : List α}
    (hl : ∀ y ∈ l, e (g y) = f y) :
    (erase f k l).map g = erase e k (l.map g) := by
  unfold erase
  rw [List.filter_map]
  congr 1
  exact List.filter_congr fun y hy => by simp [hl y hy]

theorem map_find {e : β → κ} (g : α → β) (k : κ) {l : List α}
    (hl : ∀ y ∈ l, e (g y) = f y) :
    (find f k l).map g = find e k (l.map g) := by
  induction l with
  | nil => rfl
  | cons y l ih =>
    rw [List.map_cons, find_cons, find_cons, hl y (by simp)]
    split_ifs
    · rfl
    · exact ih fun z hz => hl z (by simp [hz])

/-- Two keys that agree on the list make no difference to a search. -/
theorem find_congr {e : α → κ} (k : κ) {l : List α} (h : ∀ y ∈ l, e y = f y) :
    find e k l = find f k l := by
  simpa using (map_find (f := f) (e := e) id k h).symm

section
variable {k : κ} {x : α} {as bs : List α}

theorem insert_append (ha : ∀ y ∈ as, f y < f x) (hb : ∀ y ∈ bs, f x < f y) :
    insert f x (as ++ bs) = as ++ x :: bs := by
  induction as with
  | nil =>
    cases bs with
    | nil => rfl
    | cons y bs =>
      rw [List.nil_append, List.nil_append, insert, List.orderedInsert_cons,
        if_pos (hb y List.mem_cons_self).le]
  | cons y as ih =>
    have hy : ¬ f x ≤ f y := not_le.mpr (ha y List.mem_cons_self)
    rw [List.cons_append, insert, List.orderedInsert_cons, if_neg hy]
    exact congrArg _ (ih fun z hz => ha z (List.mem_cons_of_mem y hz))

theorem find_append (ha : ∀ y ∈ as, f y < k) (hb : ∀ y ∈ bs, k < f y) :
    find f k (as ++ bs) = none := by
  refine find_eq_none.mpr fun y hy => ?_
  rcases List.mem_append.mp hy with hy | hy
  · exact (ha y hy).ne
  · exact (hb y hy).ne'

theorem Ordered.between (h : Ordered f (as ++ x :: bs)) :
    (∀ y ∈ as, f y < f x) ∧ ∀ y ∈ bs, f x < f y := by
  obtain ⟨-, hbs, hcross⟩ := List.pairwise_append.mp h
  exact ⟨fun y hy => hcross y hy x List.mem_cons_self, (List.pairwise_cons.mp hbs).1⟩

theorem Ordered.erase_append_cons (h : Ordered f (as ++ x :: bs)) :
    KeyedList.erase f (f x) (as ++ x :: bs) = as ++ bs := by
  obtain ⟨ha, hb⟩ := h.between
  rw [KeyedList.erase, List.filter_append, List.filter_cons_of_neg (by simp)]
  congr 1
  · exact List.filter_eq_self.mpr fun y hy => decide_eq_true (ha y hy).ne
  · exact List.filter_eq_self.mpr fun y hy => decide_eq_true (hb y hy).ne'

theorem Ordered.length_erase {l : List α} (h : Ordered f l) (hx : x ∈ l) :
    (KeyedList.erase f (f x) l).length + 1 = l.length := by
  obtain ⟨as, bs, rfl⟩ := List.append_of_mem hx
  rw [h.erase_append_cons, List.length_append, List.length_append, List.length_cons]
  omega

end

end

end KeyedList
