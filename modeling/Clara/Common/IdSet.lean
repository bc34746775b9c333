import Clara.Common.Types
import Clara.Lib.KeyedList

/-! The table that a `set_t` stands for: entries in key order, and a mark that an
entry's item has been freed while the tree still points to it. Processes are modelled
over these tables; `Clara.Common.Set` shows that `set.c` implements them. -/
namespace Clara

variable {κ δ : Type} [LinearOrder κ]

/-- Entries in key order. Once `damaged`, every further use touches freed memory. -/
structure IdSet (κ δ : Type) [LinearOrder κ] where
  items : List (κ × δ)
  ordered : KeyedList.Ordered Prod.fst items
  damaged : Bool

namespace IdSet

def empty : IdSet κ δ := ⟨[], List.Pairwise.nil, false⟩

def lookup (s : IdSet κ δ) (key : κ) : Option δ :=
  (KeyedList.find Prod.fst key s.items).map Prod.snd

instance : Membership κ (IdSet κ δ) := ⟨fun s key => (s.lookup key).isSome⟩

instance (s : IdSet κ δ) (key : κ) : Decidable (key ∈ s) :=
  inferInstanceAs (Decidable ((s.lookup key).isSome = true))

theorem mem_iff {s : IdSet κ δ} {key : κ} : key ∈ s ↔ ∃ d, s.lookup key = some d :=
  Option.isSome_iff_exists

theorem not_mem_iff {s : IdSet κ δ} {key : κ} : key ∉ s ↔ s.lookup key = none := by
  rw [mem_iff]
  cases s.lookup key <;> simp

theorem mem_of_lookup {s : IdSet κ δ} {key : κ} {d : δ} (h : s.lookup key = some d) :
    key ∈ s := mem_iff.mpr ⟨d, h⟩

private theorem find_none {s : IdSet κ δ} {key : κ} (h : key ∉ s) :
    KeyedList.find Prod.fst key s.items = none := by
  simpa [lookup] using not_mem_iff.mp h

/-- `rb_insert` as `set_insert` uses it: a present key leaves the tree alone, but the item
it keeps for that key is freed. -/
def add (s : IdSet κ δ) (key : κ) (data : δ) : IdSet κ δ :=
  if h : key ∈ s then { s with damaged := true }
  else ⟨KeyedList.insert Prod.fst (key, data) s.items, s.ordered.insert (find_none h), s.damaged⟩

def erase (s : IdSet κ δ) (key : κ) : IdSet κ δ :=
  ⟨KeyedList.erase Prod.fst key s.items, s.ordered.erase key, s.damaged⟩

theorem lookup_add {s : IdSet κ δ} {key : κ} (h : key ∉ s) (data : δ) (k : κ) :
    (s.add key data).lookup k = if k = key then some data else s.lookup k := by
  rw [add, dif_neg h]
  by_cases hk : k = key
  · subst hk
    simp [lookup, KeyedList.find_insert_self (f := Prod.fst) (x := (k, data)) (find_none h)]
  · simp [lookup, hk, KeyedList.find_insert_of_ne (f := Prod.fst) (x := (key, data))
      (k := k) (Ne.symm hk)]

theorem add_of_mem {s : IdSet κ δ} {key : κ} (h : key ∈ s) (data : δ) :
    s.add key data = { s with damaged := true } := dif_pos h

/-- A present key keeps its entry, also where the insertion damages the set. -/
theorem lookup_add_eq (s : IdSet κ δ) (key : κ) (data : δ) (k : κ) :
    (s.add key data).lookup k = if k = key ∧ key ∉ s then some data else s.lookup k := by
  by_cases h : key ∈ s
  · rw [add_of_mem h, if_neg fun hk => hk.2 h]
    rfl
  · rw [lookup_add h]
    simp [h]

@[simp] theorem damaged_add {s : IdSet κ δ} {key : κ} (data : δ) :
    (s.add key data).damaged = (decide (key ∈ s) || s.damaged) := by
  by_cases h : key ∈ s <;> simp [add, h]

@[simp] theorem lookup_erase (s : IdSet κ δ) (key k : κ) :
    (s.erase key).lookup k = if k = key then none else s.lookup k := by
  simp only [lookup, erase, KeyedList.find_erase]
  split_ifs <;> rfl

@[simp] theorem damaged_erase (s : IdSet κ δ) (key : κ) :
    (s.erase key).damaged = s.damaged := rfl

/-- An entry made and taken out again leaves no trace. -/
theorem erase_add {s : IdSet κ δ} {key : κ} (h : key ∉ s) (data : δ) :
    (s.add key data).erase key = s := by
  have hitems : KeyedList.erase Prod.fst key (KeyedList.insert Prod.fst (key, data) s.items) =
      s.items := KeyedList.erase_insert (x := (key, data)) (find_none h)
  rw [add, dif_neg h]
  simp only [erase, hitems]

theorem mem_add {s : IdSet κ δ} {key : κ} (h : key ∉ s) (data : δ) {k : κ} :
    k ∈ s.add key data ↔ k = key ∨ k ∈ s := by
  rw [mem_iff, mem_iff]
  by_cases hk : k = key <;> simp [lookup_add h, hk]

@[simp] theorem mem_erase {s : IdSet κ δ} {key k : κ} :
    k ∈ s.erase key ↔ k ≠ key ∧ k ∈ s := by
  rw [mem_iff, mem_iff]
  by_cases hk : k = key <;> simp [hk]

/-- The entries are made one after the other. -/
def ofList (l : List (κ × δ)) : IdSet κ δ := l.foldl (fun s x => s.add x.1 x.2) empty

@[simp] theorem lookup_empty (key : κ) : (empty : IdSet κ δ).lookup key = none := rfl

@[simp] theorem not_mem_empty (key : κ) : key ∉ (empty : IdSet κ δ) := not_mem_iff.mpr rfl

private theorem foldl_add (l : List (κ × δ)) (s : IdSet κ δ) (hl : (l.map Prod.fst).Nodup)
    (hs : ∀ x ∈ l, x.1 ∉ s) :
    (l.foldl (fun s x => s.add x.1 x.2) s).damaged = s.damaged ∧
      ∀ key, (l.foldl (fun s x => s.add x.1 x.2) s).lookup key =
        (l.lookup key).or (s.lookup key) := by
  induction l generalizing s with
  | nil => exact ⟨rfl, fun key => rfl⟩
  | cons x l ih =>
    obtain ⟨hx, hl⟩ := List.nodup_cons.mp hl
    have hnew : x.1 ∉ s := hs x List.mem_cons_self
    obtain ⟨hdamaged, hlookup⟩ := ih (s.add x.1 x.2) hl fun y hy hmem => by
      rcases (mem_add hnew x.2).mp hmem with heq | hmem
      · exact hx (heq ▸ List.mem_map_of_mem hy)
      · exact hs y (List.mem_cons_of_mem x hy) hmem
    refine ⟨hdamaged.trans (by simp [hnew]), fun key => (hlookup key).trans ?_⟩
    rw [lookup_add hnew, List.lookup_cons]
    by_cases hkey : key = x.1
    · have hnone : l.lookup key = none := by
        rw [List.lookup_eq_none_iff]
        intro y hy
        exact bne_iff_ne.mpr fun heq => hx (hkey ▸ heq ▸ List.mem_map_of_mem hy)
      rw [if_pos hkey, hnone, beq_iff_eq.mpr hkey]
      rfl
    · rw [if_neg hkey, beq_false_of_ne hkey]

/-- With different keys no entry gets in the way of another. -/
theorem lookup_ofList {l : List (κ × δ)} (h : (l.map Prod.fst).Nodup) (key : κ) :
    (ofList l).lookup key = l.lookup key := by
  rw [ofList, (foldl_add l empty h fun _ _ => not_mem_empty _).2, lookup_empty, Option.or_none]

theorem damaged_ofList {l : List (κ × δ)} (h : (l.map Prod.fst).Nodup) :
    (ofList l).damaged = false := (foldl_add l empty h fun _ _ => not_mem_empty _).1

theorem ofList_concat (l : List (κ × δ)) (x : κ × δ) :
    ofList (l ++ [x]) = (ofList l).add x.1 x.2 := by
  rw [ofList, List.foldl_append]
  rfl

/-- The entries visited are exactly those a search finds. -/
theorem mem_items {s : IdSet κ δ} {key : κ} {d : δ} :
    (key, d) ∈ s.items ↔ s.lookup key = some d := by
  constructor
  · intro h
    simp [lookup, KeyedList.find_of_mem s.ordered h]
  · intro h
    obtain ⟨x, hx, rfl⟩ := Option.map_eq_some_iff.mp h
    have hk : x.1 = key := KeyedList.find_key hx
    subst hk
    exact KeyedList.find_mem hx

/-- `set_insert`; `none` is a use of freed memory. -/
def setInsert (s : IdSet κ δ) (key : κ) (data : δ) : Option (Bool × IdSet κ δ) :=
  if s.damaged then none else some (decide (key ∉ s), s.add key data)

def setRemove (s : IdSet κ δ) (key : κ) : Option (Bool × IdSet κ δ) :=
  if s.damaged then none else some (decide (key ∈ s), s.erase key)

def setFind (s : IdSet κ δ) (key : κ) : Option (Option δ) :=
  if s.damaged then none else some (s.lookup key)

/-- What `set_start`, `set_next`, ..., `set_finish` visit. -/
def setList (s : IdSet κ δ) : Option (List δ) :=
  if s.damaged then none else some (s.items.map Prod.snd)

end IdSet

end Clara
