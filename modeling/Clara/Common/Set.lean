import Mathlib.Tactic.Common
import Mathlib.Logic.Function.Basic
import Clara.Common.IdSet

/-! `set.c`: a search tree whose nodes point to heap items. `rb.c` is taken at its
documentation; comparing with an item that has been freed is undefined, so any search
of a tree that holds one is a fault. Each operation runs under the set's lock and is
one step here. -/
namespace Clara

variable {δ : Type}

structure Item (δ : Type) where
  key : GlobalId
  data : δ

/-- The items on the heap. `malloc` hands out `next`, which nothing uses yet. -/
structure ItemHeap (δ : Type) where
  cell : Addr → Option (Item δ)
  next : Addr
  unused : ∀ a, next ≤ a → cell a = none

namespace ItemHeap

def malloc (h : ItemHeap δ) (item : Item δ) : Addr × ItemHeap δ :=
  (h.next, ⟨Function.update h.cell h.next (some item), h.next + 1, fun a ha => by
    rw [Function.update_of_ne (Nat.lt_of_succ_le ha).ne']
    exact h.unused a (Nat.le_of_succ_le ha)⟩)

def free (h : ItemHeap δ) (a : Addr) : ItemHeap δ :=
  ⟨Function.update h.cell a none, h.next, fun b hb => by
    rcases eq_or_ne b a with rfl | hne
    · simp
    · rw [Function.update_of_ne hne]
      exact h.unused b hb⟩

/-- The key a comparison reads at an address. -/
def key (h : ItemHeap δ) (a : Addr) : GlobalId := (h.cell a).elim invalidId Item.key

/-- The entry an item stands for. -/
def entry (h : ItemHeap δ) (a : Addr) : Option (GlobalId × δ) :=
  (h.cell a).map fun item => (item.key, item.data)

end ItemHeap

/-- `struct _set` with the heap it lives in; the tree lists the items' addresses in order. -/
structure CSet (δ : Type) where
  heap : ItemHeap δ
  tree : List Addr

namespace CSet

/-- `set_create`. -/
def create (heap : ItemHeap δ) : CSet δ := ⟨heap, []⟩

def Live (s : CSet δ) : Prop := ∀ a ∈ s.tree, (s.heap.cell a).isSome

instance (s : CSet δ) : Decidable s.Live :=
  inferInstanceAs (Decidable (∀ a ∈ s.tree, (s.heap.cell a).isSome = true))

/-- `rb_insert`: `NULL` and a tree with the item, or the item already there. -/
def rbInsert (h : ItemHeap δ) (tree : List Addr) (item : Addr) : Option Addr × List Addr :=
  match KeyedList.find h.key (h.key item) tree with
  | some duplicate => (some duplicate, tree)
  | none => (none, KeyedList.insert h.key item tree)

/-- `rb_delete`: the item found, which leaves the tree, or `NULL`. -/
def rbDelete (h : ItemHeap δ) (tree : List Addr) (key : GlobalId) : Option Addr × List Addr :=
  match KeyedList.find h.key key tree with
  | some item => (some item, KeyedList.erase h.key key tree)
  | none => (none, tree)

def rbFind (h : ItemHeap δ) (tree : List Addr) (key : GlobalId) : Option Addr :=
  KeyedList.find h.key key tree

/-- `set_insert`. The variable `item` is overwritten with what `rb_insert` returns, so on a
duplicate it is the tree's item that is freed. -/
def setInsert (s : CSet δ) (key : GlobalId) (data : δ) : Option (Bool × CSet δ) :=
  if s.Live then
    let (item, heap) := s.heap.malloc ⟨key, data⟩
    match rbInsert heap s.tree item with
    | (some item, tree) => some (false, ⟨heap.free item, tree⟩)
    | (none, tree) => some (true, ⟨heap, tree⟩)
  else none

def setRemove (s : CSet δ) (key : GlobalId) : Option (Bool × CSet δ) :=
  if s.Live then
    match rbDelete s.heap s.tree key with
    | (some item, tree) => some (true, ⟨s.heap.free item, tree⟩)
    | (none, tree) => some (false, ⟨s.heap, tree⟩)
  else none

def setFind (s : CSet δ) (key : GlobalId) : Option (Option δ) :=
  if s.Live then
    some ((rbFind s.heap s.tree key).bind fun item => (s.heap.cell item).map Item.data)
  else none

/-- The table a set stands for. -/
structure Represents (s : CSet δ) (t : IdSet GlobalId δ) : Prop where
  live : t.damaged = false ↔ s.Live
  entries : s.Live → s.tree.map s.heap.entry = t.items.map some

theorem represents_create (heap : ItemHeap δ) : (create heap).Represents IdSet.empty :=
  ⟨by simp [create, Live, IdSet.empty], fun _ => rfl⟩

section
variable {s : CSet δ} {t : IdSet GlobalId δ}

/-- The key of an optional entry; only entries of live items are looked at. -/
private def entryKey (e : Option (GlobalId × δ)) : GlobalId := e.elim invalidId Prod.fst

private theorem entryKey_entry (h : ItemHeap δ) (a : Addr) : entryKey (h.entry a) = h.key a := by
  cases hc : h.cell a <;> simp [entryKey, ItemHeap.entry, ItemHeap.key, hc]

private theorem find_entries (hr : s.Represents t) (hl : s.Live) (key : GlobalId) :
    (rbFind s.heap s.tree key).map s.heap.entry =
      (KeyedList.find Prod.fst key t.items).map some := by
  rw [rbFind, KeyedList.map_find (e := entryKey) _ _ fun a _ => entryKey_entry s.heap a,
    hr.entries hl, KeyedList.map_find (f := Prod.fst) (e := entryKey) some key fun _ _ => rfl]

/-- A search through the tree finds what the table holds. -/
theorem find_lookup (hr : s.Represents t) (hl : s.Live) (key : GlobalId) :
    ((rbFind s.heap s.tree key).bind fun a => (s.heap.cell a).map Item.data) = t.lookup key := by
  have h := find_entries hr hl key
  unfold IdSet.lookup
  cases hf : rbFind s.heap s.tree key with
  | none =>
    rw [hf, Option.map_none] at h
    cases ht : KeyedList.find Prod.fst key t.items with
    | none => rfl
    | some e => rw [ht] at h; cases h
  | some a =>
    rw [hf, Option.map_some] at h
    cases ht : KeyedList.find Prod.fst key t.items with
    | none => rw [ht] at h; cases h
    | some e =>
      rw [ht, Option.map_some, Option.some_inj] at h
      obtain ⟨item, hc, rfl⟩ := Option.map_eq_some_iff.mp h
      simp [hc]

theorem find_isSome (hr : s.Represents t) (hl : s.Live) (key : GlobalId) :
    (rbFind s.heap s.tree key).isSome ↔ key ∈ t := by
  have h := congrArg Option.isSome (find_entries hr hl key)
  simp only [Option.isSome_map] at h
  rw [h]
  change _ ↔ (t.lookup key).isSome
  simp [IdSet.lookup]

theorem setFind_represents (hr : s.Represents t) (key : GlobalId) :
    s.setFind key = t.setFind key := by
  by_cases hl : s.Live
  · rw [setFind, if_pos hl, find_lookup hr hl, IdSet.setFind, hr.live.mpr hl]
    rfl
  · have hd : t.damaged = true := by simpa using mt hr.live.mp hl
    rw [setFind, if_neg hl, IdSet.setFind, if_pos hd]

/-- A freshly allocated item leaves the live items as they are. -/
private theorem malloc_cell (h : ItemHeap δ) (item : Item δ) {a : Addr}
    (ha : (h.cell a).isSome) : (h.malloc item).2.cell a = h.cell a := by
  refine Function.update_of_ne (fun he => ?_) _ _
  rw [he, h.unused h.next (Nat.le_refl _)] at ha
  cases ha

private theorem malloc_live (hl : s.Live) (item : Item δ) :
    ∀ a ∈ s.tree, (s.heap.malloc item).2.entry a = s.heap.entry a := fun a ha => by
  rw [ItemHeap.entry, malloc_cell s.heap item (hl a ha)]
  rfl

private theorem key_eq_of_entry {h h' : ItemHeap δ} {a : Addr} (he : h'.entry a = h.entry a) :
    h'.key a = h.key a := by
  rw [← entryKey_entry, ← entryKey_entry, he]

/-- Where `malloc` put the item, the heap now holds it. -/
@[simp] private theorem malloc_self (h : ItemHeap δ) (item : Item δ) :
    (h.malloc item).2.cell (h.malloc item).1 = some item := Function.update_self _ _ _

/-- `set_insert` as compiled does to the table what `IdSet.setInsert` says, the freeing of a
stored item on a duplicate included. -/
theorem setInsert_represents (hr : s.Represents t) (key : GlobalId) (data : δ) :
    (s.setInsert key data = none ∧ t.setInsert key data = none) ∨
      ∃ b s' t', s.setInsert key data = some (b, s') ∧
        t.setInsert key data = some (b, t') ∧ s'.Represents t' := by
  by_cases hl : s.Live
  swap
  · have hd : t.damaged = true := by simpa using mt hr.live.mp hl
    exact .inl ⟨if_neg hl, by rw [IdSet.setInsert, if_pos hd]⟩
  right
  have hd : t.damaged = false := hr.live.mpr hl
  set m := s.heap.malloc ⟨key, data⟩ with hm
  have hent : ∀ a ∈ s.tree, m.2.entry a = s.heap.entry a := malloc_live hl _
  have hcell : m.2.cell m.1 = some ⟨key, data⟩ := malloc_self _ _
  have hkey : m.2.key m.1 = key := by simp [ItemHeap.key, hcell]
  have hfind : KeyedList.find m.2.key (m.2.key m.1) s.tree = rbFind s.heap s.tree key := by
    rw [hkey]
    exact KeyedList.find_congr key fun a ha => key_eq_of_entry (hent a ha)
  have hsome := find_isSome hr hl key
  cases hf : rbFind s.heap s.tree key with
  | some dup =>
    have hk : key ∈ t := hsome.mp (by simp [hf])
    refine ⟨false, ⟨m.2.free dup, s.tree⟩, t.add key data, ?_, ?_, ?_⟩
    · simp [setInsert, hl, rbInsert, ← hm, hfind, hf]
    · simp [IdSet.setInsert, hd, hk]
    · have hdead : ¬ CSet.Live ⟨m.2.free dup, s.tree⟩ := fun h => by
        have := h dup (KeyedList.find_mem hf)
        simp [ItemHeap.free] at this
      exact ⟨by simp [hk, hdead], fun h => absurd h hdead⟩
  | none =>
    have hk : key ∉ t := mt hsome.mpr (by simp [hf])
    refine ⟨true, ⟨m.2, KeyedList.insert m.2.key m.1 s.tree⟩, t.add key data, ?_, ?_, ?_⟩
    · simp [setInsert, hl, rbInsert, ← hm, hfind, hf]
    · simp [IdSet.setInsert, hd, hk]
    · have hlive : CSet.Live ⟨m.2, KeyedList.insert m.2.key m.1 s.tree⟩ := fun a ha => by
        rcases KeyedList.mem_insert.mp ha with rfl | ha
        · simp [hcell]
        · change (m.2.cell a).isSome
          rw [malloc_cell _ _ (hl a ha)]
          exact hl a ha
      refine ⟨by simp [hk, hd, hlive], fun _ => ?_⟩
      have hmap : s.tree.map m.2.entry = t.items.map some := by
        rw [← hr.entries hl]
        exact List.map_congr_left hent
      have hx : entryKey (m.2.entry m.1) = m.2.key m.1 := entryKey_entry _ _
      calc (KeyedList.insert m.2.key m.1 s.tree).map m.2.entry
          = KeyedList.insert entryKey (m.2.entry m.1) (s.tree.map m.2.entry) :=
            KeyedList.map_insert _ hx fun a _ => entryKey_entry m.2 a
        _ = KeyedList.insert entryKey (some (key, data)) (t.items.map some) := by
            rw [hmap]
            simp [ItemHeap.entry, hcell]
        _ = (t.add key data).items.map some := by
            rw [IdSet.add, dif_neg hk]
            exact (KeyedList.map_insert (f := Prod.fst) (e := entryKey) some rfl
              fun _ _ => rfl).symm

theorem setRemove_represents (hr : s.Represents t) (key : GlobalId) :
    (s.setRemove key = none ∧ t.setRemove key = none) ∨
      ∃ b s' t', s.setRemove key = some (b, s') ∧
        t.setRemove key = some (b, t') ∧ s'.Represents t' := by
  by_cases hl : s.Live
  swap
  · have hd : t.damaged = true := by simpa using mt hr.live.mp hl
    exact .inl ⟨if_neg hl, by rw [IdSet.setRemove, if_pos hd]⟩
  right
  have hd : t.damaged = false := hr.live.mpr hl
  have hsome := find_isSome hr hl key
  have hmap : (KeyedList.erase s.heap.key key s.tree).map s.heap.entry =
      (t.erase key).items.map some := by
    rw [KeyedList.map_erase (e := entryKey) _ _ fun a _ => entryKey_entry s.heap a,
      hr.entries hl]
    exact (KeyedList.map_erase (f := Prod.fst) (e := entryKey) some key
      fun _ _ => rfl).symm
  cases hf : rbFind s.heap s.tree key with
  | none =>
    have hk : key ∉ t := mt hsome.mpr (by simp [hf])
    refine ⟨false, s, t.erase key, ?_, ?_, ?_⟩
    · simp [setRemove, hl, rbDelete, show KeyedList.find s.heap.key key s.tree = none from hf]
    · simp [IdSet.setRemove, hd, hk, IdSet.erase]
    · refine ⟨by simp [hd, hl], fun _ => ?_⟩
      rw [← hmap, KeyedList.erase, List.filter_eq_self.mpr]
      simpa using KeyedList.find_eq_none.mp hf
  | some item =>
    have hk : key ∈ t := hsome.mp (by simp [hf])
    have hitem : s.heap.key item = key := KeyedList.find_key hf
    refine ⟨true, ⟨s.heap.free item, KeyedList.erase s.heap.key key s.tree⟩, t.erase key,
      ?_, ?_, ?_⟩
    · simp [setRemove, hl, rbDelete,
        show KeyedList.find s.heap.key key s.tree = some item from hf]
    · simp [IdSet.setRemove, hd, hk, IdSet.erase]
    · -- the freed item has left the tree, so the rest keep their cells
      have hcell : ∀ a ∈ KeyedList.erase s.heap.key key s.tree,
          (s.heap.free item).cell a = s.heap.cell a := fun a ha => by
        obtain ⟨_, hne⟩ := KeyedList.mem_erase.mp ha
        exact Function.update_of_ne (fun h => hne (by rw [h, hitem])) _ _
      have hlive : CSet.Live ⟨s.heap.free item, KeyedList.erase s.heap.key key s.tree⟩ :=
        fun a ha => by
          change ((s.heap.free item).cell a).isSome
          rw [hcell a ha]
          exact hl a (KeyedList.mem_erase.mp ha).1
      refine ⟨by simp [hd, hlive], fun _ => ?_⟩
      rw [← hmap]
      exact List.map_congr_left fun a ha => by
        change Option.map _ ((s.heap.free item).cell a) = _
        rw [hcell a ha]
        rfl

end

end CSet

end Clara
