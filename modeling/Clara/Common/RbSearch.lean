import Clara.Common.RbCells

/-! The trees of `rb.c`: ordered by the keys of the items, and in balance. -/
namespace Clara.Rb

open Conc HeapProg
open RedBlack (Frame plug locate)

variable {ρ : Type}

/-- The items in order. -/
def contents (t : RedBlack.Tree Entry) : List Stored := t.toList.map Entry.stored

/-- A tree as `rb.c` keeps it. -/
structure SearchTree (t : RedBlack.Tree Entry) : Prop where
  ordered : KeyedList.Ordered Entry.key t.toList
  balanced : ∃ n, RedBlack.Tree.Balanced .black n t

section
variable {t : RedBlack.Tree Entry} {k : GlobalId}

@[simp] theorem contents_nil : contents .nil = [] := rfl

theorem contents_plug (fs : List (Frame Entry)) (t : RedBlack.Tree Entry) :
    contents (plug fs t) = (RedBlack.before fs).map Entry.stored ++ contents t ++
      (RedBlack.after fs).map Entry.stored := by
  rw [contents, contents, RedBlack.toList_plug, List.map_append, List.map_append]

theorem ordered_contents : KeyedList.Ordered Stored.key (contents t) ↔
    KeyedList.Ordered Entry.key t.toList := List.pairwise_map

theorem SearchTree.separates (h : SearchTree t) (k : GlobalId) :
    (∀ s ∈ (RedBlack.before (locate Entry.key k [] t).1).map Entry.stored, s.key < k) ∧
      ∀ s ∈ (RedBlack.after (locate Entry.key k [] t).1).map Entry.stored, k < s.key := by
  have hseparates : RedBlack.Separates Entry.key k (locate Entry.key k [] t).1 :=
    RedBlack.separates_locate h.ordered ⟨nofun, nofun⟩
  constructor
  · rintro s hs
    obtain ⟨e, he, rfl⟩ := List.mem_map.mp hs
    exact hseparates.1 e he
  · rintro s hs
    obtain ⟨e, he, rfl⟩ := List.mem_map.mp hs
    exact hseparates.2 e he

theorem contents_located (k : GlobalId) (t : RedBlack.Tree Entry) : contents t =
    (RedBlack.before (locate Entry.key k [] t).1).map Entry.stored ++
      contents (locate Entry.key k [] t).2 ++
        (RedBlack.after (locate Entry.key k [] t).1).map Entry.stored := by
  rw [← contents_plug, RedBlack.plug_locate]
  rfl

theorem SearchTree.find_of_absent (h : SearchTree t) (hnil : (locate Entry.key k [] t).2 = .nil) :
    KeyedList.find Stored.key k (contents t) = none := by
  obtain ⟨hbefore, hafter⟩ := h.separates k
  rw [contents_located k t, hnil, contents_nil, List.append_nil]
  exact KeyedList.find_append hbefore hafter

theorem SearchTree.find_of_found (h : SearchTree t) {c : RedBlack.Color}
    {l r : RedBlack.Tree Entry} {e : Entry} (hnode : (locate Entry.key k [] t).2 = .node c l e r) :
    e ∈ t.toList ∧ e.key = k ∧ KeyedList.find Stored.key k (contents t) = some e.stored := by
  have hmem : e ∈ t.toList := by
    have hplug := RedBlack.plug_locate (f := Entry.key) (k := k) [] t
    rw [hnode] at hplug
    rw [show t = plug [] t from rfl, ← hplug, RedBlack.toList_plug]
    simp [RedBlack.Tree.toList]
  have hkey : e.key = k := by
    rcases RedBlack.locate_eq (f := Entry.key) (k := k) [] t with hnil | ⟨c', l', e', r', heq, hk⟩
    · rw [hnode] at hnil
      cases hnil
    · rw [hnode] at heq
      cases heq
      exact hk.symm
  refine ⟨hmem, hkey, ?_⟩
  rw [← hkey]
  exact KeyedList.find_of_mem (ordered_contents.mpr h.ordered) (List.mem_map_of_mem hmem)

/-- With fewer items the arrays of `RB_MAX_HEIGHT` entries are large enough. -/
def maxItems : ℕ := 131070

theorem SearchTree.height_lt (h : SearchTree t) (hsize : t.size < maxItems) :
    t.height < rbMaxHeight := by
  obtain ⟨n, hbalanced⟩ := h.balanced
  have := hbalanced.height_lt (b := 16) (by rw [maxItems] at hsize; omega)
  exact this

theorem node_mem_cells {e : Entry} (h : e ∈ t.toList) : ∃ c x y,
    (e.nodeCell c .left x y : Conc.Cell Kind (Kind.Rec ρ) Arg) ∈ cells t := by
  induction t with
  | nil => cases h
  | node c l v r ihl ihr =>
    rw [RedBlack.Tree.toList, List.mem_append, List.mem_cons] at h
    rcases h with h | rfl | h
    · obtain ⟨c', x, y, hmem⟩ := ihl h
      exact ⟨c', x, y, by simp [cells, hmem]⟩
    · exact ⟨c, pointer l, pointer r, by simp [cells]⟩
    · obtain ⟨c', x, y, hmem⟩ := ihr h
      exact ⟨c', x, y, by simp [cells, hmem]⟩

theorem item_mem_cells {e : Entry} (h : e ∈ t.toList) : (e.stored.cell :
    Conc.Cell Kind (Kind.Rec ρ) Arg) ∈ cells t := by
  induction t with
  | nil => cases h
  | node c l v r ihl ihr =>
    rw [RedBlack.Tree.toList, List.mem_append, List.mem_cons] at h
    rcases h with h | rfl | h
    · simp [cells, ihl h]
    · simp [cells]
    · simp [cells, ihr h]

end

section
variable {t : RedBlack.Tree Entry}

theorem link_rootCell (base : Node) (x : Option Arg) :
    ({ base with link := Function.update base.link .left x } : Node).link .left = x := by
  dsimp only
  rw [Function.update_self]

theorem cells_leaf (c : RedBlack.Color) (e : Entry) : (cells (.node c .nil e .nil) : Cells ρ) =
    {⟨.node, e.node, some ⟨e.stored.addr, fun _ => none, code c⟩⟩} + {e.stored.cell} := by
  rw [cells, cells, Entry.nodeCell, pointer, links_none, add_zero, add_zero]

theorem way_cons (tree : Arg) (fs : List (Frame Entry)) :
    ∃ top rest, way tree fs = top :: rest := by
  cases fs with
  | nil => exact ⟨_, _, rfl⟩
  | cons f fs => exact ⟨_, _, rfl⟩

end

def cellList : RedBlack.Tree Entry → List (Conc.Cell Kind (Kind.Rec ρ) Arg)
  | .nil => []
  | .node c l e r =>
    e.nodeCell c .left (pointer l) (pointer r) :: e.stored.cell :: (cellList l ++ cellList r)

theorem coe_cellList (t : RedBlack.Tree Entry) :
    (Multiset.ofList (cellList t) : Cells ρ) = cells t := by
  induction t with
  | nil => rfl
  | node c l e r ihl ihr =>
    rw [cells, ← ihl, ← ihr, cellList, ← Multiset.cons_coe, ← Multiset.cons_coe, ← Multiset.coe_add,
      ← Multiset.singleton_add, ← Multiset.singleton_add]
    abel

def heapOf (tree : Arg) (base : Node) (t : RedBlack.Tree Entry)
    (rest : List (Conc.Cell Kind (Kind.Rec ρ) Arg)) : Memory ρ :=
  Heap.ofCells (rootCell tree base (pointer t) :: (cellList t ++ rest))

theorem is_heapOf {tree : Arg} {base : Node} {t : RedBlack.Tree Entry}
    {rest : List (Conc.Cell Kind (Kind.Rec ρ) Arg)}
    (hnodup : ((rootCell tree base (pointer t) :: (cellList t ++ rest)).map
      Conc.Cell.place).Nodup) :
    (heapOf tree base t rest).Is (treeCells tree base t + Multiset.ofList rest) := by
  have his := Heap.is_ofCells hnodup
  rwa [← Multiset.cons_coe, ← Multiset.coe_add, coe_cellList, ← Multiset.singleton_add,
    ← add_assoc] at his

def numbered (k : UInt64) : Entry := ⟨k, ⟨k + 100, ⟨k, k + 200⟩⟩⟩

def leaf (c : RedBlack.Color) (k : UInt64) : RedBlack.Tree Entry := .node c .nil (numbered k) .nil

/-- Seven items. -/
def someTree : RedBlack.Tree Entry :=
  .node .black
    (.node .red (leaf .black 10) (numbered 20)
      (.node .black (leaf .red 25) (numbered 30) (leaf .red 35)))
    (numbered 40) (leaf .black 50)

theorem searchTree_someTree : SearchTree someTree :=
  ⟨by unfold KeyedList.Ordered; decide,
    2, .black (.red (.black .nil .nil) (.black (.red .nil .nil) (.red .nil .nil)))
      (.black .nil .nil)⟩

def someRoot : Node := ⟨0, fun _ => none, .black⟩

theorem is_someTree : (heapOf 1 someRoot someTree [] : Memory Unit).Is
    (treeCells 1 someRoot someTree + 0) := is_heapOf (by decide +kernel)

end Clara.Rb
