import Clara.Common.RbSet
import Clara.Lib.RedBlack

/-! The trees of `rb.c` on the heap: the cells of a tree, and of the way from one of its subtrees back
to the root. -/
namespace Clara.Rb

open Conc HeapProg
open RedBlack (Frame plug)

/-- An item with what stands in it. -/
structure Stored where
  addr : Arg
  item : Item Arg

def Stored.key (s : Stored) : GlobalId := s.item.key

/-- A node and its item. -/
structure Entry where
  node : Arg
  stored : Stored

def Entry.key (e : Entry) : GlobalId := e.stored.key

def index : RedBlack.Side → Side
  | .left => .left
  | .right => .right

def code : RedBlack.Color → Color
  | .black => .black
  | .red => .red

@[simp] theorem index_other (d : RedBlack.Side) : (index d).other = index d.other := by
  cases d <;> rfl

@[simp] theorem index_inj {d d' : RedBlack.Side} : index d = index d' ↔ d = d' := by
  cases d <;> cases d' <;> simp [index]

@[simp] theorem code_inj {c c' : RedBlack.Color} : code c = code c' ↔ c = c' := by
  cases c <;> cases c' <;> simp [code]

theorem code_eq_red {c : RedBlack.Color} : code c = .red ↔ c = .red := by
  cases c <;> simp [code]

def links (d : RedBlack.Side) (x y : Option Arg) : Side → Option Arg :=
  fun s => if s = index d then x else y

section
variable {d : RedBlack.Side} {x y z : Option Arg}

@[simp] theorem links_near : links d x y (index d) = x := if_pos rfl

@[simp] theorem links_far : links d x y (index d.other) = y := by
  cases d <;> rfl

@[simp] theorem update_links_near :
    Function.update (links d x y) (index d) z = links d z y := by
  funext s
  by_cases hs : s = index d
  · rw [hs, Function.update_self, links_near]
  · rw [Function.update_of_ne hs, links, links, if_neg hs, if_neg hs]

theorem links_other : links d.other x y = links d y x := by
  funext s
  cases d <;> cases s <;> rfl

@[simp] theorem update_links_far :
    Function.update (links d x y) (index d.other) z = links d x z := by
  rw [← links_other, update_links_near, links_other]

theorem links_none : links d none none = fun _ => none := by
  funext s
  exact ite_self _

end

variable {ρ : Type}

abbrev Cells (ρ : Type) := Multiset (Conc.Cell Kind (Kind.Rec ρ) Arg)

def Entry.nodeCell (e : Entry) (c : RedBlack.Color) (d : RedBlack.Side) (x y : Option Arg) :
    Conc.Cell Kind (Kind.Rec ρ) Arg :=
  ⟨.node, e.node, some ⟨e.stored.addr, links d x y, code c⟩⟩

def Stored.cell (s : Stored) : Conc.Cell Kind (Kind.Rec ρ) Arg := ⟨.item, s.addr, some s.item⟩

def pointer : RedBlack.Tree Entry → Option Arg
  | .nil => none
  | .node _ _ e _ => some e.node

def cells : RedBlack.Tree Entry → Cells ρ
  | .nil => 0
  | .node c l e r =>
    {e.nodeCell c .left (pointer l) (pointer r)} + {e.stored.cell} + cells l + cells r

def rootCell (tree : Arg) (base : Node) (x : Option Arg) : Conc.Cell Kind (Kind.Rec ρ) Arg :=
  ⟨.node, tree, some { base with link := Function.update base.link .left x }⟩

def wayCells (tree : Arg) (base : Node) : List (Frame Entry) → Option Arg → Cells ρ
  | [], x => {rootCell tree base x}
  | f :: fs, x =>
    {f.value.nodeCell f.color f.side x (pointer f.sibling)} + {f.value.stored.cell} +
      cells f.sibling + wayCells tree base fs (some f.value.node)

/-- The whole tree. -/
def treeCells (tree : Arg) (base : Node) (t : RedBlack.Tree Entry) : Cells ρ :=
  {rootCell tree base (pointer t)} + cells t

def way (tree : Arg) : List (Frame Entry) → Path
  | [] => [(tree, .left)]
  | f :: fs => (f.value.node, index f.side) :: way tree fs

section
variable {d : RedBlack.Side} {c : RedBlack.Color} {t s : RedBlack.Tree Entry} {e : Entry}
  {tree : Arg} {base : Node} {fs : List (Frame Entry)}

theorem exists_pointer (h : t ≠ .nil) : ∃ x, pointer t = some x := by
  cases t with
  | nil => exact absurd rfl h
  | node c l e r => exact ⟨e.node, rfl⟩

@[simp] theorem pointer_on : pointer (.on d c t e s) = some e.node := by
  cases d <;> rfl

theorem nodeCell_other (e : Entry) (c : RedBlack.Color) (d : RedBlack.Side) (x y : Option Arg) :
    (e.nodeCell c d.other x y : Conc.Cell Kind (Kind.Rec ρ) Arg) = e.nodeCell c d y x := by
  rw [Entry.nodeCell, Entry.nodeCell, links_other]

theorem cells_on : (cells (.on d c t e s) : Cells ρ) =
    {e.nodeCell c d (pointer t) (pointer s)} + {e.stored.cell} + cells t + cells s := by
  cases d with
  | left => rfl
  | right =>
    have hlinks : (e.nodeCell c .right (pointer t) (pointer s) :
        Conc.Cell Kind (Kind.Rec ρ) Arg) = e.nodeCell c .left (pointer s) (pointer t) :=
      nodeCell_other e c .left _ _
    rw [hlinks]
    change {e.nodeCell c .left (pointer s) (pointer t)} + {e.stored.cell} + cells s + cells t = _
    abel

@[simp] theorem length_way : (way tree fs).length = fs.length + 1 := by
  induction fs with
  | nil => rfl
  | cons f fs ih => rw [way, List.length_cons, ih, List.length_cons]

theorem wayCells_add_cells : (wayCells tree base fs (pointer t) + cells t : Cells ρ) =
    treeCells tree base (plug fs t) := by
  induction fs generalizing t with
  | nil => rfl
  | cons f fs ih =>
    have hplug : some f.value.node = pointer (f.plug t) := by rw [Frame.plug, pointer_on]
    rw [plug, ← ih, ← hplug, wayCells, Frame.plug, cells_on]
    abel

end

section
variable {e : Entry} {c : RedBlack.Color} {d : RedBlack.Side} {x y : Option Arg} {P : Cells ρ}
  {tree : Arg} {base : Node}

theorem load_node (h : e.nodeCell c d x y ∈ P) :
    Triple P (load Kind.node e.node) ⟨e.stored.addr, links d x y, code c⟩ P := Triple.load h

theorem load_item {s : Stored} (h : s.cell ∈ P) : Triple P (load Kind.item s.addr) s.item P :=
  Triple.load h

theorem load_root (base : Node) (x : Option Arg) (h : rootCell tree base x ∈ P) :
    Triple P (load Kind.node tree) { base with link := Function.update base.link .left x } P :=
  Triple.load h

theorem setColor_node (e : Entry) (c c' : RedBlack.Color) (d : RedBlack.Side) (x y : Option Arg)
    (R : Cells ρ) : Triple ({e.nodeCell c d x y} + R) (setColor e.node (code c')) ()
      ({e.nodeCell c' d x y} + R) := by
  refine .bind (load_node (c := c) (d := d) (x := x) (y := y) ?_) ?_
  · exact Multiset.mem_add.mpr (.inl (Multiset.mem_singleton_self _))
  · exact Triple.store _ R

theorem setLink_near (e : Entry) (c : RedBlack.Color) (d : RedBlack.Side) (x y z : Option Arg)
    (R : Cells ρ) : Triple ({e.nodeCell c d x y} + R) (setLink e.node (index d) z) ()
      ({e.nodeCell c d z y} + R) := by
  refine .bind (load_node (c := c) (d := d) (x := x) (y := y) ?_) ?_
  · exact Multiset.mem_add.mpr (.inl (Multiset.mem_singleton_self _))
  · rw [update_links_near]
    exact Triple.store _ R

theorem setLink_far (e : Entry) (c : RedBlack.Color) (d : RedBlack.Side) (x y z : Option Arg)
    (R : Cells ρ) : Triple ({e.nodeCell c d x y} + R) (setLink e.node (index d.other) z) ()
      ({e.nodeCell c d x z} + R) := by
  refine .bind (load_node (c := c) (d := d) (x := x) (y := y) ?_) ?_
  · exact Multiset.mem_add.mpr (.inl (Multiset.mem_singleton_self _))
  · rw [update_links_far]
    exact Triple.store _ R

/-- The pointer to the subtree is changed, in its parent or in the root of the tree. -/
theorem linkTop_way (tree : Arg) (base : Node) (fs : List (Frame Entry)) (x y : Option Arg)
    (R : Cells ρ) : Triple (wayCells tree base fs x + R) (linkTop (way tree fs) y) ()
      (wayCells tree base fs y + R) := by
  cases fs with
  | nil =>
    refine .bind (load_root base x ?_) ?_
    · exact Multiset.mem_add.mpr (.inl (Multiset.mem_singleton_self _))
    · rw [Function.update_idem]
      exact Triple.store _ R
  | cons f fs =>
    refine (setLink_near f.value f.color f.side x (pointer f.sibling) y
      ({f.value.stored.cell} + cells f.sibling + wayCells tree base fs (some f.value.node) +
        R)).of_eq ?_ ?_ <;>
    · rw [wayCells]
      abel

end

theorem decide_code (c c' : RedBlack.Color) : decide (code c = code c') = decide (c = c') := by
  cases c <;> cases c' <;> rfl

theorem isBlack_tree {t : RedBlack.Tree Entry} {P : Cells ρ} (h : ∀ c ∈ cells t, c ∈ P) :
    Triple P (isBlack (pointer t)) (decide (t.color = .black)) P := by
  cases t with
  | nil => exact Triple.pure _ _
  | node c l e r =>
    refine .bind (load_node (c := c) (d := .left) (x := pointer l) (y := pointer r)
      (h _ (by simp [cells]))) ?_
    exact (Triple.pure _ _).of_result (decide_code _ .black)

theorem isRed_tree {t : RedBlack.Tree Entry} {P : Cells ρ} (h : ∀ c ∈ cells t, c ∈ P) :
    Triple P (isRed (pointer t)) (decide (t.color = .red)) P := by
  cases t with
  | nil => exact Triple.pure _ _
  | node c l e r =>
    refine .bind (load_node (c := c) (d := .left) (x := pointer l) (y := pointer r)
      (h _ (by simp [cells]))) ?_
    exact (Triple.pure _ _).of_result (decide_code _ .red)

theorem blacken_cells (t : RedBlack.Tree Entry) (R : Cells ρ) :
    Triple (cells t + R) (blacken (pointer t)) () (cells t.blacken + R) := by
  cases t with
  | nil => exact Triple.pure _ _
  | node c l e r =>
    refine (setColor_node e c .black .left (pointer l) (pointer r)
      ({e.stored.cell} + cells l + cells r + R)).of_eq ?_ ?_ <;>
    · simp only [RedBlack.Tree.blacken, cells]
      abel

theorem pointer_blacken (t : RedBlack.Tree Entry) : pointer t.blacken = pointer t := by
  cases t <;> rfl

end Clara.Rb
