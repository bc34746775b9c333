import Clara.Common.Set
import Clara.Lib.Heap

/-! `rb.c` and `set.c` as they are compiled, with the nodes of the tree on the heap. One thread uses
the sets, so their locks are left out. -/
namespace Clara.Rb

open Conc HeapProg

inductive Color
  | black
  | red
  deriving DecidableEq

inductive Side
  | left
  | right
  deriving DecidableEq

def Side.other : Side → Side
  | left => right
  | right => left

/-- `rb_node`. The one at the address of an `rb_tree` is its member `root`. -/
structure Node where
  data : Arg
  link : Side → Option Arg
  color : Color

/-- `rb_traverser`; the stack is written from its top. -/
structure Traverser where
  init : Bool
  stack : List Arg
  p : Option Arg

structure SetRecord where
  tree : Arg
  trav : Traverser

/-- What stands on the heap: besides nodes, items and sets the records that are entered. -/
inductive Kind
  | node
  | item
  | set
  | record
  deriving DecidableEq

abbrev Kind.Rec (ρ : Type) : Kind → Type
  | .node => Node
  | .item => Item Arg
  | .set => SetRecord
  | .record => ρ

abbrev Memory (ρ : Type) := Heap Kind (Kind.Rec ρ) Arg

abbrev RbProg (ρ α : Type) := HeapProg Kind (Kind.Rec ρ) Arg α

abbrev Fault := HeapFault Kind

/-- `RB_MAX_HEIGHT`. -/
def rbMaxHeight : ℕ := 32

variable {ρ : Type}

def setColor (a : Arg) (color : Color) : RbProg ρ Unit := do
  let n ← load Kind.node a
  store Kind.node a { n with color := color }

def setLink (a : Arg) (d : Side) (x : Option Arg) : RbProg ρ Unit := do
  let n ← load Kind.node a
  store Kind.node a { n with link := Function.update n.link d x }

def descend : (room : ℕ) → (stack : List Arg) → (p : Option Arg) → RbProg ρ (List Arg)
  | _, stack, none => pure stack
  | 0, _, some _ => fail .overflow
  | room + 1, stack, some p => do
    let n ← load Kind.node p
    descend room (p :: stack) (n.link .left)

/-- The next item, `NULL` behind the last one. -/
def rbTraverse (tree : Arg) (trav : Traverser) : RbProg ρ (Option Arg × Traverser) := do
  let (stack, p) ← (if trav.init then do
      let p ← deref trav.p
      let n ← load Kind.node p
      pure (trav.stack, n.link .right)
    else do
      let root ← load Kind.node tree
      pure ([], root.link .left) : RbProg ρ (List Arg × Option Arg))
  match ← descend (rbMaxHeight - stack.length) stack p with
  | [] => pure (none, ⟨false, [], none⟩)
  | p :: stack => do
    let n ← load Kind.node p
    pure (some n.data, ⟨true, stack, some p⟩)

/-- The nodes on the way to a node with the directions taken there, from the last one to the root
of the tree. -/
abbrev Path := List (Arg × Side)

def rbSearch (key : GlobalId) : (room : ℕ) → Path → Option Arg → RbProg ρ (Option (Arg × Path))
  | _, _, none => pure none
  | room, pa, some z => do
    let n ← load Kind.node z
    let item ← load Kind.item n.data
    if key = item.key then pure (some (z, pa))
    else
      match room with
      | 0 => fail .overflow
      | room + 1 =>
        let d := if key < item.key then Side.left else Side.right
        rbSearch key room ((z, d) :: pa) (n.link d)

def rbSuccessor : (room : ℕ) → Path → (y : Arg) → RbProg ρ (Arg × Path)
  | room, pa, y => do
    let n ← load Kind.node y
    match n.link .left with
    | none => pure (y, pa)
    | some y' =>
      match room with
      | 0 => fail .overflow
      | room + 1 => rbSuccessor room ((y, .left) :: pa) y'

def linkTop (pa : Path) (x : Option Arg) : RbProg ρ Unit :=
  match pa with
  | [] => fail .overflow
  | (p, d) :: _ => setLink p d x

/-- RB-Delete, lines 1 to 15: the node that is taken out, its child, and the way to it. -/
def rbUnlink (z : Arg) (pa : Path) : RbProg ρ (Arg × Option Arg × Path) := do
  let n ← load Kind.node z
  match n.link .left, n.link .right with
  | some _, some right =>
    if pa.length < rbMaxHeight then
      let (y, pa) ← rbSuccessor (rbMaxHeight - pa.length - 1) ((z, .right) :: pa) right
      let ny ← load Kind.node y
      let x := ny.link .right
      let nz ← load Kind.node z
      store Kind.node z { nz with data := ny.data }
      linkTop pa x
      pure (y, x, pa)
    else fail .overflow
  | left, right => do
    let x := if left.isSome then left else right
    linkTop pa x
    pure (z, x, pa)

def isBlack : Option Arg → RbProg ρ Bool
  | none => pure true
  | some x => do
    let n ← load Kind.node x
    pure (n.color = .black)

/-- Lines 7 and 20: `p` sinks to the side `d`, and its child `w` takes its place. -/
def rotate (p w : Arg) (d : Side) (rest : Path) : RbProg ρ Unit := do
  let nw ← load Kind.node w
  setLink p d.other (nw.link d)
  setLink w d (some p)
  linkTop rest (some w)

/-- Case 1, a red sibling `w` of the child `d` of `p`: the new sibling and the new way to `p`. -/
def rbCase1 (p w : Arg) (d : Side) (rest : Path) : RbProg ρ (Arg × Path) := do
  let nw ← load Kind.node w
  if nw.color = .red then
    setColor w .black
    setColor p .red
    rotate p w d rest
    if rest.length + 1 < rbMaxHeight then
      let np ← load Kind.node p
      let w' ← deref (np.link d.other)
      pure (w', (w, d) :: rest)
    else fail .overflow
  else pure (w, rest)

def bothBlack (w : Arg) : RbProg ρ Bool := do
  let nw ← load Kind.node w
  if ← isBlack (nw.link .left) then isBlack (nw.link .right) else pure false

def rbCase3 (p w : Arg) (d : Side) : RbProg ρ Arg := do
  let nw ← load Kind.node w
  if ← isBlack (nw.link d.other) then
    let y ← deref (nw.link d)
    setColor y .black
    setColor w .red
    let ny ← load Kind.node y
    setLink w d (ny.link d.other)
    setLink y d.other (some w)
    setLink p d.other (some y)
    pure y
  else pure w

def rbCase4 (p w : Arg) (d : Side) (rest : Path) : RbProg ρ Unit := do
  let np ← load Kind.node p
  setColor w np.color
  setColor p .black
  let nw ← load Kind.node w
  let far ← deref (nw.link d.other)
  setColor far .black
  rotate p w d rest

def blacken : Option Arg → RbProg ρ Unit
  | none => pure ()
  | some x => setColor x .black

/-- RB-Delete-Fixup. The branches for the two sides are mirror images. -/
def rbFixup (tree : Arg) : (fuel : ℕ) → Option Arg → Path → RbProg ρ Unit
  | 0, _, _ => spin
  | fuel + 1, x, pa =>
    match pa with
    | (p, d) :: g :: rest => do
      if ← isBlack x then
        let np ← load Kind.node p
        let w ← deref (np.link d.other)
        let (w, rest) ← rbCase1 p w d (g :: rest)
        if ← bothBlack w then
          setColor w .red
          rbFixup tree fuel (some p) rest
        else
          let w ← rbCase3 p w d
          rbCase4 p w d rest
          let root ← load Kind.node tree
          blacken (root.link .left)
      else blacken x
    | _ => blacken x

/-- The item that was found; its node, or the next one, is freed. Each turn of the loop but the last
is one step up. -/
def rbDelete (tree : Arg) (key : GlobalId) : RbProg ρ (Option Arg) := do
  let root ← load Kind.node tree
  match ← rbSearch key (rbMaxHeight - 1) [(tree, .left)] (root.link .left) with
  | none => pure none
  | some (z, pa) => do
    let nz ← load Kind.node z
    let (y, x, pa) ← rbUnlink z pa
    let ny ← load Kind.node y
    free Kind.node y
    if ny.color = .red then pure (some nz.data)
    else
      rbFixup tree (pa.length + 1) x pa
      pure (some nz.data)

/-- The traversal in postorder. The stack has the nodes, with whether their right subtree has been
entered. -/
def rbDestroyNodes : (fuel : ℕ) → List (Arg × Bool) → Option Arg → RbProg ρ Unit
  | 0, _, _ => spin
  | fuel + 1, stack, some p => do
    if stack.length < rbMaxHeight then
      let n ← load Kind.node p
      rbDestroyNodes fuel ((p, false) :: stack) (n.link .left)
    else fail .overflow
  | _ + 1, [], none => pure ()
  | fuel + 1, (p, false) :: stack, none => do
    let n ← load Kind.node p
    rbDestroyNodes fuel ((p, true) :: stack) (n.link .right)
  | fuel + 1, (p, true) :: stack, none => do
    free Kind.node p
    rbDestroyNodes fuel stack none

def rbDestroy (fuel : ℕ) (tree : Arg) : RbProg ρ Unit := do
  let root ← load Kind.node tree
  rbDestroyNodes fuel [] (root.link .left)
  free Kind.node tree

def setStart (set : Arg) : RbProg ρ Unit := do
  let s ← load Kind.set set
  store Kind.set set { s with trav := { s.trav with init := false } }

def setNext (set : Arg) : RbProg ρ (Option Arg) := do
  let s ← load Kind.set set
  let (item, trav) ← rbTraverse s.tree s.trav
  store Kind.set set { s with trav := trav }
  match item with
  | none => pure none
  | some item => do
    let i ← load Kind.item item
    pure (some i.data)

def setRemove (set : Arg) (key : GlobalId) : RbProg ρ Bool := do
  let s ← load Kind.set set
  match ← rbDelete s.tree key with
  | none => pure false
  | some item => do
    free Kind.item item
    pure true

def setDestroy (fuel : ℕ) (set : Arg) : RbProg ρ Unit := do
  let s ← load Kind.set set
  rbDestroy fuel s.tree
  free Kind.set set

end Clara.Rb
