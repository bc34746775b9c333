import Clara.Common.Rb
import Clara.Lib.Footprint

/-! The operations of `rb.c` and `set.c` that enter and look up. `malloc` returns the addresses that
are given with a call; the member `count` of the tree is passed along. -/
namespace Clara.Rb

open Conc HeapProg

variable {ρ : Type}

/-- `rb_create`; the data and the colour of the root stay what they were. -/
def rbCreate (tree : Arg) (root : Node) : RbProg ρ ℤ := do
  alloc Kind.node tree { root with link := fun _ => none }
  pure 0

def rbDescend (item : Arg) : (room : ℕ) → Path → (x : Arg) → RbProg ρ (Option Arg × Path)
  | room, ap, x => do
    let new ← load Kind.item item
    let n ← load Kind.node x
    let old ← load Kind.item n.data
    if new.key = old.key then pure (some x, ap)
    else
      match room with
      | 0 => fail .overflow
      | room + 1 =>
        let d := if new.key < old.key then Side.left else Side.right
        match n.link d with
        | none => pure (none, (x, d) :: ap)
        | some y => rbDescend item room ((x, d) :: ap) y

def rbRecolor (p y g : Arg) : RbProg ρ Unit := do
  setColor y .black
  setColor p .black
  setColor g .red

def rbCase2 (p g : Arg) (dp dg : Side) : RbProg ρ Arg :=
  if dp = dg.other then do
    let nx ← load Kind.node p
    let y ← deref (nx.link dg.other)
    let ny ← load Kind.node y
    setLink p dg.other (ny.link dg)
    setLink y dg (some p)
    setLink g dg (some y)
    pure y
  else pure p

def rbTurn (g y : Arg) (dg : Side) (rest : Path) : RbProg ρ Unit := do
  setColor g .red
  setColor y .black
  let ny ← load Kind.node y
  setLink g dg (ny.link dg.other)
  setLink y dg.other (some g)
  linkTop rest (some y)

def isRed : Option Arg → RbProg ρ Bool
  | none => pure false
  | some y => do
    let n ← load Kind.node y
    pure (n.color = .red)

/-- The loop after a red node was put in. The branches for the two sides are mirror images. -/
def rbRebalance : Path → RbProg ρ Unit
  | (p, dp) :: (g, dg) :: top :: rest => do
    let np ← load Kind.node p
    if np.color = .red then
      let ng ← load Kind.node g
      if ← isRed (ng.link dg.other) then
        let y ← deref (ng.link dg.other)
        rbRecolor p y g
        rbRebalance (top :: rest)
      else
        let y ← rbCase2 p g dp dg
        rbTurn g y dg (top :: rest)
    else pure ()
  | _ => pure ()

/-- `fresh` is the node that is allocated. Beside the node with the item comes what `count` is then;
nothing when the assertion about it fails. -/
def rbProbe (tree item fresh : Arg) (count : ℤ) : RbProg ρ (Option (Arg × ℤ)) := do
  let root ← load Kind.node tree
  match root.link .left with
  | none =>
    if count + 1 = 1 then
      alloc Kind.node fresh ⟨item, fun _ => none, .black⟩
      setLink tree .left (some fresh)
      pure (some (fresh, count + 1))
    else pure none
  | some x => do
    match ← rbDescend item (rbMaxHeight - 1) [(tree, .left)] x with
    | (some x, _) => pure (some (x, count))
    | (none, ap) => do
      alloc Kind.node fresh ⟨item, fun _ => none, .red⟩
      linkTop ap (some fresh)
      rbRebalance ap
      let root ← load Kind.node tree
      let x ← deref (root.link .left)
      setColor x .black
      pure (some (fresh, count + 1))

/-- `NULL` when the item was entered, the duplicate otherwise. -/
def rbInsert (tree item fresh : Arg) (count : ℤ) : RbProg ρ (Option (Option Arg × ℤ)) := do
  match ← rbProbe tree item fresh count with
  | none => pure none
  | some (p, count) => do
    let n ← load Kind.node p
    pure (some (if n.data = item then none else some n.data, count))

def rbFindFrom (key : GlobalId) : (fuel : ℕ) → (p : Option Arg) → RbProg ρ (Option Arg)
  | _, none => pure none
  | 0, some _ => spin
  | fuel + 1, some p => do
    let n ← load Kind.node p
    let item ← load Kind.item n.data
    if key < item.key then rbFindFrom key fuel (n.link .left)
    else if item.key < key then rbFindFrom key fuel (n.link .right)
    else pure (some n.data)

def rbFind (fuel : ℕ) (tree : Arg) (key : GlobalId) : RbProg ρ (Option Arg) := do
  let root ← load Kind.node tree
  rbFindFrom key fuel (root.link .left)

/-- The traverser is not initialised. -/
def setCreate (set tree : Arg) (root : Node) (trav : Traverser) : RbProg ρ ℤ := do
  alloc Kind.set set ⟨tree, trav⟩
  rbCreate tree root

/-- The variable `item` is overwritten with what `rb_insert` returns, so that on a duplicate it is the
item of the tree that is freed. -/
def setInsert (set : Arg) (key : GlobalId) (data item fresh : Arg) (count : ℤ) :
    RbProg ρ (Option (Bool × ℤ)) := do
  alloc Kind.item item ⟨key, data⟩
  let s ← load Kind.set set
  match ← rbInsert s.tree item fresh count with
  | none => pure none
  | some (some item, count) => do
    free Kind.item item
    pure (some (false, count))
  | some (none, count) => pure (some (true, count))

def setFind (fuel : ℕ) (set : Arg) (key : GlobalId) : RbProg ρ (Option Arg) := do
  let s ← load Kind.set set
  match ← rbFind fuel s.tree key with
  | none => pure none
  | some item => do
    let i ← load Kind.item item
    pure (some i.data)

/-- `tree->count--` of `rb_delete`. -/
def countAfter (count : ℤ) (found : Bool) : ℤ := if found then count - 1 else count

end Clara.Rb
