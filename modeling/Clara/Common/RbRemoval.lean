import Clara.Common.RbSearch

/-! `rb_delete` on the heap: the balance is restored as `RedBlack.deleteFix` says, and the item is
gone. -/
namespace Clara.Rb

open Conc HeapProg
open RedBlack (Frame plug locate leftmost resolve deleteFix)
open RedBlack.Tree (on)

variable {ρ : Type}

section
variable (p w y : Entry) (c c' c'' : RedBlack.Color) (d d' : RedBlack.Side)

theorem rotate_nodes (x near far : Option Arg) (tree : Arg) (base : Node)
    (rest : List (Frame Entry)) (R : Cells ρ) :
    Triple ({p.nodeCell c d x (some w.node)} + {w.nodeCell c' d near far} +
        wayCells tree base rest (some p.node) + R)
      (rotate p.node w.node (index d) (way tree rest)) ()
      ({p.nodeCell c d x near} + {w.nodeCell c' d (some p.node) far} +
        wayCells tree base rest (some w.node) + R) := by
  rw [rotate, index_other]
  refine .bind (load_node (c := c') (d := d) (x := near) (y := far) (by simp)) ?_
  dsimp only
  rw [links_near]
  refine .bind ((setLink_far p c d x (some w.node) near ({w.nodeCell c' d near far} +
    wayCells tree base rest (some p.node) + R)).of_eq (by abel) rfl) ?_
  refine .bind ((setLink_near w c' d near far (some p.node) ({p.nodeCell c d x near} +
    wayCells tree base rest (some p.node) + R)).of_eq (by abel) rfl) ?_
  exact (linkTop_way tree base rest (some p.node) (some w.node) ({p.nodeCell c d x near} +
    {w.nodeCell c' d (some p.node) far} + R)).of_eq (by abel) (by abel)

/-- The near child `y` of the sibling `w` comes above it. -/
theorem rbCase3_nodes {far : RedBlack.Tree Entry} (hfar : far.color = .black) (x a b : Option Arg)
    (R : Cells ρ) :
    Triple ({p.nodeCell c d x (some w.node)} + {w.nodeCell c' d (some y.node) (pointer far)} +
        {y.nodeCell c'' d a b} + (cells far + R))
      (rbCase3 p.node w.node (index d)) y.node
      ({p.nodeCell c d x (some y.node)} + {y.nodeCell .black d a (some w.node)} +
        {w.nodeCell .red d b (pointer far)} + (cells far + R)) := by
  rw [rbCase3, index_other]
  refine .bind (load_node (c := c') (d := d) (x := some y.node) (y := pointer far) (by simp)) ?_
  dsimp only
  rw [links_far, links_near]
  refine .bind (isBlack_tree (t := far) (by simp +contextual)) ?_
  rw [if_pos (decide_eq_true hfar)]
  refine .bind (.deref y.node _) ?_
  refine .bind ((setColor_node y c'' .black d a b ({p.nodeCell c d x (some w.node)} +
    {w.nodeCell c' d (some y.node) (pointer far)} + (cells far + R))).of_eq (by abel) rfl) ?_
  refine .bind ((setColor_node w c' .red d (some y.node) (pointer far)
    ({p.nodeCell c d x (some w.node)} + {y.nodeCell .black d a b} + (cells far + R))).of_eq
      (by abel) rfl) ?_
  refine .bind (load_node (c := .black) (d := d) (x := a) (y := b) (by simp)) ?_
  dsimp only
  rw [links_far]
  refine .bind ((setLink_near w .red d (some y.node) (pointer far) b
    ({p.nodeCell c d x (some w.node)} + {y.nodeCell .black d a b} + (cells far + R))).of_eq
      (by abel) rfl) ?_
  refine .bind ((setLink_far y .black d a b (some w.node) ({p.nodeCell c d x (some w.node)} +
    {w.nodeCell .red d b (pointer far)} + (cells far + R))).of_eq (by abel) rfl) ?_
  refine .bind ((setLink_far p c d x (some w.node) (some y.node) ({y.nodeCell .black d a
    (some w.node)} + {w.nodeCell .red d b (pointer far)} + (cells far + R))).of_eq (by abel) rfl) ?_
  exact (Triple.pure _ _).of_eq rfl (by abel)

theorem rbCase3_none {far : RedBlack.Tree Entry} (hfar : far.color ≠ .black) (x : Option Arg)
    {P : Cells ρ} (hw : w.nodeCell c d x (pointer far) ∈ P) (hcells : ∀ c' ∈ cells far, c' ∈ P) :
    Triple P (rbCase3 p.node w.node (index d)) w.node P := by
  rw [rbCase3, index_other]
  refine .bind (load_node hw) ?_
  dsimp only
  rw [links_far]
  refine .bind (isBlack_tree (t := far) hcells) ?_
  rw [if_neg (by simpa using hfar)]
  exact Triple.pure _ _

/-- The sibling `w` comes above `p`, and its far child `y` is painted over. -/
theorem rbCase4_nodes (x near a b : Option Arg) (tree : Arg) (base : Node)
    (rest : List (Frame Entry)) (R : Cells ρ) :
    Triple ({p.nodeCell c d x (some w.node)} + {w.nodeCell c' d near (some y.node)} +
        {y.nodeCell c'' d' a b} + wayCells tree base rest (some p.node) + R)
      (rbCase4 p.node w.node (index d) (way tree rest)) ()
      ({p.nodeCell .black d x near} + {w.nodeCell c d (some p.node) (some y.node)} +
        {y.nodeCell .black d' a b} + wayCells tree base rest (some w.node) + R) := by
  rw [rbCase4, index_other]
  refine .bind (load_node (c := c) (d := d) (x := x) (y := some w.node) (by simp)) ?_
  refine .bind ((setColor_node w c' c d near (some y.node) ({p.nodeCell c d x (some w.node)} +
    {y.nodeCell c'' d' a b} + wayCells tree base rest (some p.node) + R)).of_eq (by abel) rfl) ?_
  refine .bind ((setColor_node p c .black d x (some w.node) ({w.nodeCell c d near (some y.node)} +
    {y.nodeCell c'' d' a b} + wayCells tree base rest (some p.node) + R)).of_eq (by abel) rfl) ?_
  refine .bind (load_node (c := c) (d := d) (x := near) (y := some y.node) (by simp)) ?_
  dsimp only
  rw [links_far]
  refine .bind (.deref y.node _) ?_
  refine .bind ((setColor_node y c'' .black d' a b ({p.nodeCell .black d x (some w.node)} +
    {w.nodeCell c d near (some y.node)} + wayCells tree base rest (some p.node) + R)).of_eq
      (by abel) rfl) ?_
  exact (rotate_nodes p w .black c d x near (some y.node) tree base rest
    ({y.nodeCell .black d' a b} + R)).of_eq (by abel) (by abel)

end

theorem bothBlack_tree {w : Entry} {c : RedBlack.Color} {d : RedBlack.Side}
    (near far : RedBlack.Tree Entry) {P : Cells ρ} (h : ∀ c' ∈ cells (on d c near w far), c' ∈ P) :
    Triple P (bothBlack w.node) (decide (near.color = .black ∧ far.color = .black)) P := by
  have hnear : ∀ c' ∈ cells near, c' ∈ P := fun c' hc => h c' (by simp [cells_on, hc])
  have hfar : ∀ c' ∈ cells far, c' ∈ P := fun c' hc => h c' (by simp [cells_on, hc])
  have hw : w.nodeCell c d (pointer near) (pointer far) ∈ P := h _ (by simp [cells_on])
  refine .bind (load_node hw) ?_
  cases d with
  | left =>
    refine .bind (isBlack_tree (t := near) hnear) ?_
    cases hc : decide (near.color = RedBlack.Color.black) with
    | false => exact (Triple.pure _ _).of_result (by simp_all)
    | true => exact (isBlack_tree (t := far) hfar).of_result (by simp_all)
  | right =>
    refine .bind (isBlack_tree (t := far) hfar) ?_
    cases hc : decide (far.color = RedBlack.Color.black) with
    | false => exact (Triple.pure _ _).of_result (by simp_all)
    | true => exact (isBlack_tree (t := near) hnear).of_result (by simp_all)

section
variable {tree : Arg} {base : Node} {p : Frame Entry} {rest : List (Frame Entry)} {w : Entry}
  {x near far : RedBlack.Tree Entry}

/-- Case 1: the red sibling comes above `p`, and its near child is the new sibling. -/
theorem rbCase1_red (hw : p.sibling = on p.side .red near w far) {y : Arg}
    (hy : pointer near = some y) (hroom : rest.length + 2 < rbMaxHeight) :
    Triple (wayCells tree base (p :: rest) (pointer x) + cells x : Cells ρ)
      (rbCase1 p.value.node w.node (index p.side) (way tree rest))
      (y, way tree (⟨.black, w, p.side, far⟩ :: rest))
      (wayCells tree base (⟨.red, p.value, p.side, near⟩ :: ⟨.black, w, p.side, far⟩ :: rest)
        (pointer x) + cells x) := by
  have hcells : (wayCells tree base (p :: rest) (pointer x) + cells x : Cells ρ) =
      {w.nodeCell .red p.side (pointer near) (pointer far)} +
        ({p.value.nodeCell p.color p.side (pointer x) (some w.node)} +
          wayCells tree base rest (some p.value.node) + ({p.value.stored.cell} + {w.stored.cell} +
            cells near + cells far + cells x)) := by
    rw [wayCells, hw, pointer_on, cells_on]
    abel
  rw [hcells, rbCase1]
  refine .bind (load_node (c := .red) (d := p.side) (x := pointer near) (y := pointer far)
    (by simp)) ?_
  rw [if_pos (code_eq_red.mpr rfl)]
  refine .bind (setColor_node w .red .black p.side (pointer near) (pointer far) _) ?_
  refine .bind ((setColor_node p.value p.color .red p.side (pointer x) (some w.node)
    ({w.nodeCell .black p.side (pointer near) (pointer far)} +
      wayCells tree base rest (some p.value.node) + ({p.value.stored.cell} + {w.stored.cell} +
        cells near + cells far + cells x))).of_eq (by abel) rfl) ?_
  refine .bind ((rotate_nodes p.value w .red .black p.side (pointer x) (pointer near) (pointer far)
    tree base rest ({p.value.stored.cell} + {w.stored.cell} + cells near + cells far +
      cells x)).of_eq (by abel) rfl) ?_
  rw [if_pos (by rw [length_way]; exact hroom)]
  refine .bind (load_node (c := .red) (d := p.side) (x := pointer x) (y := pointer near)
    (by simp)) ?_
  dsimp only
  rw [index_other, links_far, hy]
  refine .bind (.deref y _) ((Triple.pure _ _).of_eq rfl ?_)
  rw [wayCells, wayCells, hy]
  abel

theorem rbCase1_black {c : RedBlack.Color} (hw : p.sibling = on p.side c near w far)
    (hc : c ≠ .red) :
    Triple (wayCells tree base (p :: rest) (pointer x) + cells x : Cells ρ)
      (rbCase1 p.value.node w.node (index p.side) (way tree rest)) (w.node, way tree rest)
      (wayCells tree base (p :: rest) (pointer x) + cells x) := by
  rw [rbCase1]
  refine .bind (load_node (c := c) (d := p.side) (x := pointer near) (y := pointer far) ?_) ?_
  · rw [wayCells, hw, cells_on]
    simp
  · rw [if_neg (mt code_eq_red.mp hc)]
    exact Triple.pure _ _

theorem blacken_root {t : RedBlack.Tree Entry} (ht : t.color = .black) :
    Triple (treeCells tree base t : Cells ρ)
      (do let root ← load Kind.node tree
          blacken (root.link .left) : RbProg ρ Unit) () (treeCells tree base t) := by
  refine .bind (load_root base (pointer t) (by simp [treeCells])) ?_
  rw [link_rootCell]
  refine (blacken_cells t {rootCell tree base (pointer t)}).of_eq ?_ ?_
  · rw [treeCells]
    abel
  · rw [RedBlack.Tree.blacken_of_black ht, treeCells]
    abel

theorem rbFixup_resolve {fuel : ℕ} {c : RedBlack.Color} {t : RedBlack.Tree Entry}
    (hw : p.sibling = on p.side c near w far)
    (hup : (resolve p x).2 = true → Triple
      (wayCells tree base rest (some p.value.node) + cells (resolve p x).1 : Cells ρ)
        (rbFixup tree fuel (some p.value.node) (way tree rest)) () (treeCells tree base t))
    (hdone : (resolve p x).2 = false → plug rest (resolve p x).1 = t ∧ t.color = .black) :
    Triple (wayCells tree base (p :: rest) (pointer x) + cells x)
      (do if ← bothBlack w.node then
            setColor w.node .red
            rbFixup tree fuel (some p.value.node) (way tree rest)
          else
            let w ← rbCase3 p.value.node w.node (index p.side)
            rbCase4 p.value.node w (index p.side) (way tree rest)
            let root ← load Kind.node tree
            blacken (root.link .left) : RbProg ρ Unit) () (treeCells tree base t) := by
  have hcells : (wayCells tree base (p :: rest) (pointer x) + cells x : Cells ρ) =
      {p.value.nodeCell p.color p.side (pointer x) (some w.node)} +
        {w.nodeCell c p.side (pointer near) (pointer far)} +
          (wayCells tree base rest (some p.value.node) + {p.value.stored.cell} + {w.stored.cell} +
            cells near + cells far + cells x) := by
    rw [wayCells, hw, pointer_on, cells_on]
    abel
  refine .bind (bothBlack_tree near far (c := c) (d := p.side) ?_) ?_
  · rw [wayCells, hw]
    simp +contextual
  rw [hcells]
  have hview : p.sibling.view p.side = some (c, near, w, far) := by
    rw [hw, RedBlack.Tree.view_on]
  rw [resolve, hview] at hup hdone
  dsimp only at hup hdone
  by_cases hboth : near.color = .black ∧ far.color = .black
  · rw [if_pos hboth] at hup
    rw [if_pos (decide_eq_true hboth)]
    refine .bind (x := ()) ((setColor_node w c .red p.side (pointer near) (pointer far)
      ({p.value.nodeCell p.color p.side (pointer x) (some w.node)} +
        (wayCells tree base rest (some p.value.node) + {p.value.stored.cell} + {w.stored.cell} +
          cells near + cells far + cells x))).of_eq (by abel) rfl) ((hup rfl).of_eq ?_ rfl)
    rw [cells_on, cells_on, pointer_on]
    abel
  · rw [if_neg hboth] at hup hdone
    rw [if_neg (by simpa using hboth)]
    by_cases hfar : far.color = .black
    · rw [if_pos hfar] at hup hdone
      have hred : near.color = .red := by
        cases hn : near.color with
        | red => rfl
        | black => exact absurd ⟨hn, hfar⟩ hboth
      obtain ⟨c', a, y, b, rfl⟩ := RedBlack.Tree.exists_on p.side
        (show near ≠ .nil from fun hnil => by rw [hnil] at hred; cases hred)
      rw [RedBlack.Tree.view_on] at hdone
      obtain ⟨rfl, hblack⟩ := hdone rfl
      refine .bind (x := y.node) ((rbCase3_nodes p.value w y p.color c c' p.side hfar (pointer x)
        (pointer a) (pointer b) (wayCells tree base rest (some p.value.node) +
          {p.value.stored.cell} + {w.stored.cell} + {y.stored.cell} + cells a + cells b +
            cells x)).of_eq ?_ rfl) ?_
      · rw [pointer_on, cells_on]
        abel
      refine .bind (x := ()) ((rbCase4_nodes p.value y w p.color .black .red p.side p.side
        (pointer x) (pointer a) (pointer b) (pointer far) tree base rest ({p.value.stored.cell} +
          {w.stored.cell} + {y.stored.cell} + cells a + cells b + cells far + cells x)).of_eq
            (by abel) ?_) (blacken_root hblack)
      rw [← wayCells_add_cells, cells_on, cells_on, cells_on, pointer_on, pointer_on, pointer_on]
      abel
    · rw [if_neg hfar] at hup hdone
      obtain ⟨rfl, hblack⟩ := hdone rfl
      refine .bind (x := w.node) (rbCase3_none p.value w c p.side hfar (pointer near) (by simp)
        (by simp +contextual)) ?_
      obtain ⟨c', a, y, b, rfl⟩ := RedBlack.Tree.exists_on p.side
        (show far ≠ .nil from fun hnil => by rw [hnil] at hfar; exact hfar rfl)
      refine .bind (x := ()) ((rbCase4_nodes p.value w y p.color c c' p.side p.side (pointer x)
        (pointer near) (pointer a) (pointer b) tree base rest ({p.value.stored.cell} +
          {w.stored.cell} + {y.stored.cell} + cells near + cells a + cells b + cells x)).of_eq
            ?_ ?_) (blacken_root hblack)
      · rw [pointer_on, cells_on]
        abel
      · rw [← wayCells_add_cells, RedBlack.Tree.blacken_on, cells_on, cells_on, cells_on, pointer_on,
          pointer_on, pointer_on]
        abel

theorem rbFixup_cons (tree p : Arg) (d : Side) (rest : List (Frame Entry)) (fuel : ℕ)
    (x : Option Arg) : (rbFixup tree (fuel + 1) x ((p, d) :: way tree rest) : RbProg ρ Unit) = (do
      if ← isBlack x then
        let np ← load Kind.node p
        let w ← deref (np.link d.other)
        let (w, rest) ← rbCase1 p w d (way tree rest)
        if ← bothBlack w then
          setColor w .red
          rbFixup tree fuel (some p) rest
        else
          let w ← rbCase3 p w d
          rbCase4 p w d rest
          let root ← load Kind.node tree
          blacken (root.link .left)
      else blacken x) := by
  obtain ⟨top, rest', hway⟩ := way_cons tree rest
  rw [hway, rbFixup]

theorem rbFixup_red (tree : Arg) (base : Node) (fs : List (Frame Entry)) (fuel : ℕ)
    (hx : x.color = .red) :
    Triple (wayCells tree base fs (pointer x) + cells x : Cells ρ)
      (rbFixup tree (fuel + 1) (pointer x) (way tree fs)) ()
      (treeCells tree base (plug fs x.blacken)) := by
  have hblacken : Triple (wayCells tree base fs (pointer x) + cells x : Cells ρ)
      (blacken (pointer x)) () (treeCells tree base (plug fs x.blacken)) := by
    refine (blacken_cells x (wayCells tree base fs (pointer x))).of_eq (by abel) ?_
    rw [← wayCells_add_cells, pointer_blacken]
    abel
  cases fs with
  | nil => exact hblacken
  | cons p rest =>
    rw [way, rbFixup_cons]
    refine .bind (isBlack_tree (t := x) (by simp +contextual)) ?_
    rw [if_neg (by rw [hx]; decide)]
    exact hblacken

/-- As long as something is missing, `p` stays above its children. -/
theorem pointer_resolve (h : (resolve p x).2 = true) :
    pointer (resolve p x).1 = some p.value.node := by
  rw [resolve] at h ⊢
  cases hview : p.sibling.view p.side with
  | none => exact pointer_on
  | some v =>
    obtain ⟨c, near, w, far⟩ := v
    rw [hview] at h
    dsimp only at h ⊢
    split_ifs at h ⊢
    · exact pointer_on
    · cases hnear : near.view p.side with
      | none => exact pointer_on
      | some u =>
        rw [hnear] at h
        cases h

/-- Each turn of the loop does what `deleteFix` does. -/
theorem rbFixup_way (tree : Arg) (base : Node) {fs : List (Frame Entry)} {n fuel : ℕ}
    (hfits : RedBlack.Fits fs .black (n + 1)) (hx : RedBlack.Deficient n x)
    (hroom : fs.length + 1 < rbMaxHeight) (hfuel : fs.length < fuel) :
    Triple (wayCells tree base fs (pointer x) + cells x : Cells ρ)
      (rbFixup tree fuel (pointer x) (way tree fs)) () (treeCells tree base (deleteFix fs x)) := by
  obtain ⟨fuel, rfl⟩ : ∃ k, fuel = k + 1 := ⟨fuel - 1, by omega⟩
  induction fs generalizing x n fuel with
  | nil =>
    refine (blacken_cells x (wayCells tree base [] (pointer x))).of_eq (by abel) ?_
    rw [deleteFix, treeCells, pointer_blacken, wayCells]
    abel
  | cons p rest ih =>
    rcases hx with ⟨hred, hx⟩ | ⟨hblack, hx⟩
    · rw [deleteFix, if_pos hred]
      exact rbFixup_red tree base _ fuel hred
    obtain ⟨N, hbalanced⟩ := RedBlack.balanced_deleteFix hfits (.inr ⟨hblack, hx⟩)
    rw [way, rbFixup_cons]
    refine .bind (isBlack_tree (t := x) (by simp +contextual)) ?_
    rw [if_pos (decide_eq_true hblack)]
    refine .bind (load_node (c := p.color) (d := p.side) (x := pointer x)
      (y := pointer p.sibling) (by simp [wayCells])) ?_
    dsimp only
    rw [index_other, links_far]
    by_cases hsibling : p.sibling.color = .red
    · -- Case 1: the new sibling is the near child of the old one, and `p` is red
      obtain ⟨hw, -⟩ := hfits.below_black fun hp => by
        rw [(hfits.below_red hp).1.color_eq] at hsibling
        cases hsibling
      rw [hsibling] at hw
      obtain ⟨c, near, w, far, hon⟩ := RedBlack.Tree.exists_on p.side hw.ne_nil_of_red
      have hview : p.sibling.view p.side = some (c, near, w, far) := by
        rw [hon, RedBlack.Tree.view_on]
      rw [hon] at hw
      obtain rfl : c = .red := by simpa using hw.color_eq
      obtain ⟨-, hnear, -⟩ := RedBlack.Tree.balanced_on_red.mp hw
      obtain ⟨c', a, y, b, hnearOn⟩ := RedBlack.Tree.exists_on p.side hnear.ne_nil
      have hcolor := (RedBlack.balanced_resolve (p := ⟨.red, p.value, p.side, near⟩) hx hnear).1
      rw [deleteFix, if_neg (by rw [hblack]; decide), if_pos hsibling, hview] at hbalanced ⊢
      dsimp only at hbalanced ⊢
      rw [hon, pointer_on]
      refine .bind (.deref w.node _) ?_
      refine .bind (rbCase1_red hon (y := y.node) (by rw [hnearOn, pointer_on])
        (by simpa using hroom)) ?_
      refine rbFixup_resolve hnearOn (fun hup => ?_) fun hdone => ?_
      · obtain ⟨fuel, rfl⟩ : ∃ k, fuel = k + 1 := ⟨fuel - 1, by simp at hfuel; omega⟩
        have hred := rbFixup_red (ρ := ρ) tree base (⟨.black, w, p.side, far⟩ :: rest) fuel
          (hcolor hup).1
        rw [pointer_resolve hup] at hred
        rw [if_pos hup]
        exact hred
      · rw [if_neg (by rw [hdone]; decide)] at hbalanced ⊢
        exact ⟨rfl, hbalanced.color_eq⟩
    · obtain ⟨hw, -⟩ := hfits.below hsibling
      obtain ⟨c, near, w, far, hon⟩ := RedBlack.Tree.exists_on p.side hw.ne_nil
      have hc : c ≠ .red := by
        rw [hon, RedBlack.Tree.color_on] at hsibling
        exact hsibling
      rw [deleteFix, if_neg (by rw [hblack]; decide), if_neg hsibling] at hbalanced ⊢
      dsimp only at hbalanced ⊢
      rw [hon, pointer_on]
      refine .bind (.deref w.node _) ?_
      refine .bind (rbCase1_black hon hc) ?_
      refine rbFixup_resolve hon (fun hup => ?_) fun hdone => ?_
      · obtain ⟨fuel, rfl⟩ : ∃ k, fuel = k + 1 := ⟨fuel - 1, by simp at hfuel; omega⟩
        obtain ⟨m, hrest, hdeficient⟩ := hfits.resolve_up hsibling hx hup
        rw [if_pos hup, ← pointer_resolve hup]
        simp only [List.length_cons] at hroom hfuel
        exact ih hrest hdeficient (by omega) fuel (by omega)
      · rw [if_neg (by rw [hdone]; decide)] at hbalanced ⊢
        exact ⟨rfl, hbalanced.color_eq⟩

end

theorem rbSearch_locate (tree : Arg) (key : GlobalId) (t : RedBlack.Tree Entry)
    (fs : List (Frame Entry)) (room : ℕ) (hroom : t.height ≤ room) {P : Cells ρ}
    (hcells : ∀ c ∈ cells t, c ∈ P) :
    Triple P (rbSearch key room (way tree fs) (pointer t))
      ((pointer (locate Entry.key key fs t).2).map fun z =>
        (z, way tree (locate Entry.key key fs t).1)) P := by
  induction t generalizing fs room with
  | nil =>
    cases room <;> exact Triple.pure _ _
  | node c l e r ihl ihr =>
    rw [pointer, rbSearch, locate]
    refine .bind (load_node (c := c) (d := .left) (x := pointer l) (y := pointer r)
      (hcells _ (by simp [cells]))) ?_
    refine .bind (load_item (s := e.stored) (hcells _ (by simp [cells]))) ?_
    change Triple P (if key = e.key then _ else _) _ P
    by_cases heq : key = e.key
    · rw [if_pos heq, if_pos heq]
      exact Triple.pure _ _
    · rw [if_neg heq, if_neg heq]
      rw [RedBlack.Tree.height] at hroom
      obtain ⟨room, rfl⟩ : ∃ n, room = n + 1 := ⟨room - 1, by omega⟩
      by_cases hlt : key < e.key
      · have hside : (if key < e.stored.item.key then Side.left else Side.right) = .left :=
          if_pos hlt
        simp only [if_pos hlt, hside]
        exact ihl (⟨c, e, .left, r⟩ :: fs) room (by omega) fun c hc =>
          hcells c (by simp [cells, hc])
      · have hside : (if key < e.stored.item.key then Side.left else Side.right) = .right :=
          if_neg hlt
        simp only [if_neg hlt, hside]
        exact ihr (⟨c, e, .right, l⟩ :: fs) room (by omega) fun c hc =>
          hcells c (by simp [cells, hc])

theorem rbSuccessor_leftmost (tree : Arg) {c : RedBlack.Color} {l r : RedBlack.Tree Entry}
    {e : Entry} (fs : List (Frame Entry)) (room : ℕ) (hroom : l.height ≤ room) {P : Cells ρ}
    (hcells : ∀ c' ∈ cells (.node c l e r), c' ∈ P) :
    Triple P (rbSuccessor room (way tree fs) e.node)
      ((leftmost fs c l e r).2.2.1.node, way tree (leftmost fs c l e r).1) P := by
  induction l generalizing fs room c e r with
  | nil =>
    rw [rbSuccessor.eq_def]
    refine .bind (load_node (c := c) (d := .left) (x := none) (y := pointer r)
      (hcells _ (by simp [cells, pointer]))) ?_
    exact Triple.pure _ _
  | node c' l' e' r' ih _ =>
    rw [RedBlack.Tree.height] at hroom
    obtain ⟨room, rfl⟩ : ∃ n, room = n + 1 := ⟨room - 1, by omega⟩
    rw [rbSuccessor.eq_def]
    refine .bind (load_node (c := c) (d := .left) (x := some e'.node) (y := pointer r)
      (hcells _ (by simp [cells, pointer]))) ?_
    exact ih (⟨c, e, .left, r⟩ :: fs) room (by omega) fun c'' hc =>
      hcells c'' (by rw [cells]; simp [hc])

/-- The way to the node that is taken out, with its colour and address, and its child. The next item
takes the place of one with two children. -/
def unlink (fs : List (Frame Entry)) (c : RedBlack.Color) (l : RedBlack.Tree Entry) (e : Entry)
    (r : RedBlack.Tree Entry) :
    List (Frame Entry) × RedBlack.Color × Arg × RedBlack.Tree Entry :=
  match l, r with
  | .nil, r => (fs, c, e.node, r)
  | l, .nil => (fs, c, e.node, l)
  | l, .node c' l' e' r' =>
    let s := leftmost [] c' l' e' r'
    (s.1 ++ ⟨c, ⟨e.node, s.2.2.1.stored⟩, .right, l⟩ :: fs, s.2.1, s.2.2.1.node, s.2.2.2)

section
variable {tree : Arg} {base : Node} {fs : List (Frame Entry)} {c : RedBlack.Color}
  {l r : RedBlack.Tree Entry} {e : Entry}

theorem wayCells_append (tree : Arg) (base : Node) (gs fs : List (Frame Entry))
    (c : RedBlack.Color) (a : Arg) (d : RedBlack.Side) (t : RedBlack.Tree Entry)
    (x : Option Arg) : ∃ (R : Cells ρ) (hole : _),
      ∀ s : Stored, wayCells tree base (gs ++ ⟨c, ⟨a, s⟩, d, t⟩ :: fs) x =
        {Entry.nodeCell ⟨a, s⟩ c d hole (pointer t)} + {s.cell} + R := by
  induction gs generalizing x with
  | nil => exact ⟨cells t + wayCells tree base fs (some a), x, fun s => by
      rw [List.nil_append, wayCells]; abel⟩
  | cons g gs ih =>
    obtain ⟨R, hole, hcells⟩ := ih (some g.value.node)
    refine ⟨{g.value.nodeCell g.color g.side x (pointer g.sibling)} + {g.value.stored.cell} +
      cells g.sibling + R, hole, fun s => ?_⟩
    rw [List.cons_append, wayCells, hcells]
    abel

theorem way_append (gs fs : List (Frame Entry)) (c : RedBlack.Color) (a : Arg) (d : RedBlack.Side)
    (t : RedBlack.Tree Entry) (s s' : Stored) :
    way tree (gs ++ ⟨c, ⟨a, s⟩, d, t⟩ :: fs) = way tree (gs ++ ⟨c, ⟨a, s'⟩, d, t⟩ :: fs) := by
  induction gs with
  | nil => rfl
  | cons g gs ih => rw [List.cons_append, List.cons_append, way, way, ih]

theorem rbUnlink_child {u : RedBlack.Tree Entry} (hu : (cells l + cells r : Cells ρ) = cells u) :
    Triple (wayCells tree base fs (some e.node) + cells (.node c l e r) : Cells ρ)
      (do linkTop (way tree fs) (pointer u)
          pure (e.node, pointer u, way tree fs)) (e.node, pointer u, way tree fs)
      (wayCells tree base fs (pointer u) + cells u +
        {e.nodeCell c .left (pointer l) (pointer r)} + {e.stored.cell}) := by
  refine .bind ((linkTop_way tree base fs (some e.node) (pointer u)
    (cells (.node c l e r))).of_eq rfl rfl) ((Triple.pure _ _).of_eq rfl ?_)
  rw [cells, ← hu]
  abel

theorem rbUnlink_next (tree : Arg) (base : Node) (fs : List (Frame Entry)) {c' : RedBlack.Color}
    {l' r' : RedBlack.Tree Entry} {e' : Entry}
    (hl : l ≠ .nil) (hroom : fs.length + (RedBlack.Tree.node c l e (.node c' l' e' r')).height <
      rbMaxHeight) :
    let s := leftmost [] c' l' e' r'
    let gs := s.1 ++ ⟨c, ⟨e.node, s.2.2.1.stored⟩, .right, l⟩ :: fs
    Triple (wayCells tree base fs (some e.node) + cells (.node c l e (.node c' l' e' r')) : Cells ρ)
      (rbUnlink e.node (way tree fs)) (s.2.2.1.node, pointer s.2.2.2, way tree gs)
      (wayCells tree base gs (pointer s.2.2.2) + cells s.2.2.2 +
        {s.2.2.1.nodeCell s.2.1 .left none (pointer s.2.2.2)} + {e.stored.cell}) := by
  intro s gs
  obtain ⟨z, hz⟩ := exists_pointer hl
  set r := RedBlack.Tree.node c' l' e' r'
  set y := s.2.2.1
  set x := s.2.2.2
  set gs' := s.1 ++ ⟨c, e, .right, l⟩ :: fs
  have hway : way tree gs' = way tree gs := way_append s.1 fs c e.node .right l e.stored y.stored
  have hleftmost : leftmost (⟨c, e, .right, l⟩ :: fs) c' l' e' r' = (gs', s.2) :=
    RedBlack.leftmost_append [] (⟨c, e, .right, l⟩ :: fs) c' l' e' r'
  obtain ⟨R, hole, hcells⟩ := wayCells_append (ρ := ρ) tree base s.1 fs c e.node .right l
    (some y.node)
  -- the tree, seen from the next node
  have hsplit : (wayCells tree base fs (some e.node) + cells (.node c l e r) : Cells ρ) =
      {e.nodeCell c .right hole (pointer l)} + ({y.nodeCell s.2.1 .left none (pointer x)} +
        (R + {e.stored.cell} + {y.stored.cell} + cells x)) := by
    have hplug := RedBlack.plug_leftmost (⟨c, e, .right, l⟩ :: fs) c' l' e' r'
    rw [hleftmost] at hplug
    rw [show (some e.node : Option Arg) = pointer (.node c l e r) from rfl, wayCells_add_cells,
      show plug fs (.node c l e r) = plug (⟨c, e, .right, l⟩ :: fs) r from rfl, ← hplug,
      ← wayCells_add_cells, pointer,
      show gs' = s.1 ++ ⟨c, ⟨e.node, e.stored⟩, .right, l⟩ :: fs from rfl, hcells e.stored, cells,
      cells, pointer]
    change {e.nodeCell c .right hole (pointer l)} + {e.stored.cell} + R +
      ({y.nodeCell s.2.1 .left none (pointer x)} + {y.stored.cell} + 0 + cells x) = _
    abel
  have hsucc : r'.height + 1 ≤ r.height ∧ l'.height + 1 ≤ r.height := by
    change _ ≤ (RedBlack.Tree.node c' l' e' r').height ∧ _ ≤ (RedBlack.Tree.node c' l' e' r').height
    rw [RedBlack.Tree.height]
    omega
  rw [RedBlack.Tree.height] at hroom
  rw [rbUnlink]
  refine .bind (load_node (c := c) (d := .left) (x := pointer l) (y := some e'.node)
    (by simp [cells, r, pointer])) ?_
  have hleft : links .left (pointer l) (some e'.node) .left = some z := hz
  have hright : links .left (pointer l) (some e'.node) .right = some e'.node := rfl
  dsimp only
  rw [hleft, hright]
  dsimp only
  rw [if_pos (by rw [length_way]; omega)]
  have hdown := rbSuccessor_leftmost (ρ := ρ) tree (c := c') (l := l') (r := r') (e := e')
    (⟨c, e, .right, l⟩ :: fs) (rbMaxHeight - (way tree fs).length - 1) (by rw [length_way]; omega)
    (P := wayCells tree base fs (some e.node) + cells (.node c l e r))
    fun cell hc => by rw [cells]; simp only [Multiset.mem_add]; exact .inr (.inr hc)
  rw [hleftmost] at hdown
  refine .bind hdown ?_
  rw [hsplit]
  refine .bind (load_node (e := y) (c := s.2.1) (d := .left) (x := none) (y := pointer x)
    (by simp)) ?_
  refine .bind (load_node (e := e) (c := c) (d := .right) (x := hole) (y := pointer l)
    (by simp)) ?_
  refine .bind (Triple.store (k := Kind.node) (a := e.node) _ _) ?_
  refine .bind (x := ()) ((linkTop_way tree base gs (some y.node) (pointer x)
    ({y.nodeCell s.2.1 .left none (pointer x)} + {e.stored.cell} + cells x)).of_eq ?_ rfl
      |>.congr_prog (by rw [hway]; rfl)) ?_
  · rw [show gs = s.1 ++ ⟨c, ⟨e.node, y.stored⟩, .right, l⟩ :: fs from rfl, hcells y.stored]
    change _ = {(⟨.node, e.node, some ⟨y.stored.addr, links .right hole (pointer l), code c⟩⟩ :
      Conc.Cell Kind (Kind.Rec ρ) Arg)} + {y.stored.cell} + R + _
    abel
  · rw [← hway]
    exact (Triple.pure _ _).of_eq rfl (by abel)

theorem rbUnlink_way (tree : Arg) (base : Node) (fs : List (Frame Entry))
    (hroom : fs.length + (RedBlack.Tree.node c l e r).height < rbMaxHeight) :
    ∃ n : Node, n.color = code (unlink fs c l e r).2.1 ∧
      Triple (wayCells tree base fs (some e.node) + cells (.node c l e r) : Cells ρ)
        (rbUnlink e.node (way tree fs))
        ((unlink fs c l e r).2.2.1, pointer (unlink fs c l e r).2.2.2,
          way tree (unlink fs c l e r).1)
        (wayCells tree base (unlink fs c l e r).1 (pointer (unlink fs c l e r).2.2.2) +
          cells (unlink fs c l e r).2.2.2 + {⟨.node, (unlink fs c l e r).2.2.1, some n⟩} +
            {e.stored.cell}) := by
  have hload := load_node (e := e) (c := c) (d := .left) (x := pointer l) (y := pointer r)
    (P := (wayCells tree base fs (some e.node) + cells (.node c l e r) : Cells ρ)) (by simp [cells])
  cases l with
  | nil =>
    refine ⟨⟨e.stored.addr, links .left none (pointer r), code c⟩, rfl, ?_⟩
    rw [rbUnlink]
    exact .bind hload (rbUnlink_child (l := .nil) (u := r) (zero_add _))
  | node cl ll el rl =>
    cases r with
    | nil =>
      refine ⟨⟨e.stored.addr, links .left (some el.node) none, code c⟩, rfl, ?_⟩
      rw [rbUnlink]
      exact .bind hload (rbUnlink_child (r := .nil) (add_zero _))
    | node c' l' e' r' =>
      have hnext := rbUnlink_next (ρ := ρ) tree base fs (c := c) (e := e)
        (l := .node cl ll el rl) (RedBlack.Tree.node_ne_nil _ _ _ _) hroom
      exact ⟨_, rfl, hnext⟩

end

/-- Where the node that is taken out stands, but for the items of the nodes above it. -/
theorem unlink_plug (fs : List (Frame Entry)) (c : RedBlack.Color) (l : RedBlack.Tree Entry)
    (e : Entry) (r : RedBlack.Tree Entry) : ∃ gs d v,
      plug gs (on d (unlink fs c l e r).2.1 .nil v (unlink fs c l e r).2.2.2) =
        plug fs (.node c l e r) ∧
      (∀ c' n, RedBlack.Fits gs c' n → RedBlack.Fits (unlink fs c l e r).1 c' n) ∧
      (unlink fs c l e r).1.length = gs.length := by
  cases l with
  | nil => exact ⟨fs, .left, e, rfl, fun _ _ h => h, rfl⟩
  | node cl ll el rl =>
    cases r with
    | nil => exact ⟨fs, .right, e, rfl, fun _ _ h => h, rfl⟩
    | node c' l' e' r' =>
      set s := leftmost [] c' l' e' r'
      set f : Frame Entry := ⟨c, e, .right, .node cl ll el rl⟩
      have hplug := RedBlack.plug_leftmost (f :: fs) c' l' e' r'
      rw [show leftmost (f :: fs) c' l' e' r' = (s.1 ++ f :: fs, s.2) from
        RedBlack.leftmost_append [] (f :: fs) c' l' e' r'] at hplug
      refine ⟨s.1 ++ f :: fs, .left, s.2.2.1, hplug, fun c'' n h => ?_, ?_⟩
      · exact RedBlack.fits_value _ h
      · rw [unlink, List.length_append, List.length_append, List.length_cons, List.length_cons]
        exact nofun

/-- The item is gone, and the others stand as before. -/
theorem contents_unlink (fs : List (Frame Entry)) (c : RedBlack.Color) (l : RedBlack.Tree Entry)
    (e : Entry) (r : RedBlack.Tree Entry) :
    contents (plug (unlink fs c l e r).1 (unlink fs c l e r).2.2.2) =
      (RedBlack.before fs).map Entry.stored ++ (contents l ++ contents r) ++
        (RedBlack.after fs).map Entry.stored := by
  rw [contents_plug]
  cases l with
  | nil => rw [contents_nil, List.nil_append, unlink]
  | node cl ll el rl =>
    cases r with
    | nil => rw [contents_nil, List.append_nil, unlink]; exact nofun
    | node c' l' e' r' =>
      have hright := RedBlack.toList_plug (leftmost [] c' l' e' r').1 (.node
        (leftmost [] c' l' e' r').2.1 .nil (leftmost [] c' l' e' r').2.2.1
          (leftmost [] c' l' e' r').2.2.2)
      rw [RedBlack.plug_leftmost, RedBlack.before_leftmost] at hright
      have hlist : contents (.node c' l' e' r') = (leftmost [] c' l' e' r').2.2.1.stored ::
          (contents (leftmost [] c' l' e' r').2.2.2 ++
            (RedBlack.after (leftmost [] c' l' e' r').1).map Entry.stored) := by
        rw [contents, show RedBlack.Tree.node c' l' e' r' = plug [] (.node c' l' e' r') from rfl,
          hright]
        simp [RedBlack.Tree.toList, RedBlack.before, contents]
      rw [hlist, unlink]
      · simp only [RedBlack.before_append, RedBlack.after_append, RedBlack.before, RedBlack.after,
          List.map_append]
        rw [RedBlack.before_leftmost]
        simp [contents, RedBlack.before]
      · exact nofun

def removed (t : RedBlack.Tree Entry) (key : GlobalId) : RedBlack.Tree Entry :=
  match locate Entry.key key [] t with
  | (_, .nil) => t
  | (fs, .node c l e r) =>
    let u := unlink fs c l e r
    if u.2.1 = .red then plug u.1 u.2.2.2 else deleteFix u.1 u.2.2.2

section
variable {t : RedBlack.Tree Entry} {key : GlobalId}

theorem removed_of_node {fs : List (Frame Entry)} {c : RedBlack.Color} {l r : RedBlack.Tree Entry}
    {e : Entry} (h : locate Entry.key key [] t = (fs, .node c l e r)) :
    removed t key = if (unlink fs c l e r).2.1 = .red
      then plug (unlink fs c l e r).1 (unlink fs c l e r).2.2.2
      else deleteFix (unlink fs c l e r).1 (unlink fs c l e r).2.2.2 := by
  rw [removed, h]

theorem SearchTree.contents_removed (h : SearchTree t) (key : GlobalId) :
    contents (removed t key) = KeyedList.erase Stored.key key (contents t) := by
  obtain ⟨hbefore, hafter⟩ := h.separates key
  have hcontents := contents_located key t
  rcases hlocate : locate Entry.key key [] t with ⟨fs, _ | ⟨c, l, e, r⟩⟩
  · have hfind := h.find_of_absent (k := key) (by rw [hlocate])
    rw [removed, hlocate, KeyedList.erase]
    exact (List.filter_eq_self.mpr fun s hs =>
      decide_eq_true (KeyedList.find_eq_none.mp hfind s hs)).symm
  · obtain ⟨-, hkey, -⟩ := h.find_of_found (k := key) (by rw [hlocate])
    have hremoved : contents (removed t key) =
        contents (plug (unlink fs c l e r).1 (unlink fs c l e r).2.2.2) := by
      rw [removed_of_node hlocate]
      split
      · rfl
      · rw [contents, contents, RedBlack.toList_deleteFix]
    have hitem : contents (.node c l e r) = contents l ++ e.stored :: contents r := by
      simp [contents, RedBlack.Tree.toList]
    have hordered := ordered_contents.mpr h.ordered
    have hsplit : contents t = ((RedBlack.before fs).map Entry.stored ++ contents l) ++ e.stored ::
        (contents r ++ (RedBlack.after fs).map Entry.stored) := by
      rw [hcontents, hlocate, hitem]
      simp
    rw [hsplit] at hordered ⊢
    rw [hremoved, contents_unlink, ← hkey]
    refine Eq.trans ?_ (hordered.erase_append_cons).symm
    simp

/-- The way to the node that is taken out fits what takes its place. -/
theorem unlink_fits {fs : List (Frame Entry)} {c : RedBlack.Color} {l r : RedBlack.Tree Entry}
    {e : Entry} {N : ℕ} (h : RedBlack.Tree.Balanced .black N (plug fs (.node c l e r))) :
    ((unlink fs c l e r).2.1 = .red → ∃ n, RedBlack.Fits (unlink fs c l e r).1 .black n ∧
        RedBlack.Tree.Balanced .black n (unlink fs c l e r).2.2.2) ∧
      ((unlink fs c l e r).2.1 ≠ .red → ∃ n, RedBlack.Fits (unlink fs c l e r).1 .black (n + 1) ∧
        RedBlack.Deficient n (unlink fs c l e r).2.2.2) ∧
      (unlink fs c l e r).1.length < (plug fs (.node c l e r)).height := by
  obtain ⟨gs, d, v, hplug, hfits, hlength⟩ := unlink_plug fs c l e r
  rw [← hplug] at h ⊢
  obtain ⟨hred, hblack⟩ := RedBlack.fits_of_child h
  refine ⟨fun hc => ?_, fun hc => ?_, ?_⟩
  · obtain ⟨n, hn, hx⟩ := hred hc
    exact ⟨n, hfits _ _ hn, hx⟩
  · obtain ⟨n, hn, hx⟩ := hblack hc
    exact ⟨n, hfits _ _ hn, hx⟩
  · have hheight := RedBlack.height_plug gs (on d (unlink fs c l e r).2.1 .nil v
      (unlink fs c l e r).2.2.2)
    have hnode : 0 < (on d (unlink fs c l e r).2.1 .nil v (unlink fs c l e r).2.2.2).height :=
      RedBlack.Tree.height_child_on (t := .nil)
    omega

theorem plug_located {fs : List (Frame Entry)} {u : RedBlack.Tree Entry}
    (h : locate Entry.key key [] t = (fs, u)) : plug fs u = t := by
  have hplug := RedBlack.plug_locate (f := Entry.key) (k := key) [] t
  rw [h] at hplug
  exact hplug

theorem unlink_mem {fs : List (Frame Entry)} {c : RedBlack.Color} {l r : RedBlack.Tree Entry}
    {e : Entry} (h : locate Entry.key key [] t = (fs, .node c l e r)) :
    (unlink fs c l e r).2.2.1 ∈ t.toList.map Entry.node := by
  have hlist := RedBlack.toList_plug fs (.node c l e r)
  rw [plug_located h] at hlist
  rw [hlist]
  cases l with
  | nil => simp [unlink, RedBlack.Tree.toList]
  | node cl ll el rl =>
    cases r with
    | nil => simp [unlink, RedBlack.Tree.toList]
    | node c' l' e' r' =>
      have hright := RedBlack.toList_plug (leftmost [] c' l' e' r').1 (.node
        (leftmost [] c' l' e' r').2.1 .nil (leftmost [] c' l' e' r').2.2.1
          (leftmost [] c' l' e' r').2.2.2)
      rw [RedBlack.plug_leftmost] at hright
      have hmem : (leftmost [] c' l' e' r').2.2.1 ∈ (RedBlack.Tree.node c' l' e' r').toList := by
        rw [show RedBlack.Tree.node c' l' e' r' = plug [] (.node c' l' e' r') from rfl, hright]
        simp [RedBlack.Tree.toList]
      refine List.mem_map_of_mem (List.mem_append_left _ (List.mem_append_right _ ?_))
      rw [RedBlack.Tree.toList]
      exact List.mem_append_right _ (List.mem_cons_of_mem _ hmem)

theorem SearchTree.removed (h : SearchTree t) (key : GlobalId) : SearchTree (removed t key) where
  ordered := by
    rw [← ordered_contents, h.contents_removed key]
    exact (ordered_contents.mpr h.ordered).erase key
  balanced := by
    rcases hlocate : locate Entry.key key [] t with ⟨fs, _ | ⟨c, l, e, r⟩⟩
    · rw [Rb.removed, hlocate]
      exact h.balanced
    · obtain ⟨N, hbalanced⟩ := h.balanced
      rw [← plug_located hlocate] at hbalanced
      obtain ⟨hred, hblack, -⟩ := unlink_fits hbalanced
      rw [removed_of_node hlocate]
      split
      · next hc =>
        obtain ⟨n, hfits, hx⟩ := hred hc
        exact hfits.balanced hx
      · next hc =>
        obtain ⟨n, hfits, hx⟩ := hblack hc
        exact RedBlack.balanced_deleteFix hfits hx

theorem rbDelete_found (tree : Arg) (base : Node) (h : SearchTree t) (hsize : t.size < maxItems)
    {fs : List (Frame Entry)} {c : RedBlack.Color} {l r : RedBlack.Tree Entry} {e : Entry}
    (hlocate : locate Entry.key key [] t = (fs, .node c l e r)) :
    Triple (treeCells tree base t : Cells ρ) (rbDelete tree key) (some e.stored.addr)
      (treeCells tree base (removed t key) + {e.stored.cell} +
        {⟨.node, (unlink fs c l e r).2.2.1, none⟩}) := by
  have hheight := h.height_lt hsize
  have hplug := plug_located hlocate
  obtain ⟨N, hbalanced⟩ := h.balanced
  rw [← hplug] at hbalanced
  obtain ⟨hred, hblack, hlength⟩ := unlink_fits hbalanced
  rw [hplug] at hlength
  have hroom := RedBlack.height_plug fs (.node c l e r)
  rw [hplug] at hroom
  obtain ⟨n, hcolor, hunlink⟩ := rbUnlink_way (ρ := ρ) tree base fs (c := c) (l := l) (r := r)
    (e := e) (by omega)
  have hsearch := rbSearch_locate (ρ := ρ) tree key t [] (rbMaxHeight - 1)
    (P := treeCells tree base t) (by omega) (by simp +contextual [treeCells])
  rw [rbDelete]
  refine .bind (load_root base (pointer t) (by simp [treeCells])) ?_
  rw [link_rootCell]
  refine .bind hsearch ?_
  rw [hlocate]
  dsimp only [pointer, Option.map_some]
  refine .bind (load_node (e := e) (c := c) (d := .left) (x := pointer l) (y := pointer r) ?_) ?_
  · rw [← hplug, ← wayCells_add_cells, cells]
    simp
  refine .bind (hunlink.of_eq ?_ rfl) ?_
  · rw [← hplug, ← wayCells_add_cells, pointer]
  dsimp only
  set u := unlink fs c l e r
  refine .bind (Triple.load (k := Kind.node) (a := u.2.2.1) (v := n) (by simp)) ?_
  refine .bind ((Triple.free (k := Kind.node) (a := u.2.2.1) (v := n)
    (wayCells tree base u.1 (pointer u.2.2.2) + cells u.2.2.2 + {e.stored.cell})).of_eq
      (by abel) rfl) ?_
  rw [removed_of_node hlocate, hcolor]
  by_cases hc : u.2.1 = .red
  · rw [if_pos (code_eq_red.mpr hc), if_pos hc, ← wayCells_add_cells]
    exact (Triple.pure _ _).of_eq rfl (by abel)
  · obtain ⟨k, hfits, hdeficient⟩ := hblack hc
    rw [if_neg (mt code_eq_red.mp hc), if_neg hc]
    refine .bind (x := ()) ?_ (Triple.pure _ _)
    exact ((rbFixup_way tree base hfits hdeficient (by omega) (by rw [length_way]; omega)).frame
      ({e.stored.cell} + {⟨.node, u.2.2.1, none⟩})).of_eq (by abel) (by abel)

theorem rbDelete_absent (tree : Arg) (base : Node) (h : SearchTree t) (hsize : t.size < maxItems)
    (hnil : (locate Entry.key key [] t).2 = .nil) :
    Triple (treeCells tree base t : Cells ρ) (rbDelete tree key) none (treeCells tree base t) := by
  have hheight := h.height_lt hsize
  have hsearch := rbSearch_locate (ρ := ρ) tree key t [] (rbMaxHeight - 1)
    (P := treeCells tree base t) (by omega) (by simp +contextual [treeCells])
  rw [rbDelete]
  refine .bind (load_root base (pointer t) (by simp [treeCells])) ?_
  rw [link_rootCell]
  refine .bind hsearch ?_
  rw [hnil]
  exact Triple.pure _ _

/-- The item with the key is taken out, and the tree stays ordered and in balance. One node is freed,
and everything else on the heap stays as it was. -/
theorem rbDelete_keeps {tree : Arg} {base : Node} {m : Memory ρ} {F : Cells ρ} (h : SearchTree t)
    (hsize : t.size < maxItems) (hm : m.Is (treeCells tree base t + F)) (key : GlobalId) :
    ∃ m' t', SearchTree t' ∧ contents t' = KeyedList.erase Stored.key key (contents t) ∧
      rbDelete tree key m =
        .done m' ((KeyedList.find Stored.key key (contents t)).map Stored.addr) ∧
      match KeyedList.find Stored.key key (contents t) with
      | none => m'.Is (treeCells tree base t + F)
      | some s => ∃ node, node ∈ t.toList.map Entry.node ∧
          m'.Is (treeCells tree base t' + {s.cell} + {⟨.node, node, none⟩} + F) := by
  rcases hlocate : locate Entry.key key [] t with ⟨fs, _ | ⟨c, l, e, r⟩⟩
  · have hnil : (locate Entry.key key [] t).2 = .nil := by rw [hlocate]
    obtain ⟨m', hrun, hm'⟩ := (rbDelete_absent tree base h hsize hnil).is hm
    refine ⟨m', removed t key, h.removed key, h.contents_removed key, ?_, ?_⟩
    · rw [hrun, h.find_of_absent hnil]
      rfl
    · rw [h.find_of_absent hnil]
      exact hm'
  · have hfound := (h.find_of_found (k := key) (by rw [hlocate])).2.2
    obtain ⟨m', hrun, hm'⟩ := (rbDelete_found tree base h hsize hlocate).is hm
    refine ⟨m', removed t key, h.removed key, h.contents_removed key, ?_, ?_⟩
    · rw [hrun, hfound]
      rfl
    · rw [hfound]
      exact ⟨_, unlink_mem hlocate, hm'⟩

end

/-- A black node without children. Its sibling is red and comes to the top, and below it the tree
turns once more. -/
theorem rbDelete_keeps_fixed : ∃ m' t', SearchTree t' ∧
    contents t' = [10, 20, 25, 30, 35, 40].map (fun k => (numbered k).stored) ∧
    rbDelete (ρ := Unit) 1 50 (heapOf 1 someRoot someTree []) = .done m' (some 150) ∧
    (∃ node, node ∈ someTree.toList.map Entry.node ∧ m'.Is (treeCells 1 someRoot t' +
      {(numbered 50).stored.cell} + {⟨.node, node, none⟩} + 0)) ∧
    ∃ root, m'.cell .node 1 = some root ∧ root.link .left = some 20 := by
  obtain ⟨m', t', hsearch, hcontents, hrun, hm'⟩ :=
    rbDelete_keeps searchTree_someTree (by decide) is_someTree 50
  have hroot : (rbDelete (ρ := Unit) 1 50 (heapOf 1 someRoot someTree [])).Ends fun m' _ =>
      (m'.cell .node 1).map (fun n => n.link .left) = some (some 20) := by decide +kernel
  refine ⟨m', t', hsearch, hcontents, hrun, hm', ?_⟩
  obtain ⟨m₁, r, hrun₁, hroot⟩ := Outcome.ends_iff.mp hroot
  obtain ⟨rfl, -⟩ := Outcome.done.inj (hrun₁.symm.trans hrun)
  exact Option.map_eq_some_iff.mp hroot

end Clara.Rb
