import Clara.Common.RbSearch

/-! `rb_insert` on the heap: the balance is restored as `RedBlack.insertFix` says, and the item stands
where the order demands. -/
namespace Clara.Rb

open Conc HeapProg
open RedBlack (Frame plug insertFix locate)
open RedBlack.Tree (on)

variable {ρ : Type}

section
variable (p u g : Entry) (c c' c'' : RedBlack.Color) (d d' d'' : RedBlack.Side)

theorem rbRecolor_nodes (x y x' y' x'' y'' : Option Arg) (R : Cells ρ) :
    Triple ({p.nodeCell c d x y} + {u.nodeCell c' d' x' y'} + {g.nodeCell c'' d'' x'' y''} + R)
      (rbRecolor p.node u.node g.node) ()
      ({p.nodeCell .black d x y} + {u.nodeCell .black d' x' y'} + {g.nodeCell .red d'' x'' y''} +
        R) := by
  refine .bind ((setColor_node u c' .black d' x' y' ({p.nodeCell c d x y} +
    {g.nodeCell c'' d'' x'' y''} + R)).of_eq (by abel) rfl) ?_
  refine .bind ((setColor_node p c .black d x y ({u.nodeCell .black d' x' y'} +
    {g.nodeCell c'' d'' x'' y''} + R)).of_eq (by abel) rfl) ?_
  exact (setColor_node g c'' .red d'' x'' y'' ({p.nodeCell .black d x y} +
    {u.nodeCell .black d' x' y'} + R)).of_eq (by abel) (by abel)

/-- The child `y` of `p` takes its place below `g`. -/
theorem rbCase2_nodes (a b far z : Option Arg) (R : Cells ρ) :
    Triple ({p.nodeCell c d a (some u.node)} + {u.nodeCell c' d b far} +
        {g.nodeCell c'' d (some p.node) z} + R)
      (rbCase2 p.node g.node (index d.other) (index d)) u.node
      ({p.nodeCell c d a b} + {u.nodeCell c' d (some p.node) far} +
        {g.nodeCell c'' d (some u.node) z} + R) := by
  rw [rbCase2, if_pos (index_other d).symm, index_other]
  refine .bind (load_node (c := c) (d := d) (x := a) (y := some u.node) (by simp)) ?_
  dsimp only
  rw [links_far]
  refine .bind (.deref u.node _) ?_
  refine .bind (load_node (c := c') (d := d) (x := b) (y := far) (by simp)) ?_
  dsimp only
  rw [links_near]
  refine .bind ((setLink_far p c d a (some u.node) b ({u.nodeCell c' d b far} +
    {g.nodeCell c'' d (some p.node) z} + R)).of_eq (by abel) rfl) ?_
  refine .bind ((setLink_near u c' d b far (some p.node) ({p.nodeCell c d a b} +
    {g.nodeCell c'' d (some p.node) z} + R)).of_eq (by abel) rfl) ?_
  refine .bind ((setLink_near g c'' d (some p.node) z (some u.node) ({p.nodeCell c d a b} +
    {u.nodeCell c' d (some p.node) far} + R)).of_eq (by abel) rfl) ?_
  exact (Triple.pure _ _).of_eq rfl (by abel)

end

theorem rbTurn_nodes (y g : Entry) (c c' : RedBlack.Color) (d : RedBlack.Side)
    (near far z x : Option Arg) (tree : Arg) (base : Node) (rest : List (Frame Entry))
    (R : Cells ρ) :
    Triple ({y.nodeCell c d near far} + {g.nodeCell c' d z x} + wayCells tree base rest
        (some g.node) + R)
      (rbTurn g.node y.node (index d) (way tree rest)) ()
      ({y.nodeCell .black d near (some g.node)} + {g.nodeCell .red d far x} +
        wayCells tree base rest (some y.node) + R) := by
  rw [rbTurn, index_other]
  refine .bind ((setColor_node g c' .red d z x ({y.nodeCell c d near far} +
    wayCells tree base rest (some g.node) + R)).of_eq (by abel) rfl) ?_
  refine .bind ((setColor_node y c .black d near far ({g.nodeCell .red d z x} +
    wayCells tree base rest (some g.node) + R)).of_eq (by abel) rfl) ?_
  refine .bind (load_node (c := .black) (d := d) (x := near) (y := far) (by simp)) ?_
  dsimp only
  rw [links_far]
  refine .bind ((setLink_near g .red d z x far ({y.nodeCell .black d near far} +
    wayCells tree base rest (some g.node) + R)).of_eq (by abel) rfl) ?_
  refine .bind ((setLink_far y .black d near far (some g.node) ({g.nodeCell .red d far x} +
    wayCells tree base rest (some g.node) + R)).of_eq (by abel) rfl) ?_
  exact (linkTop_way tree base rest (some g.node) (some y.node)
    ({y.nodeCell .black d near (some g.node)} + {g.nodeCell .red d far x} + R)).of_eq (by abel)
      (by abel)

theorem rbRebalance_cons (tree p g : Arg) (dp dg : Side) (fs : List (Frame Entry)) :
    (rbRebalance ((p, dp) :: (g, dg) :: way tree fs) : RbProg ρ Unit) = (do
      let np ← load Kind.node p
      if np.color = .red then
        let ng ← load Kind.node g
        if ← isRed (ng.link dg.other) then
          let y ← deref (ng.link dg.other)
          rbRecolor p y g
          rbRebalance (way tree fs)
        else
          let y ← rbCase2 p g dp dg
          rbTurn g y dg (way tree fs)
      else pure ()) := by
  obtain ⟨top, rest, hway⟩ := way_cons tree fs
  rw [hway, rbRebalance]

section
variable {tree : Arg} {base : Node} {p g : Frame Entry} {rest : List (Frame Entry)}
  {x : RedBlack.Tree Entry}

/-- What a turn reads: the colour of the parent, and that of the uncle. -/
theorem rbRebalance_turn {Q : Cells ρ} {b : Bool} (hp : p.color = .red)
    (hb : decide (g.sibling.color = .red) = b)
    (h : Triple (wayCells tree base (p :: g :: rest) (pointer x) + cells x)
      (if b then do
        let y ← deref (pointer g.sibling)
        rbRecolor p.value.node y g.value.node
        rbRebalance (way tree rest)
      else do
        let y ← rbCase2 p.value.node g.value.node (index p.side) (index g.side)
        rbTurn g.value.node y (index g.side) (way tree rest)) () Q) :
    Triple (wayCells tree base (p :: g :: rest) (pointer x) + cells x)
      (rbRebalance (way tree (p :: g :: rest))) () Q := by
  rw [way, way, rbRebalance_cons]
  refine .bind (load_node (c := p.color) (d := p.side) (x := pointer x)
    (y := pointer p.sibling) (by simp [wayCells])) ?_
  rw [if_pos (code_eq_red.mpr hp)]
  refine .bind (load_node (c := g.color) (d := g.side) (x := some p.value.node)
    (y := pointer g.sibling) (by simp [wayCells])) ?_
  dsimp only
  rw [index_other, links_far]
  refine .bind (isRed_tree (t := g.sibling) (by simp +contextual [wayCells])) ?_
  rw [hb]
  exact h

end

/-- Each turn of the loop does what `insertFix` does. -/
theorem rbRebalance_way (tree : Arg) (base : Node) (fs : List (Frame Entry))
    (x : RedBlack.Tree Entry) (hx : x ≠ .nil) :
    Triple (wayCells tree base fs (pointer x) + cells x : Cells ρ) (rbRebalance (way tree fs)) ()
      (treeCells tree base (insertFix fs x)) := by
  induction fs, x using RedBlack.insertFix.induct with
  | case1 p g rest x hp hg ih =>
    obtain ⟨c, l, u, r, hsibling⟩ := RedBlack.Tree.exists_on .left
      (show g.sibling ≠ .nil from fun hnil => by rw [hnil] at hg; cases hg)
    rw [insertFix, if_pos hp, if_pos hg]
    refine rbRebalance_turn hp (decide_eq_true hg) ?_
    rw [if_pos rfl]
    rw [hsibling, RedBlack.Tree.blacken_on] at ih ⊢
    rw [pointer_on] at ih ⊢
    obtain rfl : c = .red := by
      rw [hsibling] at hg
      simpa using hg
    refine .bind (.deref _ _) (.bind (x := ()) ?_ (ih (RedBlack.Tree.on_ne_nil _ _ _ _ _)))
    refine (rbRecolor_nodes p.value u g.value p.color .red g.color p.side .left g.side (pointer x)
      (pointer p.sibling) (pointer l) (pointer r) (some p.value.node) (some u.node)
      ({p.value.stored.cell} + {u.stored.cell} + {g.value.stored.cell} + cells p.sibling + cells l +
        cells r + wayCells tree base rest (some g.value.node) + cells x)).of_eq ?_ ?_
    · rw [wayCells, wayCells, hsibling, pointer_on, cells_on]
      abel
    · rw [cells_on, cells_on, cells_on, pointer_on, pointer_on]
      abel
  | case2 p g rest x hp hg hside =>
    rw [insertFix, if_pos hp, if_neg hg, if_pos hside]
    refine rbRebalance_turn hp (decide_eq_false hg) ?_
    rw [if_neg Bool.false_ne_true, rbCase2, if_neg (by rw [hside]; cases g.side <;> decide)]
    refine .bind (.pure _ _) ?_
    refine (rbTurn_nodes p.value g.value p.color g.color g.side (pointer x) (pointer p.sibling)
      (some p.value.node) (pointer g.sibling) tree base rest ({p.value.stored.cell} +
        {g.value.stored.cell} + cells p.sibling + cells g.sibling + cells x)).of_eq ?_ ?_
    · rw [wayCells, wayCells, hside]
      abel
    · rw [← wayCells_add_cells, cells_on, cells_on, pointer_on, pointer_on]
      abel
  | case3 p g rest x hp hg hside hview => exact absurd hview (RedBlack.Tree.view_ne_none hx)
  | case4 p g rest x hp hg hside c near v far hview =>
    rw [insertFix, if_pos hp, if_neg hg, if_neg hside, hview]
    refine rbRebalance_turn hp (decide_eq_false hg) ?_
    have hother := RedBlack.Side.eq_other_of_ne hside
    obtain rfl := RedBlack.Tree.eq_on_of_view hview
    rw [if_neg Bool.false_ne_true, hother]
    refine .bind (x := v.node) ((rbCase2_nodes p.value v g.value p.color c g.color g.side
      (pointer p.sibling) (pointer near) (pointer far) (pointer g.sibling)
      ({p.value.stored.cell} + {v.stored.cell} + {g.value.stored.cell} + cells p.sibling +
        cells near + cells far + cells g.sibling +
        wayCells tree base rest (some g.value.node))).of_eq ?_ rfl) ?_
    · rw [wayCells, wayCells, cells_on, pointer_on, hother, nodeCell_other]
      abel
    refine (rbTurn_nodes v g.value c g.color g.side (some p.value.node) (pointer far)
      (some v.node) (pointer g.sibling) tree base rest ({p.value.nodeCell p.color g.side
        (pointer p.sibling) (pointer near)} + {p.value.stored.cell} + {v.stored.cell} +
        {g.value.stored.cell} + cells p.sibling + cells near + cells far +
        cells g.sibling)).of_eq ?_ ?_
    · abel
    · rw [← wayCells_add_cells, cells_on, cells_on, cells_on, pointer_on, pointer_on, pointer_on, hp]
      abel
  | case5 p g rest x hp =>
    rw [insertFix, if_neg hp, ← wayCells_add_cells, way, way, rbRebalance_cons]
    refine .bind (load_node (c := p.color) (d := p.side) (x := pointer x)
      (y := pointer p.sibling) (by simp [wayCells])) ?_
    rw [if_neg (mt code_eq_red.mp hp)]
    exact Triple.pure _ _
  | case6 fs x hfs =>
    rcases fs with _ | ⟨p, _ | ⟨g, rest⟩⟩
    · exact Triple.pure _ _
    · rw [insertFix, ← wayCells_add_cells]
      · exact Triple.pure _ _
      · exact hfs
    · exact absurd rfl (hfs p g rest)

/-- One step down, to a child or to the place where the item belongs. -/
theorem rbDescend_child {item tree : Arg} {room : ℕ} (fs : List (Frame Entry))
    {u : RedBlack.Tree Entry} {found : Option Arg × Path} {P : Cells ρ}
    (hnil : u = .nil → found = (none, way tree fs))
    (hnode : ∀ y, pointer u = some y → Triple P (rbDescend item room (way tree fs) y) found P) :
    Triple P (match pointer u with
      | none => pure (none, way tree fs)
      | some y => rbDescend item room (way tree fs) y) found P := by
  cases u with
  | nil =>
    rw [hnil rfl]
    exact Triple.pure _ _
  | node c l e r => exact hnode e.node rfl

theorem rbDescend_locate (tree : Arg) (new : Stored) {t : RedBlack.Tree Entry} {x : Arg}
    (fs : List (Frame Entry)) (room : ℕ) (hx : pointer t = some x) (hroom : t.height ≤ room)
    {P : Cells ρ} (hnew : new.cell ∈ P) (hcells : ∀ c ∈ cells t, c ∈ P) :
    Triple P (rbDescend new.addr room (way tree fs) x)
      (pointer (locate Entry.key new.key fs t).2, way tree (locate Entry.key new.key fs t).1) P := by
  induction t generalizing fs room x with
  | nil => cases hx
  | node c l e r ihl ihr =>
    obtain rfl : e.node = x := Option.some.inj hx
    rw [rbDescend, locate]
    refine .bind (load_item hnew) ?_
    refine .bind (load_node (c := c) (d := .left) (x := pointer l) (y := pointer r)
      (hcells _ (by simp [cells]))) ?_
    refine .bind (load_item (s := e.stored) (hcells _ (by simp [cells]))) ?_
    change Triple P (if new.key = e.key then _ else _) _ P
    by_cases heq : new.key = e.key
    · rw [if_pos heq, if_pos heq]
      exact Triple.pure _ _
    · rw [if_neg heq, if_neg heq]
      rw [RedBlack.Tree.height] at hroom
      obtain ⟨room, rfl⟩ : ∃ n, room = n + 1 := ⟨room - 1, by omega⟩
      by_cases hlt : new.key < e.key
      · have hside : (if new.item.key < e.stored.item.key then Side.left else Side.right) = .left :=
          if_pos hlt
        simp only [if_pos hlt, hside]
        refine rbDescend_child (⟨c, e, .left, r⟩ :: fs) ?_ fun y hy => ihl _ _ hy (by omega)
          fun c hc => hcells c (by simp [cells, hc])
        rintro rfl
        rfl
      · have hside : (if new.item.key < e.stored.item.key then Side.left else Side.right) = .right :=
          if_neg hlt
        simp only [if_neg hlt, hside]
        refine rbDescend_child (⟨c, e, .right, l⟩ :: fs) ?_ fun y hy => ihr _ _ hy (by omega)
          fun c hc => hcells c (by simp [cells, hc])
        rintro rfl
        rfl

def inserted (t : RedBlack.Tree Entry) (new : Stored) (fresh : Arg) : RedBlack.Tree Entry :=
  (insertFix (locate Entry.key new.key [] t).1 (.node .red .nil ⟨fresh, new⟩ .nil)).blacken

section
variable {t : RedBlack.Tree Entry} {new : Stored} {fresh : Arg}

theorem rbProbe_found (tree : Arg) (base : Node) {count : ℤ} (hheight : t.height < rbMaxHeight)
    {c : RedBlack.Color} {l r : RedBlack.Tree Entry} {e : Entry}
    (h : (locate Entry.key new.key [] t).2 = .node c l e r) (R : Cells ρ) :
    Triple (treeCells tree base t + {new.cell} + R) (rbProbe tree new.addr fresh count)
      (some (e.node, count)) (treeCells tree base t + {new.cell} + R) := by
  have hdescend := fun x (hx : pointer t = some x) => rbDescend_locate tree new []
    (rbMaxHeight - 1) hx (by omega) (P := treeCells tree base t + {new.cell} + R) (by simp)
    (by simp +contextual [treeCells])
  rw [rbProbe]
  refine .bind (load_root base (pointer t) (by simp [treeCells])) ?_
  rw [link_rootCell]
  cases t with
  | nil => cases h
  | node c' l' e' r' =>
    refine .bind (hdescend e'.node rfl) ?_
    rw [h]
    exact Triple.pure _ _

theorem rbProbe_absent (tree : Arg) (base : Node) (hheight : t.height < rbMaxHeight)
    (h : (locate Entry.key new.key [] t).2 = .nil) :
    Triple (treeCells tree base t + {new.cell} + {⟨.node, fresh, none⟩} : Cells ρ)
      (rbProbe tree new.addr fresh t.size) (some (fresh, t.size + 1))
      (treeCells tree base (inserted t new fresh)) := by
  have hdescend := fun x (hx : pointer t = some x) => rbDescend_locate (ρ := ρ) tree new []
    (rbMaxHeight - 1) hx (by omega) (P := treeCells tree base t + {new.cell} + {⟨.node, fresh, none⟩})
    (by simp) (by simp +contextual [treeCells])
  rw [rbProbe]
  refine .bind (load_root base (pointer t) (by simp [treeCells])) ?_
  rw [link_rootCell]
  cases t with
  | nil =>
    refine .bind ((Triple.alloc (k := Kind.node) (a := fresh) ⟨new.addr, fun _ => none, code .black⟩
      ({rootCell tree base none} + {new.cell})).of_eq (by rw [treeCells, cells, pointer]; abel)
      rfl) ?_
    refine .bind ((linkTop_way tree base [] none (some fresh) ({new.cell} +
      {⟨.node, fresh, some ⟨new.addr, fun _ => none, code .black⟩⟩})).of_eq ?_ rfl) ?_
    · rw [wayCells]
      abel
    · refine (Triple.pure _ _).of_eq rfl ?_
      have hleaf : inserted .nil new fresh = .node .black .nil ⟨fresh, new⟩ .nil := rfl
      rw [wayCells, hleaf, treeCells, cells_leaf, pointer]
      abel
  | node c l e r =>
    refine .bind (hdescend e.node rfl) ?_
    set t := RedBlack.Tree.node c l e r
    set fs := (locate Entry.key new.key [] t).1
    have hplug : plug fs .nil = t := by
      rw [← h]
      exact RedBlack.plug_locate [] t
    rw [h]
    refine .bind ((Triple.alloc (k := Kind.node) (a := fresh) ⟨new.addr, fun _ => none, code .red⟩
      (treeCells tree base t + {new.cell})).of_eq (by abel) rfl) ?_
    refine .bind ((linkTop_way tree base fs none (some fresh) ({new.cell} +
      {⟨.node, fresh, some ⟨new.addr, fun _ => none, code .red⟩⟩})).of_eq ?_ rfl) ?_
    · rw [← hplug, ← wayCells_add_cells, pointer, cells]
      abel
    refine .bind ((rbRebalance_way tree base fs (.node .red .nil ⟨fresh, new⟩ .nil)
      (RedBlack.Tree.node_ne_nil _ _ _ _)).of_eq ?_
      rfl) ?_
    · rw [cells_leaf, pointer]
      abel
    change Triple _ _ _ (treeCells tree base
      (insertFix fs (.node .red .nil ⟨fresh, new⟩ .nil)).blacken)
    obtain ⟨y, hy⟩ := exists_pointer (RedBlack.insertFix_ne_nil fs
      (x := .node .red .nil ⟨fresh, new⟩ .nil) (RedBlack.Tree.node_ne_nil _ _ _ _))
    refine .bind (load_root base (some y) (by rw [treeCells, hy]; simp)) ?_
    rw [link_rootCell]
    refine .bind (.deref y _) (.bind (x := ()) ?_ (Triple.pure _ _))
    refine ((blacken_cells (insertFix fs (.node .red .nil ⟨fresh, new⟩ .nil))
      {rootCell tree base (some y)}).congr_prog ?_).of_eq ?_ ?_
    · rw [hy]
      rfl
    · rw [treeCells, hy]
      abel
    · rw [treeCells, pointer_blacken, hy]
      abel

end

section
variable {t : RedBlack.Tree Entry} {k : GlobalId} {new : Stored} {fresh : Arg}

/-- The new item stands where the order demands. -/
theorem SearchTree.contents_inserted (h : SearchTree t) (fresh : Arg)
    (hnil : (locate Entry.key new.key [] t).2 = .nil) :
    contents (inserted t new fresh) = KeyedList.insert Stored.key new (contents t) := by
  obtain ⟨hbefore, hafter⟩ := h.separates new.key
  have hcontents := contents_located new.key t
  rw [hnil] at hcontents
  rw [hcontents, contents, inserted, RedBlack.Tree.toList_blacken, RedBlack.toList_insertFix]
  change contents (plug _ _) = _
  rw [contents_plug]
  simpa [contents, RedBlack.Tree.toList] using (KeyedList.insert_append hbefore hafter).symm

theorem SearchTree.inserted (h : SearchTree t) (new : Stored) (fresh : Arg)
    (hnil : (locate Entry.key new.key [] t).2 = .nil) : SearchTree (inserted t new fresh) where
  ordered := by
    rw [← ordered_contents, h.contents_inserted fresh hnil]
    exact (ordered_contents.mpr h.ordered).insert (h.find_of_absent hnil)
  balanced := by
    obtain ⟨N, hbalanced⟩ := h.balanced
    have hplug := RedBlack.plug_locate (f := Entry.key) (k := new.key) [] t
    rw [hnil] at hplug
    rw [show t = plug [] t from rfl, ← hplug] at hbalanced
    obtain ⟨n, hleaf, hfits⟩ := RedBlack.fits_of_balanced hbalanced
    cases hleaf
    obtain ⟨c, M, hfixed⟩ := RedBlack.balanced_insertFix hfits (.red (v := ⟨fresh, new⟩) .nil .nil)
    cases c with
    | red => exact ⟨M + 1, hfixed.blacken_red⟩
    | black =>
      refine ⟨M, ?_⟩
      rw [Rb.inserted, RedBlack.Tree.blacken_of_black hfixed.color_eq]
      exact hfixed

theorem rbInsert_absent (new : Stored) (fresh tree : Arg) (base : Node) (h : SearchTree t)
    (hsize : t.size < maxItems) (hnil : (locate Entry.key new.key [] t).2 = .nil) :
    Triple (treeCells tree base t + {new.cell} + {⟨.node, fresh, none⟩} : Cells ρ)
      (rbInsert tree new.addr fresh t.size) (some (none, t.size + 1))
      (treeCells tree base (inserted t new fresh)) := by
  refine .bind (rbProbe_absent tree base (h.height_lt hsize) hnil) ?_
  have hmem : (⟨fresh, new⟩ : Entry) ∈ (inserted t new fresh).toList := by
    rw [inserted, RedBlack.Tree.toList_blacken, RedBlack.toList_insertFix, RedBlack.toList_plug]
    simp [RedBlack.Tree.toList]
  obtain ⟨c, x, y, hcell⟩ := node_mem_cells (ρ := ρ) hmem
  refine .bind (load_node (e := ⟨fresh, new⟩) (c := c) (d := .left) (x := x) (y := y) ?_) ?_
  · rw [treeCells]
    exact Multiset.mem_add.mpr (.inr hcell)
  · dsimp only
    rw [if_pos rfl]
    exact Triple.pure _ _

theorem rbInsert_found (new : Stored) (fresh tree : Arg) (base : Node) (count : ℤ) (h : SearchTree t)
    (hsize : t.size < maxItems) {c : RedBlack.Color} {l r : RedBlack.Tree Entry} {e : Entry}
    (hnode : (locate Entry.key new.key [] t).2 = .node c l e r) (R : Cells ρ) :
    Triple (treeCells tree base t + {new.cell} + R) (rbInsert tree new.addr fresh count)
      (some (some e.stored.addr, count)) (treeCells tree base t + {new.cell} + R) := by
  obtain ⟨hmem, -, -⟩ := h.find_of_found hnode
  refine .bind (rbProbe_found tree base (h.height_lt hsize) hnode R) ?_
  obtain ⟨c', x, y, hcell⟩ := node_mem_cells (ρ := ρ) hmem
  refine .bind (load_node (c := c') (d := .left) (x := x) (y := y) ?_) ?_
  · rw [treeCells]
    simp [hcell]
  · -- both items are there, and so they are not one
    refine ⟨rfl, fun m F hm => ?_⟩
    have hne : e.stored.addr ≠ new.addr := by
      have hsplit : treeCells tree base t + {new.cell} + R + F =
          {new.cell} + (treeCells tree base t + R + F) := by abel
      rw [hsplit] at hm
      have hitem : e.stored.cell ∈ treeCells tree base t + R + F := by
        simp [treeCells, item_mem_cells hmem]
      exact fun haddr => hm.ne_of_mem hitem (Prod.ext rfl haddr)
    dsimp only
    rw [if_neg hne]
    exact (Triple.pure _ _).run m F hm

/-- An item is entered at its place unless its key is there, and the tree stays ordered and in
balance. The arrays are large enough, and everything else on the heap stays as it was. -/
theorem rbInsert_keeps {tree : Arg} {base : Node} {m : Memory ρ} {F : Cells ρ} (h : SearchTree t)
    (hsize : t.size < maxItems)
    (hm : m.Is (treeCells tree base t + {new.cell} + {⟨.node, fresh, none⟩} + F)) :
    ∃ m' t', SearchTree t' ∧ rbInsert tree new.addr fresh t.size m =
        .done m' (some ((KeyedList.find Stored.key new.key (contents t)).map Stored.addr, t'.size)) ∧
      match KeyedList.find Stored.key new.key (contents t) with
      | none => contents t' = KeyedList.insert Stored.key new (contents t) ∧
          m'.Is (treeCells tree base t' + F)
      | some _ => t' = t ∧
          m'.Is (treeCells tree base t + {new.cell} + {⟨.node, fresh, none⟩} + F) := by
  rcases RedBlack.locate_eq (f := Entry.key) (k := new.key) [] t with hnil | ⟨c, l, e, r, hfound, -⟩
  · obtain ⟨m', hrun, hm'⟩ := (rbInsert_absent new fresh tree base h hsize hnil).is hm
    have hcontents := h.contents_inserted fresh hnil
    have hlength := congrArg List.length hcontents
    rw [KeyedList.insert, List.orderedInsert_length, contents, contents, List.length_map,
      List.length_map, ← RedBlack.Tree.size_eq_length, ← RedBlack.Tree.size_eq_length] at hlength
    refine ⟨m', inserted t new fresh, h.inserted new fresh hnil, ?_, ?_⟩
    · rw [hrun, h.find_of_absent hnil, hlength]
      rfl
    · rw [h.find_of_absent hnil]
      exact ⟨hcontents, hm'⟩
  · obtain ⟨m', hrun, hm'⟩ := (rbInsert_found new fresh tree base t.size h hsize hfound
      {⟨.node, fresh, none⟩}).is hm
    refine ⟨m', t, h, ?_, ?_⟩
    · rw [hrun, (h.find_of_found hfound).2.2]
      rfl
    · rw [(h.find_of_found hfound).2.2]
      exact ⟨rfl, hm'⟩

end

/-- An item below a red node, whose red sibling takes the colour up. There the tree turns twice, and
has another root. -/
theorem rbInsert_keeps_turned : ∃ m' t', SearchTree t' ∧
    rbInsert (ρ := Unit) 1 137 37 7 (heapOf 1 someRoot someTree
      [(numbered 37).stored.cell, ⟨.node, 37, none⟩]) = .done m' (some (none, t'.size)) ∧
    contents t' = [10, 20, 25, 30, 35, 37, 40, 50].map (fun k => (numbered k).stored) ∧
      m'.Is (treeCells 1 someRoot t' + 0) ∧
      ∃ root, m'.cell .node 1 = some root ∧ root.link .left = some 30 := by
  have hm : (heapOf 1 someRoot someTree
      [(numbered 37).stored.cell, ⟨.node, 37, none⟩] : Memory Unit).Is
      (treeCells 1 someRoot someTree + {(numbered 37).stored.cell} + {⟨.node, 37, none⟩} + 0) := by
    have hnodup : ((rootCell (ρ := Unit) 1 someRoot (pointer someTree) :: (cellList someTree ++
        [(numbered 37).stored.cell, ⟨.node, 37, none⟩])).map Conc.Cell.place).Nodup := by
      decide +kernel
    have his := is_heapOf hnodup
    rwa [← Multiset.cons_coe, ← Multiset.cons_coe, ← Multiset.singleton_add,
      ← Multiset.singleton_add, ← add_assoc, ← add_assoc] at his
  obtain ⟨m', t', hsearch, hrun, hcontents, hm'⟩ :=
    rbInsert_keeps searchTree_someTree (by decide) hm
  have hroot : (rbInsert (ρ := Unit) 1 137 37 7 (heapOf 1 someRoot someTree
      [(numbered 37).stored.cell, ⟨.node, 37, none⟩])).Ends fun m' _ =>
        (m'.cell .node 1).map (fun n => n.link .left) = some (some 30) := by decide +kernel
  refine ⟨m', t', hsearch, hrun, hcontents, hm', ?_⟩
  obtain ⟨m₁, r, hrun₁, hroot⟩ := Outcome.ends_iff.mp hroot
  obtain ⟨rfl, -⟩ := Outcome.done.inj (hrun₁.symm.trans hrun)
  exact Option.map_eq_some_iff.mp hroot

end Clara.Rb
