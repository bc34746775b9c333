import Clara.Common.RbSearch

/-! The functions of `rb.c` that do not change a tree, and the one that frees it. -/
namespace Clara.Rb

open Conc HeapProg
open RedBlack (Frame plug locate leftmost)

variable {ρ : Type}

theorem rbFindFrom_tree (key : GlobalId) (t : RedBlack.Tree Entry)
    (hordered : KeyedList.Ordered Entry.key t.toList) {fuel : ℕ} (hfuel : t.height ≤ fuel)
    {P : Cells ρ} (hcells : ∀ c ∈ cells t, c ∈ P) :
    Triple P (rbFindFrom key fuel (pointer t))
      ((KeyedList.find Stored.key key (contents t)).map Stored.addr) P := by
  induction t generalizing fuel with
  | nil =>
    cases fuel <;> exact Triple.pure _ _
  | node c l e r ihl ihr =>
    rw [RedBlack.Tree.height] at hfuel
    obtain ⟨fuel, rfl⟩ : ∃ n, fuel = n + 1 := ⟨fuel - 1, by omega⟩
    have hcontents : contents (.node c l e r) = contents l ++ e.stored :: contents r := by
      simp [contents, RedBlack.Tree.toList]
    have hstored := ordered_contents.mpr hordered
    rw [hcontents] at hstored ⊢
    obtain ⟨hleft, hright⟩ := hstored.between
    obtain ⟨hl, hr, -⟩ := List.pairwise_append.mp hordered
    rw [pointer, rbFindFrom]
    refine .bind (load_node (c := c) (d := .left) (x := pointer l) (y := pointer r)
      (hcells _ (by simp [cells]))) ?_
    refine .bind (load_item (s := e.stored) (hcells _ (by simp [cells]))) ?_
    change Triple P (if key < e.stored.key then _ else if e.stored.key < key then _ else _) _ P
    rw [KeyedList.find, List.find?_append]
    rcases lt_trichotomy key e.stored.key with hlt | rfl | hgt
    · rw [if_pos hlt, show (e.stored :: contents r).find? (fun s => s.key = key) = none from
        KeyedList.find_eq_none.mpr fun s hs => by
          rcases List.mem_cons.mp hs with rfl | hs
          · exact hlt.ne'
          · exact (hlt.trans (hright s hs)).ne', Option.or_none]
      exact ihl hl (by omega) fun c hc => hcells c (by simp [cells, hc])
    · rw [if_neg (lt_irrefl _), if_neg (lt_irrefl _),
        show (contents l).find? (fun s => s.key = e.stored.key) = none from
          KeyedList.find_eq_none.mpr fun s hs => (hleft s hs).ne, Option.none_or,
        List.find?_cons_of_pos (by simp)]
      exact Triple.pure _ _
    · rw [if_neg hgt.asymm, if_pos hgt, show (contents l).find? (fun s => s.key = key) = none from
        KeyedList.find_eq_none.mpr fun s hs => ((hleft s hs).trans hgt).ne, Option.none_or,
        List.find?_cons_of_neg (by simpa using hgt.ne)]
      exact ihr (List.pairwise_cons.mp hr).2 (by omega) fun c hc => hcells c (by simp [cells, hc])

theorem rbFind_tree (tree : Arg) (base : Node) (key : GlobalId) {t : RedBlack.Tree Entry}
    (h : SearchTree t) {fuel : ℕ} (hfuel : t.height ≤ fuel) :
    Triple (treeCells tree base t : Cells ρ) (rbFind fuel tree key)
      ((KeyedList.find Stored.key key (contents t)).map Stored.addr) (treeCells tree base t) := by
  rw [rbFind]
  refine .bind (load_root base (pointer t) (by simp [treeCells])) ?_
  rw [link_rootCell]
  exact rbFindFrom_tree key t h.ordered hfuel (by simp +contextual [treeCells])

/-- The nodes whose left subtree the way comes from, as the traverser keeps them. -/
def ancestors : List (Frame Entry) → List Arg
  | [] => []
  | f :: fs =>
    match f.side with
    | .left => f.value.node :: ancestors fs
    | .right => ancestors fs

theorem length_ancestors (fs : List (Frame Entry)) : (ancestors fs).length ≤ fs.length := by
  induction fs with
  | nil => exact le_refl _
  | cons f fs ih =>
    rw [ancestors]
    split <;> simp only [List.length_cons] <;> omega

/-- The items that a traverser comes to next: all of them when it begins. -/
def Follows (t : RedBlack.Tree Entry) (trav : Traverser) (items : List Stored) : Prop :=
  (trav.init = false ∧ items = contents t) ∨
    ∃ fs c l e r, plug fs (.node c l e r) = t ∧ trav = ⟨true, ancestors fs, some e.node⟩ ∧
      items = contents r ++ (RedBlack.after fs).map Entry.stored

theorem descend_leftmost {c : RedBlack.Color} {l r : RedBlack.Tree Entry} {e : Entry}
    (fs : List (Frame Entry)) (room : ℕ) (hroom : (RedBlack.Tree.node c l e r).height ≤ room)
    {P : Cells ρ} (hcells : ∀ c' ∈ cells (.node c l e r), c' ∈ P) :
    Triple P (descend room (ancestors fs) (some e.node))
      ((leftmost fs c l e r).2.2.1.node :: ancestors (leftmost fs c l e r).1) P := by
  induction l generalizing fs room c e r with
  | nil =>
    rw [RedBlack.Tree.height] at hroom
    obtain ⟨room, rfl⟩ : ∃ n, room = n + 1 := ⟨room - 1, by omega⟩
    rw [descend]
    refine .bind (load_node (c := c) (d := .left) (x := none) (y := pointer r)
      (hcells _ (by simp [cells, pointer]))) ?_
    cases room <;> exact Triple.pure _ _
  | node c' l' e' r' ih _ =>
    rw [RedBlack.Tree.height] at hroom
    obtain ⟨room, rfl⟩ : ∃ n, room = n + 1 := ⟨room - 1, by omega⟩
    rw [descend]
    refine .bind (load_node (c := c) (d := .left) (x := some e'.node) (y := pointer r)
      (hcells _ (by simp [cells, pointer]))) ?_
    exact ih (⟨c, e, .left, r⟩ :: fs) room (by omega) fun c'' hc =>
      hcells c'' (by rw [cells]; simp [hc])

/-- Behind the last node of a subtree comes the nearest ancestor whose left subtree it is in. -/
theorem ancestors_cons {fs : List (Frame Entry)} {a : Arg} {stack : List Arg}
    (h : ancestors fs = a :: stack) (u : RedBlack.Tree Entry) : ∃ gs c l e r,
      plug fs u = plug gs (.node c l e r) ∧ a = e.node ∧ stack = ancestors gs ∧
        RedBlack.after fs = e :: (r.toList ++ RedBlack.after gs) := by
  induction fs generalizing u with
  | nil => cases h
  | cons f fs ih =>
    rw [ancestors] at h
    cases hside : f.side with
    | left =>
      rw [hside] at h
      obtain ⟨rfl, rfl⟩ := List.cons.inj h
      refine ⟨fs, f.color, u, f.value, f.sibling, ?_, rfl, rfl, ?_⟩
      · rw [plug, Frame.plug, hside]
        rfl
      · rw [RedBlack.after, hside]
        rfl
    | right =>
      rw [hside] at h
      obtain ⟨gs, c, l, e, r, hplug, rfl, rfl, hafter⟩ := ih h (f.plug u)
      refine ⟨gs, c, l, e, r, hplug, rfl, rfl, ?_⟩
      rw [RedBlack.after, hside]
      exact hafter

theorem after_of_ancestors {fs : List (Frame Entry)} (h : ancestors fs = []) :
    RedBlack.after fs = [] := by
  induction fs with
  | nil => rfl
  | cons f fs ih =>
    rw [ancestors] at h
    rw [RedBlack.after]
    cases hside : f.side with
    | left =>
      rw [hside] at h
      cases h
    | right =>
      rw [hside] at h
      exact ih h

section
variable {tree : Arg} {base : Node} {t : RedBlack.Tree Entry}

theorem descend_nil (stack : List Arg) (room : ℕ) (P : Cells ρ) :
    Triple P (descend room stack none) stack P := by
  cases room <;> exact Triple.pure _ _

theorem mem_cells_plug {fs : List (Frame Entry)} {u : RedBlack.Tree Entry}
    {cell : Conc.Cell Kind (Kind.Rec ρ) Arg} (h : cell ∈ cells u) : cell ∈ cells (plug fs u) := by
  induction fs generalizing u with
  | nil => exact h
  | cons f fs ih =>
    apply ih
    rw [Frame.plug, cells_on]
    simp [h]

/-- What `rbTraverse` does once it has come to the subtree `u`. -/
theorem descend_follows (fs : List (Frame Entry)) (u : RedBlack.Tree Entry) (hplug : plug fs u = t)
    (hheight : t.height ≤ rbMaxHeight) {P : Cells ρ} (hcells : ∀ c ∈ cells t, c ∈ P)
    (items : List Stored) (hitems : items = contents u ++ (RedBlack.after fs).map Entry.stored) :
    ∃ trav, Triple P (do
      match ← descend (rbMaxHeight - (ancestors fs).length) (ancestors fs) (pointer u) with
      | [] => pure (none, ⟨false, [], none⟩)
      | p :: stack => do
        let n ← load Kind.node p
        pure (some n.data, ⟨true, stack, some p⟩)) (items.head?.map Stored.addr, trav) P ∧
      (items = [] → Follows t trav (contents t)) ∧
      ∀ s rest, items = s :: rest → Follows t trav rest := by
  -- the node that is on top of the stack, and what comes behind it
  have htop : ∀ gs c l e r, plug gs (.node c l e r) = t →
      items = e.stored :: (contents r ++ (RedBlack.after gs).map Entry.stored) →
        Triple P (do
          let n ← load Kind.node e.node
          pure (some n.data, ⟨true, ancestors gs, some e.node⟩))
            (items.head?.map Stored.addr, (⟨true, ancestors gs, some e.node⟩ : Traverser)) P ∧
          ∀ s rest, items = s :: rest →
            Follows t ⟨true, ancestors gs, some e.node⟩ rest := by
    intro gs c l e r hgs hhead
    constructor
    · refine .bind (load_node (e := e) (c := c) (d := .left) (x := pointer l) (y := pointer r)
        (hcells _ ?_)) ?_
      · rw [← hgs]
        exact mem_cells_plug (by simp [cells])
      · rw [hhead]
        exact Triple.pure _ _
    · intro s rest hcons
      rw [hhead] at hcons
      obtain ⟨-, rfl⟩ := List.cons.inj hcons
      exact .inr ⟨gs, c, l, e, r, hgs, rfl, rfl⟩
  cases u with
  | nil =>
    rw [contents_nil, List.nil_append] at hitems
    cases hstack : ancestors fs with
    | nil =>
      rw [after_of_ancestors hstack] at hitems
      refine ⟨⟨false, [], none⟩, .bind (descend_nil _ _ _) ?_, fun _ => .inl ⟨rfl, rfl⟩, ?_⟩
      · rw [hitems]
        exact Triple.pure _ _
      · intro s rest hcons
        rw [hitems] at hcons
        cases hcons
    | cons a stack =>
      obtain ⟨gs, c, l, e, r, hgs, rfl, rfl, hafter⟩ := ancestors_cons hstack .nil
      have hhead : items = e.stored :: (contents r ++ (RedBlack.after gs).map Entry.stored) := by
        rw [hitems, hafter]
        simp [contents]
      obtain ⟨htriple, hnext⟩ := htop gs c l e r (hgs.symm.trans hplug) hhead
      refine ⟨_, .bind (descend_nil _ _ _) htriple, fun hnil => ?_, hnext⟩
      rw [hhead] at hnil
      cases hnil
  | node c l e r =>
    have hfirst := RedBlack.plug_leftmost fs c l e r
    have hroom := RedBlack.height_plug fs (.node c l e r)
    have hlength := length_ancestors fs
    rw [hplug] at hroom hfirst
    have hdescend := descend_leftmost (c := c) (l := l) (r := r) (e := e) fs
      (rbMaxHeight - (ancestors fs).length) (by omega) (P := P) fun c' hc =>
        hcells c' (by rw [← hplug]; exact mem_cells_plug hc)
    set s := leftmost fs c l e r
    have hhead : items = s.2.2.1.stored ::
        (contents s.2.2.2 ++ (RedBlack.after s.1).map Entry.stored) := by
      have hwhole := contents_plug s.1 (.node s.2.1 .nil s.2.2.1 s.2.2.2)
      rw [hfirst, ← hplug, contents_plug, RedBlack.before_leftmost, List.append_assoc,
        List.append_assoc] at hwhole
      rw [hitems, List.append_cancel_left hwhole]
      simp [contents, RedBlack.Tree.toList]
    obtain ⟨htriple, hnext⟩ := htop s.1 s.2.1 .nil s.2.2.1 s.2.2.2 hfirst hhead
    refine ⟨_, .bind hdescend htriple, fun hnil => ?_, hnext⟩
    rw [hhead] at hnil
    cases hnil

theorem rbTraverse_follows (tree : Arg) (base : Node) {trav : Traverser} {items : List Stored}
    (h : Follows t trav items) (hheight : t.height ≤ rbMaxHeight) : ∃ trav',
      Triple (treeCells tree base t : Cells ρ) (rbTraverse tree trav)
        (items.head?.map Stored.addr, trav') (treeCells tree base t) ∧
      (items = [] → Follows t trav' (contents t)) ∧
      ∀ s rest, items = s :: rest → Follows t trav' rest := by
  have hcells : ∀ c ∈ cells t, c ∈ (treeCells tree base t : Cells ρ) := by
    simp +contextual [treeCells]
  rcases h with ⟨hinit, rfl⟩ | ⟨fs, c, l, e, r, hplug, rfl, rfl⟩
  · obtain ⟨trav', htriple, hend, hnext⟩ := descend_follows [] t (t := t) rfl hheight hcells
      (contents t) (by simp [RedBlack.after])
    refine ⟨trav', ?_, hend, hnext⟩
    rw [rbTraverse, hinit, if_neg Bool.false_ne_true]
    refine .bind (.bind (load_root base (pointer t) (by simp [treeCells]))
      (Triple.pure _ _)) ?_
    rw [link_rootCell]
    exact htriple
  · obtain ⟨trav', htriple, hend, hnext⟩ := descend_follows (⟨c, e, .right, l⟩ :: fs) r (t := t)
      hplug hheight hcells (contents r ++ (RedBlack.after fs).map Entry.stored) rfl
    refine ⟨trav', ?_, hend, hnext⟩
    rw [rbTraverse, if_pos rfl]
    refine .bind (.bind (.deref e.node _) (.bind (load_node (c := c) (d := .left) (x := pointer l)
      (y := pointer r) (hcells _ ?_)) (Triple.pure _ _))) htriple
    rw [← hplug]
    exact mem_cells_plug (by simp [cells])

/-- The cell of a set with its tree. -/
def setCells (set tree : Arg) (trav : Traverser) (base : Node) (t : RedBlack.Tree Entry) : Cells ρ :=
  {⟨.set, set, some ⟨tree, trav⟩⟩} + treeCells tree base t

def setNexts (set : Arg) : (fuel : ℕ) → RbProg ρ (List Arg)
  | 0 => spin
  | fuel + 1 => do
    match ← setNext set with
    | none => pure []
    | some data => do
      let rest ← setNexts set fuel
      pure (data :: rest)

/-- What lies between `set_start` and `set_finish` in a traversal to the end. -/
def setList (set : Arg) (fuel : ℕ) : RbProg ρ (List Arg) := do
  setStart set
  setNexts set fuel

variable {set : Arg}

theorem setNext_follows (set tree : Arg) (base : Node) {trav : Traverser} {items : List Stored}
    (h : Follows t trav items) (hmem : ∀ s ∈ items, s ∈ contents t)
    (hheight : t.height ≤ rbMaxHeight) : ∃ trav',
      Triple (setCells set tree trav base t : Cells ρ) (setNext set)
        (items.head?.map fun s => s.item.data) (setCells set tree trav' base t) ∧
      (items = [] → Follows t trav' (contents t)) ∧
      ∀ s rest, items = s :: rest → Follows t trav' rest := by
  obtain ⟨trav', htriple, hend, hnext⟩ := rbTraverse_follows (ρ := ρ) tree base h hheight
  refine ⟨trav', ?_, hend, hnext⟩
  rw [setNext]
  refine .bind (Triple.load (k := Kind.set) (a := set) (v := ⟨tree, trav⟩) (by simp [setCells])) ?_
  refine .bind ((htriple.frame {⟨.set, set, some ⟨tree, trav⟩⟩}).of_eq ?_ rfl) ?_
  · rw [setCells]
    abel
  refine .bind ((Triple.store (k := Kind.set) (a := set) (v := ⟨tree, trav⟩) ⟨tree, trav'⟩
    (treeCells tree base t)).of_eq (by abel) rfl) ?_
  cases items with
  | nil => exact Triple.pure _ _
  | cons s rest =>
    obtain ⟨e, he, rfl⟩ := List.mem_map.mp (hmem s List.mem_cons_self)
    refine .bind (load_item (s := e.stored) ?_) (Triple.pure _ _)
    simp [treeCells, item_mem_cells he]

theorem setNexts_follows (set tree : Arg) (base : Node) (trav : Traverser) {items : List Stored}
    (h : Follows t trav items) (hmem : ∀ s ∈ items, s ∈ contents t)
    (hheight : t.height ≤ rbMaxHeight) (fuel : ℕ)
    (hfuel : items.length < fuel) : ∃ trav', Follows t trav' (contents t) ∧
      Triple (setCells set tree trav base t : Cells ρ) (setNexts set fuel)
        (items.map fun s => s.item.data) (setCells set tree trav' base t) := by
  induction items generalizing trav fuel with
  | nil =>
    obtain ⟨fuel, rfl⟩ : ∃ k, fuel = k + 1 := ⟨fuel - 1, by omega⟩
    obtain ⟨trav', htriple, hend, -⟩ := setNext_follows (ρ := ρ) set tree base h hmem hheight
    exact ⟨trav', hend rfl, .bind htriple (Triple.pure _ _)⟩
  | cons s rest ih =>
    obtain ⟨fuel, rfl⟩ : ∃ k, fuel = k + 1 := ⟨fuel - 1, by omega⟩
    obtain ⟨trav', htriple, -, hnext⟩ := setNext_follows (ρ := ρ) set tree base h hmem hheight
    obtain ⟨trav'', hfollows, hrest⟩ := ih trav' (hnext s rest rfl)
      (fun s' hs' => hmem s' (List.mem_cons_of_mem s hs')) fuel
      (by simpa using hfuel)
    exact ⟨trav'', hfollows, .bind htriple (.bind hrest (Triple.pure _ _))⟩

theorem setStart_set (trav : Traverser) :
    Triple (setCells set tree trav base t : Cells ρ) (setStart set) ()
      (setCells set tree { trav with init := false } base t) := by
  rw [setStart]
  refine .bind (Triple.load (k := Kind.set) (a := set) (v := ⟨tree, trav⟩) (by simp [setCells])) ?_
  exact Triple.store _ _

theorem setFind_set (set tree : Arg) (trav : Traverser) (base : Node) (h : SearchTree t)
    (key : GlobalId) (fuel : ℕ) (hfuel : t.height ≤ fuel) :
    Triple (setCells set tree trav base t : Cells ρ) (setFind fuel set key)
      ((KeyedList.find Stored.key key (contents t)).map fun s => s.item.data)
      (setCells set tree trav base t) := by
  rw [setFind]
  refine .bind (Triple.load (k := Kind.set) (a := set) (v := ⟨tree, trav⟩) (by simp [setCells])) ?_
  refine .bind (((rbFind_tree (ρ := ρ) tree base key h hfuel).frame
    {⟨.set, set, some ⟨tree, trav⟩⟩}).reads ?_) ?_
  · rw [setCells]
    abel
  · cases hfind : KeyedList.find Stored.key key (contents t) with
    | none => exact Triple.pure _ _
    | some s =>
      obtain ⟨e, he, rfl⟩ := List.mem_map.mp (KeyedList.find_mem hfind)
      refine .bind (load_item (s := e.stored) ?_) (Triple.pure _ _)
      simp [setCells, treeCells, item_mem_cells he]

/-- A call between `set_start` and `set_finish`. -/
inductive Visit
  | next
  | find (key : GlobalId)

def Visit.run (set : Arg) (fuel : ℕ) : Visit → RbProg ρ (Option Arg)
  | next => setNext set
  | find key => setFind fuel set key

def runVisits (set : Arg) (fuel : ℕ) : List Visit → RbProg ρ (List (Option Arg))
  | [] => pure []
  | v :: vs => do
    let data ← v.run set fuel
    let rest ← runVisits set fuel vs
    pure (data :: rest)

/-- What the calls return when the items `left` are still to come. Behind the last one the traverser
begins again. -/
def visits (items : List Stored) : (left : List Stored) → List Visit → List (Option Arg)
  | _, [] => []
  | left, .find key :: vs =>
    ((KeyedList.find Stored.key key items).map fun s => s.item.data) :: visits items left vs
  | [], .next :: vs => none :: visits items items vs
  | s :: left, .next :: vs => some s.item.data :: visits items left vs

theorem runVisits_follows (set tree : Arg) (base : Node) (trav : Traverser) {left : List Stored}
    (h : Follows t trav left) (hmem : ∀ s ∈ left, s ∈ contents t) (hsearch : SearchTree t)
    (hheight : t.height ≤ rbMaxHeight)
    {fuel : ℕ} (hfuel : t.height ≤ fuel) (vs : List Visit) : ∃ trav',
      Triple (setCells set tree trav base t : Cells ρ) (runVisits set fuel vs)
        (visits (contents t) left vs) (setCells set tree trav' base t) := by
  induction vs generalizing trav left with
  | nil => exact ⟨trav, (Triple.pure _ _).of_result (by cases left <;> rfl)⟩
  | cons v vs ih =>
    cases v with
    | find key =>
      obtain ⟨trav', hrest⟩ := ih trav h hmem
      have hfind := setFind_set (ρ := ρ) set tree trav base hsearch key fuel hfuel
      have hvisits : visits (contents t) left (.find key :: vs) =
          ((KeyedList.find Stored.key key (contents t)).map fun s => s.item.data) ::
            visits (contents t) left vs := by
        cases left <;> rfl
      rw [hvisits]
      exact ⟨trav', .bind hfind (.bind hrest (Triple.pure _ _))⟩
    | next =>
      obtain ⟨trav₁, hfirst, hend, hnext⟩ := setNext_follows (ρ := ρ) set tree base h hmem hheight
      cases left with
      | nil =>
        obtain ⟨trav', hrest⟩ := ih trav₁ (hend rfl) fun s hs => hs
        exact ⟨trav', .bind hfirst (.bind hrest (Triple.pure _ _))⟩
      | cons s left =>
        obtain ⟨trav', hrest⟩ := ih trav₁ (hnext s left rfl) fun s' hs' =>
          hmem s' (List.mem_cons_of_mem s hs')
        exact ⟨trav', .bind hfirst (.bind hrest (Triple.pure _ _))⟩

/-- From `set_start` on `set_next` comes to every item in the order of the keys, however often the
same set is searched meanwhile. The stack is large enough, and only the traverser is changed. -/
theorem traversal_visits {m : Memory ρ} {trav : Traverser} {F : Cells ρ} (h : SearchTree t)
    (hsize : t.size < maxItems) {fuel : ℕ} (hfuel : rbMaxHeight ≤ fuel)
    (hm : m.Is (setCells set tree trav base t + F)) (vs : List Visit) : ∃ m' trav',
      (setStart set >>= fun _ => runVisits set fuel vs) m =
        .done m' (visits (contents t) (contents t) vs) ∧
      m'.Is (setCells set tree trav' base t + F) := by
  have hheight := (h.height_lt hsize).le
  obtain ⟨trav', hvisits⟩ := runVisits_follows (ρ := ρ) set tree base
    { trav with init := false } (.inl ⟨rfl, rfl⟩) (fun s hs => hs) h hheight
    (hheight.trans hfuel) vs
  obtain ⟨m', hrun, hm'⟩ := (Triple.bind (f := fun _ => runVisits set fuel vs) (setStart_set trav)
    hvisits).is hm
  exact ⟨m', trav', hrun, hm'⟩

end

/-- A traversal with a search for an item that is still to come, and one in vain. -/
theorem traversal_visits_between : ∃ m' trav',
    (setStart 4 >>= fun _ => runVisits (ρ := Unit) 4 rbMaxHeight
        [.next, .next, .next, .find 35, .next, .find 60, .next, .next, .next, .next, .next])
        (heapOf 1 someRoot someTree [⟨.set, 4, some ⟨1, ⟨false, [], none⟩⟩⟩]) =
      .done m' [some 210, some 220, some 225, some 235, some 230, none, some 235, some 240,
        some 250, none, some 210] ∧
    m'.Is (setCells 4 1 trav' someRoot someTree + 0) := by
  have hm : (heapOf 1 someRoot someTree [⟨.set, 4, some ⟨1, ⟨false, [], none⟩⟩⟩] : Memory Unit).Is
      (setCells 4 1 ⟨false, [], none⟩ someRoot someTree + 0) := by
    have hnodup : ((rootCell (ρ := Unit) 1 someRoot (pointer someTree) :: (cellList someTree ++
        [⟨.set, 4, some ⟨1, ⟨false, [], none⟩⟩⟩])).map Conc.Cell.place).Nodup := by
      decide +kernel
    have his := is_heapOf hnodup
    rw [setCells, add_zero, add_comm]
    exact his
  exact traversal_visits searchTree_someTree (by decide) (le_refl _) hm _

def freedCells : RedBlack.Tree Entry → Cells ρ
  | .nil => 0
  | .node _ l e r =>
    {⟨.node, e.node, none⟩} + {e.stored.cell} + freedCells l + freedCells r

/-- The traversal of a subtree frees its nodes, and goes on above it. -/
theorem rbDestroyNodes_tree (t : RedBlack.Tree Entry) (stack : List (Arg × Bool))
    (hroom : stack.length + t.height ≤ rbMaxHeight) (fuel : ℕ) {F Q : Cells ρ}
    (hrest : Triple (freedCells t + F) (rbDestroyNodes fuel stack none) () Q) :
    Triple (cells t + F) (rbDestroyNodes (fuel + 3 * t.size) stack (pointer t)) () Q := by
  induction t generalizing stack fuel F Q with
  | nil => exact hrest
  | node c l e r ihl ihr =>
    rw [RedBlack.Tree.height] at hroom
    have hfuel : fuel + 3 * (RedBlack.Tree.node c l e r).size =
        fuel + 1 + 3 * r.size + 1 + 3 * l.size + 1 := by
      rw [RedBlack.Tree.size]
      omega
    rw [hfuel, pointer, rbDestroyNodes, if_pos (by omega)]
    refine .bind (load_node (c := c) (d := .left) (x := pointer l) (y := pointer r)
      (by simp [cells])) ?_
    refine (ihl ((e.node, false) :: stack) (by rw [List.length_cons]; omega) _
      (F := {e.nodeCell c .left (pointer l) (pointer r)} + {e.stored.cell} + cells r + F) ?_).of_eq
        (by rw [cells]; abel) rfl
    rw [rbDestroyNodes]
    refine .bind (load_node (c := c) (d := .left) (x := pointer l) (y := pointer r) (by simp)) ?_
    refine (ihr ((e.node, true) :: stack) (by rw [List.length_cons]; omega) _
      (F := {e.nodeCell c .left (pointer l) (pointer r)} + {e.stored.cell} + freedCells l + F)
        ?_).of_eq (by abel) rfl
    rw [rbDestroyNodes]
    refine .bind ((Triple.free (k := Kind.node) (a := e.node)
      (v := ⟨e.stored.addr, links .left (pointer l) (pointer r), code c⟩) ({e.stored.cell} +
        freedCells l + freedCells r + F)).of_eq ?_ rfl) (hrest.of_eq ?_ rfl)
    · rw [Entry.nodeCell]
      abel
    · rw [freedCells]
      abel

theorem rbDestroy_tree (tree : Arg) (base : Node) {t : RedBlack.Tree Entry}
    (hheight : t.height ≤ rbMaxHeight) {fuel : ℕ} (hfuel : 3 * t.size < fuel) :
    Triple (treeCells tree base t : Cells ρ) (rbDestroy fuel tree) ()
      ({⟨.node, tree, none⟩} + freedCells t) := by
  obtain ⟨k, rfl⟩ : ∃ k, fuel = k + 1 + 3 * t.size := ⟨fuel - 1 - 3 * t.size, by omega⟩
  rw [rbDestroy]
  refine .bind (load_root base (pointer t) (by simp [treeCells])) ?_
  rw [link_rootCell]
  have hnodes := rbDestroyNodes_tree (ρ := ρ) t [] (by simpa using hheight) (k + 1)
    (F := {rootCell tree base (pointer t)}) (Triple.pure () _)
  refine .bind (hnodes.of_eq (by rw [treeCells]; abel) rfl) ?_
  refine (Triple.free (k := Kind.node) (a := tree)
    (v := { base with link := Function.update base.link .left (pointer t) }) (freedCells t)).of_eq
      ?_ rfl
  rw [rootCell]
  abel

theorem setDestroy_set (set tree : Arg) (trav : Traverser) (base : Node) {t : RedBlack.Tree Entry}
    (hheight : t.height ≤ rbMaxHeight) (fuel : ℕ) (hfuel : 3 * t.size < fuel) :
    Triple (setCells set tree trav base t : Cells ρ) (setDestroy fuel set) ()
      ({⟨.set, set, none⟩} + {⟨.node, tree, none⟩} + freedCells t) := by
  rw [setDestroy]
  refine .bind (Triple.load (k := Kind.set) (a := set) (v := ⟨tree, trav⟩) (by simp [setCells])) ?_
  refine .bind (((rbDestroy_tree tree base hheight hfuel).frame
    {⟨.set, set, some ⟨tree, trav⟩⟩}).of_eq ?_ rfl) ?_
  · rw [setCells]
    abel
  · exact (Triple.free (k := Kind.set) (a := set) (v := ⟨tree, trav⟩) ({⟨.node, tree, none⟩} +
      freedCells t)).of_eq (by abel) (by abel)

end Clara.Rb
