import Clara.Common.Rb

/-! Search trees on the heap: what a traversal finds first, and what deleting that leaves behind. -/
namespace Clara.Rb

open Conc HeapProg

variable {ρ : Type}

/-- The shape of a tree: each node with its address, the address of its item, and the record that is
entered with it. -/
inductive Tree
  | nil
  | node (a : Arg) (color : Color) (l : Tree) (item x : Arg) (r : Tree)

namespace Tree

def records : Tree → List Arg
  | nil => []
  | node _ _ l _ x r => l.records ++ x :: r.records

def nodes : Tree → List Arg
  | nil => []
  | node a _ l _ _ r => a :: (l.nodes ++ r.nodes)

/-- The tree stands on the heap, and every record is entered under its own address. -/
def At (m : Memory ρ) : Tree → Option Arg → Prop
  | nil, p => p = none
  | node a color l item x r, p => p = some a ∧ m.cell .item item = some ⟨x, x⟩ ∧
    ∃ n : Node, m.cell .node a = some n ∧ n.data = item ∧ n.color = color ∧
      l.At m (n.link .left) ∧ r.At m (n.link .right)

def first : Tree → Option (Arg × Arg)
  | nil => none
  | node a _ l _ x _ => l.first.or (some (a, x))

end Tree

/-- A set whose tree has the shape `t`, with its keys in order. -/
structure SetAt (m : Memory ρ) (set tree : Arg) (t : Tree) : Prop where
  record : ∃ trav, m.cell .set set = some ⟨tree, trav⟩
  root : ∃ root : Node, m.cell .node tree = some root ∧ t.At m (root.link .left)
  ordered : t.records.Pairwise (· < ·)

section
variable {m m' : Memory ρ} {t : Tree} {p : Option Arg} {z x : Arg}

theorem Tree.head_records (t : Tree) : t.records.head? = t.first.map Prod.snd := by
  induction t with
  | nil => rfl
  | node a color l item y r ihl ihr =>
    rw [records, first, List.head?_append, ihl]
    cases l.first <;> rfl

theorem Tree.records_eq_nil (h : t.records = []) : t = .nil := by
  cases t with
  | nil => rfl
  | node a color l item y r =>
    rw [records] at h
    exact absurd h (List.append_ne_nil_of_right_ne_nil _ (List.cons_ne_nil _ _))

theorem Tree.first_isSome (h : t.records ≠ []) : ∃ z x, t.first = some (z, x) := by
  have hhead := t.head_records
  cases hfirst : t.first with
  | none =>
    rw [hfirst, Option.map_none, List.head?_eq_none_iff] at hhead
    exact absurd hhead h
  | some y => exact ⟨y.1, y.2, rfl⟩

theorem Tree.first_mem (h : t.first = some (z, x)) : x ∈ t.records := by
  apply List.mem_of_mem_head?
  rw [t.head_records, h]
  rfl

theorem Tree.At.congr (h : t.At m p) (hnodes : ∀ a ∈ t.nodes, m'.cell .node a = m.cell .node a)
    (hitems : m'.cell .item = m.cell .item) : t.At m' p := by
  induction t generalizing p with
  | nil => exact h
  | node a color l item y r ihl ihr =>
    obtain ⟨hp, hitem, n, hn, hdata, hcolor, hl, hr⟩ := h
    have ha : a ∈ (node a color l item y r).nodes := List.mem_cons_self
    refine ⟨hp, by rw [hitems, hitem], n, by rw [hnodes a ha, hn], hdata, hcolor, ?_, ?_⟩
    · exact ihl hl fun b hb => hnodes b (List.mem_cons_of_mem _ (List.mem_append_left _ hb))
    · exact ihr hr fun b hb => hnodes b (List.mem_cons_of_mem _ (List.mem_append_right _ hb))

theorem Tree.At.first (h : t.At m p) (hfirst : t.first = some (z, x)) : ∃ n : Node,
    m.cell .node z = some n ∧ n.link .left = none ∧ m.cell .item n.data = some ⟨x, x⟩ := by
  induction t generalizing p with
  | nil => cases hfirst
  | node a color l item y r ihl ihr =>
    obtain ⟨-, hitem, n, hn, hdata, -, hl, -⟩ := h
    rw [Tree.first] at hfirst
    cases l with
    | nil =>
      obtain ⟨rfl, rfl⟩ := Prod.mk.inj (Option.some.inj hfirst)
      exact ⟨n, hn, hl, by rw [hdata, hitem]⟩
    | node b color' l' item' y' r' =>
      apply ihl hl
      obtain ⟨w, hw⟩ : ∃ w, (Tree.node b color' l' item' y' r').first = some w := by
        rw [Tree.first]
        cases l'.first with
        | none => exact ⟨_, rfl⟩
        | some w => exact ⟨_, rfl⟩
      rw [hw] at hfirst ⊢
      exact hfirst

theorem Tree.At.descend_done (h : t.At m p) {room : ℕ} {stack stack' : List Arg}
    (hr : descend room stack p m = .done m' stack') :
    m' = m ∧ stack'.head? = (t.first.map Prod.fst).or stack.head? := by
  induction t generalizing p room stack with
  | nil =>
    obtain rfl : p = none := h
    rw [descend] at hr
    obtain ⟨rfl, rfl⟩ := Outcome.done.inj hr
    exact ⟨rfl, rfl⟩
  | node a color l item y r ihl ihr =>
    obtain ⟨rfl, -, n, hn, -, -, hl, -⟩ := h
    cases room with
    | zero => cases hr
    | succ room =>
      rw [descend, bind_run, load_run hn, Outcome.bind_done] at hr
      obtain ⟨rfl, hhead⟩ := ihl hl hr
      refine ⟨rfl, hhead.trans ?_⟩
      rw [Tree.first]
      cases l.first <;> rfl

theorem Tree.At.rbSearch_done (h : t.At m p) (hordered : t.records.Pairwise (· < ·))
    (hfirst : t.first = some (z, x)) {room : ℕ} {pa : Path} {found : Option (Arg × Path)}
    (hr : rbSearch x room pa p m = .done m' found) : m' = m ∧ ∃ pa', found = some (z, pa') := by
  induction t generalizing p room pa with
  | nil => cases hfirst
  | node a color l item y r ihl ihr =>
    obtain ⟨rfl, hitem, n, hn, hdata, -, hl, -⟩ := h
    rw [rbSearch, bind_run, load_run hn, Outcome.bind_done, bind_run, hdata, load_run hitem,
      Outcome.bind_done] at hr
    rw [Tree.first] at hfirst
    cases hlfirst : l.first with
    | none =>
      rw [hlfirst] at hfirst
      obtain ⟨rfl, rfl⟩ := Prod.mk.inj (Option.some.inj hfirst)
      rw [if_pos rfl] at hr
      obtain ⟨rfl, rfl⟩ := Outcome.done.inj hr
      exact ⟨rfl, pa, rfl⟩
    | some w =>
      rw [hlfirst] at hfirst
      obtain rfl := Option.some.inj hfirst
      obtain ⟨hleft, -, hbetween⟩ := List.pairwise_append.mp hordered
      have hlt : x < y := hbetween x (Tree.first_mem hlfirst) y List.mem_cons_self
      rw [if_neg hlt.ne] at hr
      cases room with
      | zero => cases hr
      | succ room =>
        simp only [if_pos hlt] at hr
        exact ihl hl hleft hlfirst hr

end

section

theorem rewrites_setColor (a : Arg) (color : Color) :
    (setColor a color : RbProg ρ Unit).Rewrites .node :=
  (rewrites_load _ _ a).bind fun _ => rewrites_store _ a _

theorem rewrites_setLink (a : Arg) (d : Side) (x : Option Arg) :
    (setLink a d x : RbProg ρ Unit).Rewrites .node :=
  (rewrites_load _ _ a).bind fun _ => rewrites_store _ a _

theorem rewrites_linkTop (pa : Path) (x : Option Arg) :
    (linkTop pa x : RbProg ρ Unit).Rewrites .node := by
  cases pa with
  | nil => exact rewrites_fail _ _
  | cons g rest => exact rewrites_setLink g.1 g.2 x

theorem rewrites_isBlack (x : Option Arg) : (isBlack x : RbProg ρ Bool).Rewrites .node := by
  cases x with
  | none => exact rewrites_pure _ _
  | some x => exact (rewrites_load _ _ x).bind fun _ => rewrites_pure _ _

theorem rewrites_blacken (x : Option Arg) : (blacken x : RbProg ρ Unit).Rewrites .node := by
  cases x with
  | none => exact rewrites_pure _ _
  | some x => exact rewrites_setColor x _

theorem rewrites_rotate (p w : Arg) (d : Side) (rest : Path) :
    (rotate p w d rest : RbProg ρ Unit).Rewrites .node := by
  apply (rewrites_load _ _ w).bind
  intro nw
  apply (rewrites_setLink p _ _).bind
  intro _
  apply (rewrites_setLink w _ _).bind
  exact fun _ => rewrites_linkTop rest _

theorem rewrites_rbCase1 (p w : Arg) (d : Side) (rest : Path) :
    (rbCase1 p w d rest : RbProg ρ (Arg × Path)).Rewrites .node := by
  apply (rewrites_load _ _ w).bind
  intro nw
  split
  · apply (rewrites_setColor w _).bind
    intro _
    apply (rewrites_setColor p _).bind
    intro _
    apply (rewrites_rotate p w d rest).bind
    intro _
    split
    · apply (rewrites_load _ _ p).bind
      intro np
      apply (rewrites_deref _ _).bind
      exact fun w' => rewrites_pure _ _
    · exact rewrites_fail _ _
  · exact rewrites_pure _ _

theorem rewrites_bothBlack (w : Arg) : (bothBlack w : RbProg ρ Bool).Rewrites .node := by
  apply (rewrites_load _ _ w).bind
  intro nw
  apply (rewrites_isBlack _).bind
  intro b
  cases b with
  | false => exact rewrites_pure _ _
  | true => exact rewrites_isBlack _

theorem rewrites_rbCase3 (p w : Arg) (d : Side) :
    (rbCase3 p w d : RbProg ρ Arg).Rewrites .node := by
  apply (rewrites_load _ _ w).bind
  intro nw
  apply (rewrites_isBlack _).bind
  intro b
  cases b with
  | false => exact rewrites_pure _ _
  | true =>
    apply (rewrites_deref _ _).bind
    intro y
    apply (rewrites_setColor y _).bind
    intro _
    apply (rewrites_setColor w _).bind
    intro _
    apply (rewrites_load _ _ y).bind
    intro ny
    apply (rewrites_setLink w _ _).bind
    intro _
    apply (rewrites_setLink y _ _).bind
    intro _
    apply (rewrites_setLink p _ _).bind
    exact fun _ => rewrites_pure _ _

theorem rewrites_rbCase4 (p w : Arg) (d : Side) (rest : Path) :
    (rbCase4 p w d rest : RbProg ρ Unit).Rewrites .node := by
  apply (rewrites_load _ _ p).bind
  intro np
  apply (rewrites_setColor w _).bind
  intro _
  apply (rewrites_setColor p _).bind
  intro _
  apply (rewrites_load _ _ w).bind
  intro nw
  apply (rewrites_deref _ _).bind
  intro far
  apply (rewrites_setColor far _).bind
  exact fun _ => rewrites_rotate p w d rest

theorem rewrites_rbFixup (tree : Arg) (fuel : ℕ) (x : Option Arg) (pa : Path) :
    (rbFixup tree fuel x pa : RbProg ρ Unit).Rewrites .node := by
  induction fuel generalizing x pa with
  | zero => exact rewrites_spin _
  | succ fuel ih =>
    match pa with
    | [] => exact rewrites_blacken x
    | [_] => exact rewrites_blacken x
    | (p, d) :: g :: rest =>
      apply (rewrites_isBlack x).bind
      intro b
      cases b with
      | false => exact rewrites_blacken x
      | true =>
        apply (rewrites_load _ _ p).bind
        intro np
        apply (rewrites_deref _ _).bind
        intro w
        apply (rewrites_rbCase1 p w d _).bind
        rintro ⟨w, rest⟩
        apply (rewrites_bothBlack w).bind
        intro b
        cases b with
        | true => exact (rewrites_setColor w _).bind fun _ => ih _ _
        | false =>
          apply (rewrites_rbCase3 p w d).bind
          intro w
          apply (rewrites_rbCase4 p w d _).bind
          intro _
          apply (rewrites_load _ _ tree).bind
          exact fun root => rewrites_blacken _

end

section
variable {m m' : Memory ρ} {t : Tree} {z x set tree : Arg}

/-- Deleting the first item frees the first node: it has no left child, so that no other node takes
its place. -/
theorem SetAt.rbDelete_done (h : SetAt m set tree t) (hfirst : t.first = some (z, x))
    {item : Option Arg} (hr : rbDelete tree x m = .done m' item) :
    m'.cell .node z = none ∧ Heap.Rewrites .node m m' := by
  obtain ⟨root, hroot, hat⟩ := h.root
  rw [rbDelete, bind_run, load_run hroot, Outcome.bind_done, bind_run] at hr
  obtain ⟨m₁, found, hsearch, hfound⟩ := Outcome.bind_eq_done hr
  obtain ⟨rfl, pa, rfl⟩ := hat.rbSearch_done h.ordered hfirst hsearch
  obtain ⟨n, hn, hleft, -⟩ := hat.first hfirst
  simp only at hfound
  rw [bind_run, load_run hn, Outcome.bind_done, bind_run, rbUnlink, bind_run, load_run hn,
    Outcome.bind_done, hleft] at hfound
  obtain ⟨m₂, unlinked, hunlink, hout⟩ := Outcome.bind_eq_done hfound
  obtain ⟨m₃, u, hlink, hpure⟩ := Outcome.bind_eq_done hunlink
  obtain ⟨rfl, rfl⟩ := Outcome.done.inj hpure
  have hlinked := rewrites_linkTop _ _ _ _ _ hlink
  obtain ⟨m₄, ny, hload, hfreeing⟩ := Outcome.bind_eq_done hout
  obtain ⟨rfl, -⟩ := load_done hload
  obtain ⟨m₅, v, hfree, hlast⟩ := Outcome.bind_eq_done hfreeing
  have hfreed := rewrites_free _ _ _ _ _ hfree
  have hgone : m₅.cell .node z = none := by
    rw [free_done hfree]
    exact Heap.drop_self
  have hrest : Heap.Rewrites .node m₅ m' := by
    by_cases hred : ny.color = Color.red
    · rw [if_pos hred] at hlast
      exact rewrites_pure _ _ _ _ _ hlast
    · rw [if_neg hred] at hlast
      exact (rewrites_rbFixup _ _ _ _).bind (fun _ => rewrites_pure _ _) _ _ _ hlast
  exact ⟨hrest.dwindles z hgone, (hlinked.trans hfreed).trans hrest⟩

end

section
variable {m m' : Memory ρ} {t : Tree} {z x set tree : Arg}

/-- A set keeps its shape as long as its nodes and the items are not touched. -/
theorem SetAt.congr (h : SetAt m set tree t)
    (hrecord : ∃ trav, m'.cell .set set = some ⟨tree, trav⟩)
    (hnodes : ∀ a ∈ tree :: t.nodes, m'.cell .node a = m.cell .node a)
    (hitems : m'.cell .item = m.cell .item) : SetAt m' set tree t where
  record := hrecord
  root := by
    obtain ⟨root, hroot, hat⟩ := h.root
    refine ⟨root, by rw [hnodes tree List.mem_cons_self, hroot], hat.congr ?_ hitems⟩
    exact fun a ha => hnodes a (List.mem_cons_of_mem _ ha)
  ordered := h.ordered

theorem SetAt.put_set (h : SetAt m set tree t) {set' tree' : Arg} (hne : set' = set → tree' = tree)
    (trav : Traverser) : SetAt (m.put .set set' (some ⟨tree', trav⟩)) set tree t := by
  apply h.congr
  · by_cases heq : set' = set
    · subst heq
      exact ⟨trav, by rw [Heap.put_self, hne rfl]⟩
    · obtain ⟨trav', htrav⟩ := h.record
      exact ⟨trav', by rw [Heap.put_of_ne _ (Ne.symm heq), htrav]⟩
  · intro a _
    rw [Heap.put_kind _ (by decide)]
  · exact Heap.put_kind _ (by decide)

theorem SetAt.restart (h : SetAt m set tree t) (trav : Traverser) :
    SetAt (m.put .set set (some ⟨tree, trav⟩)) set tree t := h.put_set (fun _ => rfl) trav

/-- A traversal that begins comes to the first record, and remembers its node. -/
theorem SetAt.setNext_done (h : SetAt m set tree t) (hfirst : t.first = some (z, x))
    {trav : Traverser} (htrav : m.cell .set set = some ⟨tree, trav⟩) (hinit : trav.init = false)
    {next : Option Arg} (hr : setNext set m = .done m' next) : next = some x ∧
      ∃ stack, m' = m.put .set set (some ⟨tree, ⟨true, stack, some z⟩⟩) := by
  obtain ⟨root, hroot, hat⟩ := h.root
  obtain ⟨n, hn, -, hitem⟩ := hat.first hfirst
  rw [setNext, bind_run, load_run htrav, Outcome.bind_done, bind_run, rbTraverse, bind_run, hinit,
    if_neg (by decide), bind_run, load_run hroot, Outcome.bind_done, pure_run,
    Outcome.bind_done] at hr
  obtain ⟨m₁, found, hfound, hstored⟩ := Outcome.bind_eq_done hr
  obtain ⟨m₂, stack, hdescend, htop⟩ := Outcome.bind_eq_done hfound
  obtain ⟨rfl, hhead⟩ := hat.descend_done hdescend
  rw [hfirst, Option.map_some, Option.some_or] at hhead
  obtain ⟨stack, rfl⟩ := List.head?_eq_some_iff.mp hhead
  simp only at htop
  rw [bind_run, load_run hn, Outcome.bind_done, pure_run] at htop
  obtain ⟨rfl, rfl⟩ := Outcome.done.inj htop
  obtain ⟨m₃, u, hstore, hitems⟩ := Outcome.bind_eq_done hstored
  rw [store_run htrav] at hstore
  obtain ⟨rfl, -⟩ := Outcome.done.inj hstore
  have hitem' : (m₂.put .set set (some ⟨tree, ⟨true, stack, some z⟩⟩)).cell .item n.data =
      some ⟨x, x⟩ := by
    rw [Heap.put_kind _ (by decide), hitem]
  simp only at hitems
  rw [bind_run, load_run hitem', Outcome.bind_done, pure_run] at hitems
  obtain ⟨rfl, rfl⟩ := Outcome.done.inj hitems
  exact ⟨rfl, stack, rfl⟩

/-- A traversal that stands on a node which was freed reads it. -/
theorem setNext_freed {stack : List Arg} (htrav : m.cell .set set =
    some ⟨tree, ⟨true, stack, some z⟩⟩) (hgone : m.cell .node z = none) :
    setNext set m = .fault (.freed .node) := by
  rw [setNext, bind_run, load_run htrav, Outcome.bind_done, bind_run, rbTraverse, bind_run,
    if_pos rfl, bind_run, deref_some_run, Outcome.bind_done, bind_run, load_freed hgone]
  rfl

/-- In an empty set there is nothing to come to. -/
theorem SetAt.setNext_nil (h : SetAt m set tree .nil) {trav : Traverser}
    (htrav : m.cell .set set = some ⟨tree, trav⟩) (hinit : trav.init = false) :
    setNext set m = .done (m.put .set set (some ⟨tree, ⟨false, [], none⟩⟩)) none := by
  obtain ⟨root, hroot, hleft⟩ := h.root
  have hnone : root.link .left = none := hleft
  rw [setNext, bind_run, load_run htrav, Outcome.bind_done, bind_run, rbTraverse, bind_run, hinit,
    if_neg (by decide), bind_run, load_run hroot, Outcome.bind_done, pure_run,
    Outcome.bind_done, hnone]
  simp only
  rw [bind_run, descend, pure_run, Outcome.bind_done]
  simp only
  rw [pure_run, Outcome.bind_done, bind_run, store_run htrav]
  rfl

theorem SetAt.setRemove_done (h : SetAt m set tree t) (hfirst : t.first = some (z, x)) {b : Bool}
    (hr : setRemove set x m = .done m' b) :
    m'.cell .node z = none ∧ m'.cell .set = m.cell .set := by
  obtain ⟨trav, htrav⟩ := h.record
  rw [setRemove, bind_run, load_run htrav, Outcome.bind_done] at hr
  obtain ⟨m₁, item, hdelete, hlast⟩ := Outcome.bind_eq_done hr
  obtain ⟨hgone, hkept⟩ := h.rbDelete_done hfirst hdelete
  have hsets : m₁.cell .set = m.cell .set := hkept.others .set (by decide)
  cases item with
  | none =>
    obtain ⟨rfl, -⟩ := Outcome.done.inj hlast
    exact ⟨hgone, hsets⟩
  | some item =>
    obtain ⟨m₂, u, hfree, hpure⟩ := Outcome.bind_eq_done hlast
    obtain ⟨rfl, -⟩ := Outcome.done.inj hpure
    have hitems := rewrites_free _ _ _ _ _ hfree
    rw [hitems.others .node (by decide), hitems.others .set (by decide)]
    exact ⟨hgone, hsets⟩

end

end Clara.Rb
