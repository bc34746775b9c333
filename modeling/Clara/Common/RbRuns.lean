import Clara.Common.IdSet
import Clara.Common.RbProbe
import Clara.Common.RbRemoval
import Clara.Common.RbWalk

/-! `set.c` on the heap over whole histories of calls, against the tables that the processes are
modelled over. -/
namespace Clara.Rb

open Conc HeapProg
open RedBlack (Frame plug locate)

variable {ρ : Type}

section
variable {set tree : Arg} {trav : Traverser} {base : Node} {t : RedBlack.Tree Entry}

/-- The cell of an address where nothing stands. -/
def emptyCell (k : Kind) (a : Arg) : Conc.Cell Kind (Kind.Rec ρ) Arg := ⟨k, a, none⟩

theorem setCreate_set (set tree : Arg) (trav : Traverser) (base : Node) :
    Triple ({emptyCell .set set} + {emptyCell .node tree} : Cells ρ) (setCreate set tree base trav) 0
      (setCells set tree trav { base with link := fun _ => none } .nil) := by
  have hset : Triple ({emptyCell .set set} + {emptyCell .node tree} : Cells ρ)
      (alloc Kind.set set (⟨tree, trav⟩ : SetRecord)) () _ := Triple.alloc _ _
  have hroot : Triple ({emptyCell .node tree} + {⟨.set, set, some (⟨tree, trav⟩ : SetRecord)⟩} :
      Cells ρ) (alloc Kind.node tree ({ base with link := fun _ => none } : Node)) () _ :=
    Triple.alloc _ _
  rw [setCreate]
  refine .bind hset ?_
  rw [rbCreate]
  refine .bind (hroot.of_eq (by abel) rfl) ((Triple.pure _ _).of_eq rfl ?_)
  have hlink : Function.update (fun _ : Side => (none : Option Arg)) .left none =
      fun _ => none := Function.update_eq_self _ _
  rw [setCells, treeCells, cells, rootCell, pointer, hlink]
  abel

theorem setInsert_absent (set tree : Arg) (trav : Traverser) (base : Node) (h : SearchTree t)
    (hsize : t.size < maxItems) {key : GlobalId} (data item fresh : Arg)
    (hnil : (locate Entry.key key [] t).2 = .nil) :
    Triple (setCells set tree trav base t + {⟨.item, item, none⟩} + {⟨.node, fresh, none⟩} : Cells ρ)
      (setInsert set key data item fresh t.size) (some (true, t.size + 1))
      (setCells set tree trav base (inserted t ⟨item, ⟨key, data⟩⟩ fresh)) := by
  rw [setInsert]
  refine .bind ((Triple.alloc (k := Kind.item) (a := item) ⟨key, data⟩
    (setCells set tree trav base t + {⟨.node, fresh, none⟩})).of_eq (by abel) rfl) ?_
  refine .bind (Triple.load (k := Kind.set) (a := set) (v := ⟨tree, trav⟩) (by simp [setCells])) ?_
  refine .bind (((rbInsert_absent (ρ := ρ) ⟨item, ⟨key, data⟩⟩ fresh tree base h hsize hnil).frame
    {⟨.set, set, some ⟨tree, trav⟩⟩}).of_eq ?_ rfl) ?_
  · rw [setCells, Stored.cell]
    abel
  · refine (Triple.pure _ _).of_eq rfl ?_
    rw [setCells]
    abel

/-- A duplicate frees the item that the tree keeps. -/
theorem setInsert_found (set tree : Arg) (trav : Traverser) (base : Node) (h : SearchTree t)
    (hsize : t.size < maxItems) {key : GlobalId} (count : ℤ) (data item fresh : Arg)
    {c : RedBlack.Color} {l r : RedBlack.Tree Entry} {e : Entry}
    (hnode : (locate Entry.key key [] t).2 = .node c l e r) : ∃ Q,
    Triple (setCells set tree trav base t + {⟨.item, item, none⟩} : Cells ρ)
      (setInsert set key data item fresh count) (some (false, count))
      ({⟨.item, e.stored.addr, none⟩} + Q) := by
  obtain ⟨hmem, -, -⟩ := h.find_of_found hnode
  obtain ⟨R, hR⟩ := Multiset.exists_cons_of_mem (item_mem_cells (ρ := ρ) hmem)
  refine ⟨{⟨.set, set, some ⟨tree, trav⟩⟩} + {rootCell tree base (pointer t)} + R +
    {⟨.item, item, some ⟨key, data⟩⟩}, ?_⟩
  rw [setInsert]
  refine .bind ((Triple.alloc (k := Kind.item) (a := item) ⟨key, data⟩
    (setCells set tree trav base t)).of_eq (by abel) rfl) ?_
  refine .bind (Triple.load (k := Kind.set) (a := set) (v := ⟨tree, trav⟩) (by simp [setCells])) ?_
  refine .bind ((rbInsert_found (ρ := ρ) ⟨item, ⟨key, data⟩⟩ fresh tree base count h hsize hnode
    {⟨.set, set, some ⟨tree, trav⟩⟩}).of_eq ?_ rfl) ?_
  · rw [setCells, Stored.cell]
    abel
  · refine .bind ((Triple.free (k := Kind.item) (a := e.stored.addr) (v := e.stored.item)
      ({⟨.set, set, some ⟨tree, trav⟩⟩} + {rootCell tree base (pointer t)} + R +
        {⟨.item, item, some ⟨key, data⟩⟩})).of_eq ?_ rfl) (Triple.pure _ _)
    rw [treeCells, hR, ← Multiset.singleton_add, Stored.cell, Stored.cell]
    abel

theorem setRemove_found (set tree : Arg) (trav : Traverser) (base : Node) (h : SearchTree t)
    (hsize : t.size < maxItems) {key : GlobalId}
    {fs : List (Frame Entry)} {c : RedBlack.Color} {l r : RedBlack.Tree Entry} {e : Entry}
    (hlocate : locate Entry.key key [] t = (fs, .node c l e r)) :
    Triple (setCells set tree trav base t : Cells ρ) (setRemove set key) true
      (setCells set tree trav base (removed t key) + ({⟨.item, e.stored.addr, none⟩} +
        {⟨.node, (unlink fs c l e r).2.2.1, none⟩})) := by
  rw [setRemove]
  refine .bind (Triple.load (k := Kind.set) (a := set) (v := ⟨tree, trav⟩) (by simp [setCells])) ?_
  refine .bind (((rbDelete_found (ρ := ρ) tree base h hsize hlocate).frame
    {⟨.set, set, some ⟨tree, trav⟩⟩}).of_eq ?_ rfl) ?_
  · rw [setCells]
    abel
  · refine .bind ((Triple.free (k := Kind.item) (a := e.stored.addr) (v := e.stored.item)
      (setCells set tree trav base (removed t key) +
        {⟨.node, (unlink fs c l e r).2.2.1, none⟩})).of_eq ?_ rfl) ((Triple.pure _ _).of_eq rfl ?_)
    · rw [setCells, Stored.cell]
      abel
    · abel

theorem setRemove_absent (set tree : Arg) (trav : Traverser) (base : Node) (h : SearchTree t)
    (hsize : t.size < maxItems) {key : GlobalId}
    (hnil : (locate Entry.key key [] t).2 = .nil) :
    Triple (setCells set tree trav base t : Cells ρ) (setRemove set key) false
      (setCells set tree trav base t) := by
  rw [setRemove]
  refine .bind (Triple.load (k := Kind.set) (a := set) (v := ⟨tree, trav⟩) (by simp [setCells])) ?_
  refine .bind (((rbDelete_absent (ρ := ρ) tree base h hsize hnil).frame
    {⟨.set, set, some ⟨tree, trav⟩⟩}).reads ?_) (Triple.pure _ _)
  rw [setCells]
  abel

theorem setList_set (set tree : Arg) (trav : Traverser) (base : Node) (fuel : ℕ)
    (hheight : t.height ≤ rbMaxHeight) (hfuel : t.size < fuel) :
    ∃ trav', Triple (setCells set tree trav base t : Cells ρ) (setList set fuel)
      ((contents t).map fun s => s.item.data) (setCells set tree trav' base t) := by
  have hlength : (contents t).length < fuel := by
    rw [contents, List.length_map, ← RedBlack.Tree.size_eq_length]
    exact hfuel
  obtain ⟨trav', -, hnexts⟩ := setNexts_follows (ρ := ρ) set tree base
    { trav with init := false } (.inl ⟨rfl, rfl⟩) (fun s hs => hs) hheight fuel hlength
  exact ⟨trav', .bind (setStart_set trav) hnexts⟩

end

/-- A call on a set. An insertion comes with the addresses that `malloc` returns for the item and for
the node. -/
inductive SetUse
  | insert (key : GlobalId) (data item node : Arg)
  | remove (key : GlobalId)
  | find (key : GlobalId)
  | list

/-- What the caller sees. -/
inductive SetReply
  | returned (b : Bool)
  | found (data : Option Arg)
  | listed (data : List Arg)
  deriving DecidableEq

namespace SetUse

/-- The call as it is compiled, with what `count` is then. -/
def run (set : Arg) (fuel : ℕ) (count : ℤ) : SetUse → RbProg ρ (Option (SetReply × ℤ))
  | insert key data item node => do
    let r ← setInsert set key data item node count
    pure (r.map fun r => (.returned r.1, r.2))
  | remove key => do
    let b ← setRemove set key
    pure (some (.returned b, countAfter count b))
  | find key => do
    let data ← setFind fuel set key
    pure (some (.found data, count))
  | list => do
    let data ← setList set fuel
    pure (some (.listed data, count))

/-- The call on a table; `none` is a use of freed memory. -/
def apply (table : IdSet GlobalId Arg) : SetUse → Option (SetReply × IdSet GlobalId Arg)
  | insert key data _ _ => (table.setInsert key data).map fun r => (.returned r.1, r.2)
  | remove key => (table.setRemove key).map fun r => (.returned r.1, r.2)
  | find key => (table.setFind key).map fun data => (.found data, table)
  | list => table.setList.map fun data => (.listed data, table)

/-- `malloc` returns what nothing uses. -/
def Fresh (m : Memory ρ) : SetUse → Prop
  | insert _ _ item node => m.cell .item item = none ∧ m.cell .node node = none
  | _ => True

end SetUse

/-- One call after the other; nothing when an assertion fails. -/
def runUses (set : Arg) (fuel : ℕ) (count : ℤ) :
    List SetUse → RbProg ρ (Option (List SetReply × ℤ))
  | [] => pure (some ([], count))
  | u :: us => do
    match ← u.run set fuel count with
    | none => pure none
    | some (reply, count) => do
      let r ← runUses set fuel count us
      pure (r.map fun r => (reply :: r.1, r.2))

def applyUses (table : IdSet GlobalId Arg) :
    List SetUse → Option (List SetReply × IdSet GlobalId Arg)
  | [] => some ([], table)
  | u :: us => (u.apply table).bind fun r => (applyUses r.2 us).map fun q => (r.1 :: q.1, q.2)

/-- Along the history `malloc` returns unused addresses, and the set stays below `maxItems`. -/
def Possible (set : Arg) (fuel : ℕ) : Memory ρ → ℤ → List SetUse → Prop
  | _, count, [] => count < maxItems
  | m, count, u :: us => u.Fresh m ∧ count < maxItems ∧
    match u.run set fuel count m with
    | .done m' (some (_, count')) => Possible set fuel m' count' us
    | _ => True

/-- The key and the data of an item. -/
def Stored.entry (s : Stored) : GlobalId × Arg := (s.key, s.item.data)

/-- The set on the heap stands for the table, beside the records `F`. -/
structure Stands (m : Memory ρ) (set : Arg) (F : Cells ρ) (table : IdSet GlobalId Arg)
    (count : ℤ) : Prop where
  undamaged : table.damaged = false
  counted : count = table.items.length
  holds : ∃ tree trav base t, SearchTree t ∧
    (contents t).map Stored.entry = table.items ∧
    m.Is (setCells set tree trav base t + F)

section
variable {set tree : Arg} {trav : Traverser} {base : Node} {t : RedBlack.Tree Entry}
  {m : Memory ρ} {F : Cells ρ} {table table' : IdSet GlobalId Arg} {count : ℤ} {fuel : ℕ}

theorem isSome_of_mem_cells {c : Conc.Cell Kind (Kind.Rec ρ) Arg} (h : c ∈ cells t) :
    c.value.isSome := by
  induction t with
  | nil => exact absurd h (Multiset.notMem_zero c)
  | node col l e r ihl ihr =>
    rw [cells] at h
    simp only [Multiset.mem_add, Multiset.mem_singleton] at h
    rcases h with ((rfl | rfl) | h) | h
    · rfl
    · rfl
    · exact ihl h
    · exact ihr h

theorem isSome_of_mem_set (hF : ∀ c ∈ F, c.value.isSome) {c : Conc.Cell Kind (Kind.Rec ρ) Arg}
    (h : c ∈ setCells set tree trav base t + F) : c.value.isSome := by
  rw [setCells, treeCells] at h
  simp only [Multiset.mem_add, Multiset.mem_singleton] at h
  rcases h with (rfl | rfl | h) | h
  · rfl
  · rfl
  · exact isSome_of_mem_cells h
  · exact hF c h

theorem find_entry (key : GlobalId) (l : List Stored) :
    KeyedList.find Prod.fst key (l.map Stored.entry) =
      (KeyedList.find Stored.key key l).map Stored.entry :=
  (KeyedList.map_find Stored.entry key fun _ _ => rfl).symm

theorem lookup_of_contents (h : (contents t).map Stored.entry = table.items) (key : GlobalId) :
    table.lookup key =
      (KeyedList.find Stored.key key (contents t)).map fun s => s.item.data := by
  rw [IdSet.lookup, ← h, find_entry, Option.map_map]
  rfl

theorem mem_of_contents (h : (contents t).map Stored.entry = table.items) (key : GlobalId) :
    key ∈ table ↔ (KeyedList.find Stored.key key (contents t)).isSome := by
  change (table.lookup key).isSome ↔ _
  rw [lookup_of_contents h, Option.isSome_map]

theorem count_of_contents (h : (contents t).map Stored.entry = table.items) :
    (t.size : ℤ) = table.items.length := by
  rw [← h, List.length_map, contents, List.length_map, RedBlack.Tree.size_eq_length]

/-- An insertion: of a new key, or of one that is there. -/
theorem Stands.insert (h : Stands m set F table count) (hF : ∀ c ∈ F, c.value.isSome)
    (hsize : count < maxItems) (key : GlobalId) (data : Arg) {item node : Arg}
    (hitem : m.cell .item item = none) (hnode : m.cell .node node = none) :
    ∃ m' count', setInsert set key data item node count m =
        .done m' (some (decide (key ∉ table), count')) ∧
      (key ∉ table → Stands m' set F (table.add key data) count') := by
  obtain ⟨tree, trav, base, t, hsearch, hcontents, hholds⟩ := h.holds
  have hcount : count = t.size := by rw [h.counted, count_of_contents hcontents]
  have hsmall : t.size < maxItems := by rw [hcount] at hsize; exact_mod_cast hsize
  have hne := fun {k : Kind} {a : Arg} (ha : m.cell k a = none) c
    (hc : c ∈ setCells set tree trav base t + F) =>
      hholds.ne_of_empty ha hc (isSome_of_mem_set hF hc)
  have hholds' := hholds.add_empty hitem (hne hitem)
  have hmem := mem_of_contents hcontents key
  rcases RedBlack.locate_eq (f := Entry.key) (k := key) [] t with hnil | ⟨c, l, e, r, hfound, -⟩
  · have habsent : key ∉ table := by
      rw [hmem, hsearch.find_of_absent hnil]
      exact Bool.false_ne_true
    have hempty := hholds'.add_empty hnode fun c hc => by
      rcases Multiset.mem_add.mp hc with hc | hc
      · obtain rfl := Multiset.mem_singleton.mp hc
        exact fun heq => Kind.noConfusion (Prod.mk.inj heq).1
      · exact hne hnode c hc
    obtain ⟨m', hrun, hm'⟩ := (setInsert_absent (ρ := ρ) set tree trav base hsearch hsmall data
      item node hnil).is (F := F) (by
        convert hempty using 1
        abel)
    refine ⟨m', t.size + 1, by rw [hcount, hrun, decide_eq_true habsent], fun _ => ?_⟩
    have hsearch' := hsearch.inserted ⟨item, ⟨key, data⟩⟩ node hnil
    have hnew : contents (inserted t ⟨item, ⟨key, data⟩⟩ node) =
        KeyedList.insert Stored.key ⟨item, ⟨key, data⟩⟩ (contents t) :=
      hsearch.contents_inserted node hnil
    have hitems : (contents (inserted t ⟨item, ⟨key, data⟩⟩ node)).map Stored.entry =
        (table.add key data).items := by
      rw [hnew, IdSet.add, dif_neg habsent]
      change _ = KeyedList.insert Prod.fst (key, data) table.items
      rw [← hcontents]
      exact KeyedList.map_insert Stored.entry rfl fun _ _ => rfl
    refine ⟨?_, ?_, tree, trav, base, _, hsearch', hitems, hm'⟩
    · rw [IdSet.damaged_add, h.undamaged, decide_eq_false habsent]
      rfl
    · have hlength := congrArg List.length hitems
      rw [hnew, List.length_map, KeyedList.insert, List.orderedInsert_length, contents,
        List.length_map, ← RedBlack.Tree.size_eq_length] at hlength
      rw [← hlength]
      exact (Int.natCast_succ _).symm
  · have hpresent : key ∈ table := by
      rw [hmem, (hsearch.find_of_found hfound).2.2]
      rfl
    obtain ⟨Q, hinsert⟩ := setInsert_found (ρ := ρ) set tree trav base hsearch hsmall count data item
      node hfound
    obtain ⟨m', hrun, -⟩ := hinsert.is (F := F) (by
      convert hholds' using 1
      abel)
    refine ⟨m', count, ?_, fun habsent => absurd hpresent habsent⟩
    rw [hrun, decide_eq_false (not_not.mpr hpresent)]

theorem Stands.remove (h : Stands m set F table count) (hsize : count < maxItems)
    (key : GlobalId) : ∃ m', setRemove set key m = .done m' (decide (key ∈ table)) ∧
      Stands m' set F (table.erase key) (countAfter count (decide (key ∈ table))) := by
  obtain ⟨tree, trav, base, t, hsearch, hcontents, hholds⟩ := h.holds
  have hcount : count = t.size := by rw [h.counted, count_of_contents hcontents]
  have hsmall : t.size < maxItems := by rw [hcount] at hsize; exact_mod_cast hsize
  have hmem := mem_of_contents hcontents key
  have hitems : (contents (removed t key)).map Stored.entry = (table.erase key).items := by
    rw [hsearch.contents_removed key]
    change _ = KeyedList.erase Prod.fst key table.items
    rw [← hcontents]
    exact KeyedList.map_erase Stored.entry key fun _ _ => rfl
  rcases hlocate : locate Entry.key key [] t with ⟨fs, _ | ⟨c, l, e, r⟩⟩
  · have hnil : (locate Entry.key key [] t).2 = .nil := by rw [hlocate]
    have habsent : key ∉ table := by
      rw [hmem, hsearch.find_of_absent hnil]
      exact Bool.false_ne_true
    obtain ⟨m', hrun, hm'⟩ :=
      (setRemove_absent (ρ := ρ) set tree trav base hsearch hsmall hnil).is hholds
    have hsame : removed t key = t := by rw [removed, hlocate]
    rw [hsame] at hitems
    refine ⟨m', by rw [hrun, decide_eq_false habsent], ?_, ?_, tree, trav, base, t, hsearch, hitems,
      hm'⟩
    · exact h.undamaged
    · rw [decide_eq_false habsent, countAfter, if_neg Bool.false_ne_true, hcount,
        count_of_contents hitems]
  · have hpresent : key ∈ table := by
      rw [hmem, (hsearch.find_of_found (k := key) (by rw [hlocate])).2.2]
      rfl
    obtain ⟨m', hrun, hm'⟩ :=
      (setRemove_found (ρ := ρ) set tree trav base hsearch hsmall hlocate).is hholds
    have hempty : m'.Is ({⟨.item, e.stored.addr, none⟩} + {⟨.node, (unlink fs c l e r).2.2.1, none⟩} +
        (setCells set tree trav base (removed t key) + F)) := by
      convert hm' using 1
      abel
    refine ⟨m', by rw [hrun, decide_eq_true hpresent], ?_, ?_, tree, trav, base, _,
      hsearch.removed key, hitems, hempty.of_add (by simp)⟩
    · exact h.undamaged
    · obtain ⟨he, rfl, -⟩ := hsearch.find_of_found (k := key) (by rw [hlocate])
      have hlength := (ordered_contents.mpr hsearch.ordered).length_erase
        (List.mem_map_of_mem (f := Entry.stored) he)
      rw [← hitems, List.length_map, hsearch.contents_removed e.key, decide_eq_true hpresent,
        countAfter, if_pos rfl, hcount, count_of_contents hcontents, ← hcontents, List.length_map]
      change ((contents t).length : ℤ) - 1 = _
      rw [← hlength]
      push_cast
      exact add_sub_cancel_right _ _

theorem Stands.find (h : Stands m set F table count) (key : GlobalId)
    (hsize : count < maxItems) (hfuel : maxItems ≤ fuel) : ∃ m',
      setFind fuel set key m = .done m' (table.lookup key) ∧ Stands m' set F table count := by
  obtain ⟨tree, trav, base, t, hsearch, hcontents, hholds⟩ := h.holds
  have hcount : count = t.size := by rw [h.counted, count_of_contents hcontents]
  have hsmall : t.size < maxItems := by rw [hcount] at hsize; exact_mod_cast hsize
  have hheight := hsearch.height_lt hsmall
  obtain ⟨m', hrun, hm'⟩ := (setFind_set (ρ := ρ) set tree trav base hsearch key fuel (by
    rw [rbMaxHeight, maxItems] at *; omega)).is hholds
  rw [lookup_of_contents hcontents]
  exact ⟨m', hrun, h.undamaged, h.counted, tree, trav, base, t, hsearch, hcontents, hm'⟩

theorem Stands.list (h : Stands m set F table count) (hsize : count < maxItems)
    (hfuel : maxItems ≤ fuel) : ∃ m', setList set fuel m =
      .done m' (table.items.map Prod.snd) ∧ Stands m' set F table count := by
  obtain ⟨tree, trav, base, t, hsearch, hcontents, hholds⟩ := h.holds
  have hcount : count = t.size := by rw [h.counted, count_of_contents hcontents]
  have hsmall : t.size < maxItems := by rw [hcount] at hsize; exact_mod_cast hsize
  obtain ⟨trav', htriple⟩ := setList_set (ρ := ρ) set tree trav base fuel
    (hsearch.height_lt hsmall).le (by omega)
  obtain ⟨m', hrun, hm'⟩ := htriple.is hholds
  refine ⟨m', ?_, h.undamaged, h.counted, tree, trav', base, t, hsearch, hcontents, hm'⟩
  rw [hrun, ← hcontents, List.map_map]
  rfl

theorem SetUse.run_stands (h : Stands m set F table count) (hF : ∀ c ∈ F, c.value.isSome)
    (hsize : count < maxItems) (hfuel : maxItems ≤ fuel) {u : SetUse} (hfresh : u.Fresh m)
    {reply : SetReply} (happly : u.apply table = some (reply, table')) :
    ∃ m' count', u.run set fuel count m = .done m' (some (reply, count')) ∧
      (table'.damaged = false → Stands m' set F table' count') := by
  cases u with
  | insert key data item node =>
    obtain ⟨m', count', hrun, hnext⟩ := h.insert hF hsize key data hfresh.1 hfresh.2
    rw [SetUse.apply, IdSet.setInsert, h.undamaged, if_neg Bool.false_ne_true] at happly
    obtain ⟨rfl, rfl⟩ := Prod.mk.inj (Option.some.inj happly)
    refine ⟨m', count', by rw [SetUse.run, bind_run, hrun]; rfl, fun hdamaged => hnext ?_⟩
    rw [IdSet.damaged_add, Bool.or_eq_false_iff] at hdamaged
    exact of_decide_eq_false hdamaged.1
  | remove key =>
    obtain ⟨m', hrun, hnext⟩ := h.remove hsize key
    rw [SetUse.apply, IdSet.setRemove, h.undamaged, if_neg Bool.false_ne_true] at happly
    obtain ⟨rfl, rfl⟩ := Prod.mk.inj (Option.some.inj happly)
    exact ⟨m', _, by rw [SetUse.run, bind_run, hrun]; rfl, fun _ => hnext⟩
  | find key =>
    obtain ⟨m', hrun, hnext⟩ := h.find key hsize hfuel
    rw [SetUse.apply, IdSet.setFind, h.undamaged, if_neg Bool.false_ne_true] at happly
    obtain ⟨rfl, rfl⟩ := Prod.mk.inj (Option.some.inj happly)
    exact ⟨m', count, by rw [SetUse.run, bind_run, hrun]; rfl, fun _ => hnext⟩
  | list =>
    obtain ⟨m', hrun, hnext⟩ := h.list hsize hfuel
    rw [SetUse.apply, IdSet.setList, h.undamaged, if_neg Bool.false_ne_true] at happly
    obtain ⟨rfl, rfl⟩ := Prod.mk.inj (Option.some.inj happly)
    refine ⟨m', count, ?_, fun _ => hnext⟩
    rw [SetUse.run, bind_run, hrun]
    rfl

/-- No further use is possible once an item of the tree was freed. -/
theorem applyUses_damaged (h : table.damaged = true) {us : List SetUse} {replies : List SetReply}
    (happly : applyUses table us = some (replies, table')) : us = [] := by
  cases us with
  | nil => rfl
  | cons u us =>
    have hnone : u.apply table = none := by
      cases u <;> simp [SetUse.apply, IdSet.setInsert, IdSet.setRemove, IdSet.setFind,
        IdSet.setList, h]
    rw [applyUses, hnone] at happly
    cases happly

/-- A history on the heap gives the replies of the table. -/
theorem runUses_stands (h : Stands m set F table count) (hF : ∀ c ∈ F, c.value.isSome)
    (hfuel : maxItems ≤ fuel) {us : List SetUse} (hpossible : Possible set fuel m count us)
    {replies : List SetReply} (happly : applyUses table us = some (replies, table')) :
    ∃ m' count', runUses set fuel count us m = .done m' (some (replies, count')) ∧
      (table'.damaged = false → Stands m' set F table' count' ∧ count' < maxItems) := by
  induction us generalizing m count table replies with
  | nil =>
    obtain ⟨rfl, rfl⟩ := Prod.mk.inj (Option.some.inj happly)
    exact ⟨m, count, rfl, fun _ => ⟨h, hpossible⟩⟩
  | cons u us ih =>
    obtain ⟨hfresh, hsize, hnext⟩ := hpossible
    rw [applyUses] at happly
    obtain ⟨⟨reply, table₁⟩, hu, happly⟩ := Option.bind_eq_some_iff.mp happly
    obtain ⟨⟨replies', table₂⟩, hus, heq⟩ := Option.map_eq_some_iff.mp happly
    obtain ⟨rfl, rfl⟩ := Prod.mk.inj heq
    obtain ⟨m₁, count₁, hrun, hstands⟩ := u.run_stands h hF hsize hfuel hfresh hu
    cases hdamaged : table₁.damaged with
    | false =>
      rw [hrun] at hnext
      obtain ⟨m', count', hrest, hend⟩ := ih (hstands hdamaged) hnext hus
      refine ⟨m', count', ?_, hend⟩
      rw [runUses, bind_run, hrun, Outcome.bind_done]
      dsimp only
      rw [bind_run, hrest]
      rfl
    | true =>
      obtain rfl := applyUses_damaged hdamaged hus
      obtain ⟨rfl, rfl⟩ := Prod.mk.inj (Option.some.inj hus)
      refine ⟨m₁, count₁, by rw [runUses, bind_run, hrun]; rfl, fun hnot => ?_⟩
      rw [hdamaged] at hnot
      cases hnot

end

/-- The life of a set; nothing when an assertion fails. -/
def setLife (set tree : Arg) (base : Node) (trav : Traverser) (fuel : ℕ) (us : List SetUse) :
    RbProg ρ (Option (List SetReply)) := do
  let count ← setCreate set tree base trav
  match ← runUses set fuel count us with
  | none => pure none
  | some (replies, _) => do
    setDestroy fuel set
    pure (some replies)

def itemCells (items : List Stored) : Cells ρ := Multiset.ofList (items.map Stored.cell)

theorem freedCells_eq (t : RedBlack.Tree Entry) : (freedCells t : Cells ρ) =
    ↑(t.toList.map fun e => (emptyCell .node e.node : Conc.Cell Kind (Kind.Rec ρ) Arg)) +
      itemCells (contents t) := by
  induction t with
  | nil => rfl
  | node c l e r ihl ihr =>
    rw [freedCells, ihl, ihr, contents, contents, contents, RedBlack.Tree.toList]
    simp only [itemCells, List.map_append, List.map_cons, ← Multiset.coe_add, ← Multiset.cons_coe,
      ← Multiset.singleton_add, emptyCell]
    abel

section
variable {set tree : Arg} {base : Node} {trav : Traverser} {fuel : ℕ} {m : Memory ρ} {F : Cells ρ}

theorem setCreate_stands (base : Node) (trav : Traverser)
    (hm : m.Is ({emptyCell .set set} + {emptyCell .node tree} + F)) :
    ∃ m', setCreate set tree base trav m = .done m' 0 ∧ Stands m' set F IdSet.empty 0 := by
  obtain ⟨m', hrun, hm'⟩ := (setCreate_set set tree trav base).is hm
  exact ⟨m', hrun, rfl, rfl, tree, trav, _, .nil, ⟨.nil, 0, .nil⟩, rfl, hm'⟩

theorem Stands.destroy {table : IdSet GlobalId Arg} {count : ℤ} (h : Stands m set F table count)
    (hsize : count < maxItems) (hfuel : 3 * maxItems ≤ fuel) : ∃ m' items,
      setDestroy fuel set m = .done m' () ∧ items.map Stored.entry = table.items ∧
        m'.Is (itemCells items + F) := by
  obtain ⟨tree, trav, base, t, hsearch, hcontents, hholds⟩ := h.holds
  have hcount : count = t.size := by rw [h.counted, count_of_contents hcontents]
  have hsmall : t.size < maxItems := by rw [hcount] at hsize; exact_mod_cast hsize
  obtain ⟨m', hrun, hm'⟩ := (setDestroy_set (ρ := ρ) set tree trav base
    (hsearch.height_lt hsmall).le fuel (by omega)).is hholds
  refine ⟨m', contents t, hrun, hcontents, ?_⟩
  rw [freedCells_eq, ← add_assoc, add_assoc] at hm'
  refine hm'.of_add fun c hc => ?_
  simp only [Multiset.mem_add, Multiset.mem_singleton, Multiset.mem_coe, List.mem_map] at hc
  rcases hc with (rfl | rfl) | ⟨e, -, rfl⟩ <;> rfl

/-- Over its life a set answers as the table does, and nothing freed is used. Its record, its tree
and every node are freed in the end, and what it leaves behind are the items that are still
entered. -/
theorem setLife_leaves (hm : m.Is ({emptyCell .set set} + {emptyCell .node tree} + F))
    (hF : ∀ c ∈ F, c.value.isSome) (hfuel : 3 * maxItems ≤ fuel) {us : List SetUse}
    (hpossible : ∀ m₁, setCreate set tree base trav m = .done m₁ 0 → Possible set fuel m₁ 0 us)
    {replies : List SetReply} {table : IdSet GlobalId Arg}
    (happly : applyUses IdSet.empty us = some (replies, table))
    (hundamaged : table.damaged = false) : ∃ m' items,
      setLife set tree base trav fuel us m = .done m' (some replies) ∧
        items.map Stored.entry = table.items ∧ m'.Is (itemCells items + F) := by
  obtain ⟨m₁, hcreate, hstands⟩ := setCreate_stands base trav hm
  obtain ⟨m₂, count, hruns, hend⟩ := runUses_stands hstands hF (by omega)
    (hpossible m₁ hcreate) happly
  obtain ⟨hlast, hsize⟩ := hend hundamaged
  obtain ⟨m', items, hdestroy, hitems, hm'⟩ := hlast.destroy hsize hfuel
  refine ⟨m', items, ?_, hitems, hm'⟩
  rw [setLife, bind_run, hcreate, Outcome.bind_done, bind_run, hruns, Outcome.bind_done]
  dsimp only
  rw [bind_run, hdestroy]
  rfl

end

/-- Three items are entered, the second below the first and then to the top. One is removed. -/
theorem setLife_leaves_two : ∃ m' items,
    setLife (ρ := Unit) 1 2 someRoot ⟨false, [], none⟩ (3 * maxItems)
        [.insert 9 90 11 12, .insert 7 70 13 14, .insert 8 80 15 16, .find 7, .remove 9, .find 9,
          .list] (Heap.ofCells [emptyCell .set 1, emptyCell .node 2]) =
      .done m' (some [.returned true, .returned true, .returned true, .found (some 70),
        .returned true, .found none, .listed [70, 80]]) ∧
    items.map Stored.entry = ((((IdSet.empty.add 9 90).add 7 70).add 8 80).erase 9).items ∧
      m'.Is (itemCells items + 0) :=
  setLife_leaves (F := 0) (Heap.is_ofCells (by decide))
    (fun c hc => absurd hc (Multiset.notMem_zero c)) (le_refl _) (fun m₁ h => by
      obtain ⟨rfl, -⟩ := Outcome.done.inj h
      have hsize : ∀ n ∈ [(1 : ℤ), 2, 3], n < maxItems := by decide
      exact ⟨⟨rfl, rfl⟩, by decide, ⟨rfl, rfl⟩, hsize 1 (by decide), ⟨rfl, rfl⟩, hsize 2 (by decide),
        trivial, hsize 3 (by decide), trivial, hsize 3 (by decide), trivial, hsize 2 (by decide),
        trivial, hsize 2 (by decide), hsize 2 (by decide)⟩) rfl rfl

end Clara.Rb
