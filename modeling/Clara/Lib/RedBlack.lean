import Mathlib.Tactic.Linarith
import Clara.Lib.KeyedList

/-! Red-black trees, seen from one of their subtrees: how an insertion and a deletion restore the
balance on the way back to the root, and how high a balanced tree of a given size can be. -/
namespace RedBlack

inductive Color
  | black
  | red
  deriving DecidableEq

inductive Side
  | left
  | right
  deriving DecidableEq

def Side.other : Side → Side
  | left => right
  | right => left

@[simp] theorem Side.other_other (d : Side) : d.other.other = d := by
  cases d <;> rfl

theorem Side.eq_other_of_ne {d d' : Side} (h : d ≠ d') : d = d'.other := by
  cases d <;> cases d' <;> first | rfl | exact absurd rfl h

inductive Tree (α : Type)
  | nil
  | node (c : Color) (l : Tree α) (v : α) (r : Tree α)

namespace Tree
variable {α : Type}

/-- The colour of the root; a missing node counts as black. -/
def color : Tree α → Color
  | nil => .black
  | node c _ _ _ => c

def toList : Tree α → List α
  | nil => []
  | node _ l v r => l.toList ++ v :: r.toList

def size : Tree α → ℕ
  | nil => 0
  | node _ l _ r => l.size + r.size + 1

def height : Tree α → ℕ
  | nil => 0
  | node _ l _ r => max l.height r.height + 1

def blacken : Tree α → Tree α
  | nil => nil
  | node _ l v r => node .black l v r

def on (d : Side) (c : Color) (t : Tree α) (v : α) (s : Tree α) : Tree α :=
  match d with
  | .left => node c t v s
  | .right => node c s v t

/-- A node seen from the side `d`: its colour, the near child, the value and the far child. -/
def view (d : Side) : Tree α → Option (Color × Tree α × α × Tree α)
  | nil => none
  | node c l v r =>
    match d with
    | .left => some (c, l, v, r)
    | .right => some (c, r, v, l)

section
variable {d : Side} {c c' : Color} {t s : Tree α} {v : α}

@[simp] theorem view_on : (on d c t v s).view d = some (c, t, v, s) := by
  cases d <;> rfl

@[simp] theorem color_on : (on d c t v s).color = c := by
  cases d <;> rfl

@[simp] theorem blacken_on : (on d c t v s).blacken = on d .black t v s := by
  cases d <;> rfl

@[simp] theorem toList_blacken : t.blacken.toList = t.toList := by
  cases t <;> rfl

theorem node_ne_nil (c : Color) (l : Tree α) (v : α) (r : Tree α) : node c l v r ≠ nil := by
  intro h
  cases h

theorem on_ne_nil (d : Side) (c : Color) (t : Tree α) (v : α) (s : Tree α) : on d c t v s ≠ nil := by
  cases d <;> exact node_ne_nil _ _ _ _

theorem exists_on (d : Side) {u : Tree α} (h : u ≠ nil) : ∃ c t v s, u = on d c t v s := by
  cases u with
  | nil => exact absurd rfl h
  | node c l v r =>
    cases d with
    | left => exact ⟨c, l, v, r, rfl⟩
    | right => exact ⟨c, r, v, l, rfl⟩

theorem view_ne_none {u : Tree α} (h : u ≠ nil) : u.view d ≠ none := by
  obtain ⟨c, t, v, s, rfl⟩ := exists_on d h
  rw [view_on]
  exact Option.some_ne_none _

theorem eq_on_of_view {u : Tree α} (h : u.view d = some (c, t, v, s)) : u = on d c t v s := by
  cases u with
  | nil => cases h
  | node c' l w r =>
    cases d <;>
    · obtain ⟨rfl, rfl, rfl, rfl⟩ := h
      rfl

theorem size_eq_length (t : Tree α) : t.size = t.toList.length := by
  induction t with
  | nil => rfl
  | node c l v r ihl ihr =>
    rw [size, toList, List.length_append, List.length_cons, ihl, ihr]
    omega

theorem height_child_on : t.height < (on d c t v s).height := by
  cases d <;> simp only [on, height] <;> omega

end

/-- No red node has a red child, and each way down passes `n` black nodes; `c` is the colour of the
root. -/
inductive Balanced : Color → ℕ → Tree α → Prop
  | nil : Balanced .black 0 nil
  | red {n : ℕ} {l r : Tree α} {v : α} (hl : Balanced .black n l) (hr : Balanced .black n r) :
    Balanced .red n (node .red l v r)
  | black {n : ℕ} {c c' : Color} {l r : Tree α} {v : α} (hl : Balanced c n l)
    (hr : Balanced c' n r) : Balanced .black (n + 1) (node .black l v r)

section
variable {d : Side} {c : Color} {n : ℕ} {t s : Tree α} {v : α}

theorem Balanced.color_eq (h : Balanced c n t) : t.color = c := by
  cases h <;> rfl

theorem Balanced.of_color (h : Balanced c n t) : Balanced t.color n t := by
  rwa [h.color_eq]

theorem balanced_on_red : Balanced c n (on d .red t v s) ↔
    c = .red ∧ Balanced .black n t ∧ Balanced .black n s := by
  constructor
  · intro h
    cases d with
    | left =>
      cases h with
      | red hl hr => exact ⟨rfl, hl, hr⟩
    | right =>
      cases h with
      | red hl hr => exact ⟨rfl, hr, hl⟩
  · rintro ⟨rfl, ht, hs⟩
    cases d with
    | left => exact .red ht hs
    | right => exact .red hs ht

theorem balanced_on_black : Balanced c n (on d .black t v s) ↔
    c = .black ∧ ∃ k, n = k + 1 ∧ Balanced t.color k t ∧ Balanced s.color k s := by
  constructor
  · intro h
    cases d with
    | left =>
      cases h with
      | black hl hr => exact ⟨rfl, _, rfl, hl.of_color, hr.of_color⟩
    | right =>
      cases h with
      | black hl hr => exact ⟨rfl, _, rfl, hr.of_color, hl.of_color⟩
  · rintro ⟨rfl, k, rfl, ht, hs⟩
    cases d with
    | left => exact .black ht hs
    | right => exact .black hs ht

theorem Balanced.on_black (ht : Balanced t.color n t) (hs : Balanced s.color n s) :
    Balanced .black (n + 1) (on d .black t v s) := balanced_on_black.mpr ⟨rfl, n, rfl, ht, hs⟩

theorem Balanced.on_red (ht : Balanced .black n t) (hs : Balanced .black n s) :
    Balanced .red n (on d .red t v s) := balanced_on_red.mpr ⟨rfl, ht, hs⟩

theorem color_eq_black (h : t.color ≠ .red) : t.color = .black := by
  cases hc : t.color with
  | black => rfl
  | red => exact absurd hc h

theorem Balanced.ne_nil_of_red (h : Balanced .red n t) : t ≠ .nil := by
  rintro rfl
  cases h

theorem Balanced.ne_nil (h : Balanced c (n + 1) t) : t ≠ .nil := by
  rintro rfl
  cases h

theorem Balanced.blacken_red (h : Balanced .red n t) : Balanced .black (n + 1) t.blacken := by
  cases h with
  | red hl hr => exact .black hl hr

theorem blacken_of_black (h : t.color = .black) : t.blacken = t := by
  cases t with
  | nil => rfl
  | node c l v r =>
    obtain rfl : c = .black := h
    rfl

theorem Balanced.pow_le_size (h : Balanced c n t) : 2 ^ n ≤ t.size + 1 := by
  induction h with
  | nil => simp [size]
  | red hl hr ihl ihr =>
    simp only [size]
    omega
  | black hl hr ihl ihr =>
    simp only [size, pow_succ]
    omega

theorem Balanced.height_le (h : Balanced c n t) :
    t.height ≤ 2 * n + (if c = .red then 1 else 0) := by
  induction h with
  | nil => simp [height]
  | red hl hr ihl ihr =>
    simp only [reduceCtorEq, if_false, if_true] at ihl ihr ⊢
    simp only [height]
    omega
  | black hl hr ihl ihr =>
    simp only [height, reduceCtorEq, if_false]
    split at ihl <;> split at ihr <;> omega

/-- A high tree has many nodes. -/
def Dense : Color → Tree α → Prop
  | .black, t => ∀ b, 2 * b ≤ t.height → 2 ^ (b + 1) ≤ t.size + 2
  | .red, t => ∀ b, 2 * b + 1 ≤ t.height → 3 * 2 ^ b ≤ t.size + 2

/-- Beside the child of a red node that reaches the height stands one of the same black height. -/
theorem Balanced.dense_red {b : ℕ} (ht : Balanced .black n t) (hdense : Dense .black t)
    (hs : Balanced .black n s) (hb : 2 * b ≤ t.height) : 3 * 2 ^ b ≤ t.size + s.size + 3 := by
  have hn : b ≤ n := by
    have hheight := ht.height_le
    simp only [reduceCtorEq, if_false] at hheight
    omega
  have hpow : 2 ^ b ≤ 2 ^ n := Nat.pow_le_pow_right (by decide) hn
  have hother := hs.pow_le_size
  have hdeep := hdense b hb
  rw [pow_succ] at hdeep
  omega

theorem Balanced.dense_black {c' : Color} {b : ℕ} (ht : Balanced c n t) (hdense : Dense c t)
    (hs : Balanced c' n s) (hb : 2 * b ≤ t.height + 1) : 2 ^ (b + 1) ≤ t.size + s.size + 3 := by
  cases b with
  | zero => omega
  | succ b =>
    have hheight := ht.height_le
    have hother := hs.pow_le_size
    cases c with
    | red =>
      simp only [if_true] at hheight
      have hpow : 2 ^ b ≤ 2 ^ n := Nat.pow_le_pow_right (by decide) (by omega)
      have hdeep := hdense b (by omega)
      rw [pow_succ, pow_succ]
      omega
    | black =>
      simp only [reduceCtorEq, if_false] at hheight
      have hpow : 2 ^ (b + 1) ≤ 2 ^ n := Nat.pow_le_pow_right (by decide) (by omega)
      have hdeep := hdense b (by omega)
      rw [pow_succ]
      omega

theorem Balanced.dense (h : Balanced c n t) : Dense c t := by
  induction h with
  | nil =>
    intro b hb
    obtain rfl : b = 0 := by simpa [height] using hb
    simp [size]
  | @red n l r v hl hr ihl ihr =>
    intro b hb
    simp only [height] at hb
    simp only [size]
    rcases le_total r.height l.height with hle | hle
    · have := hl.dense_red ihl hr (b := b) (by omega)
      omega
    · have := hr.dense_red ihr hl (b := b) (by omega)
      omega
  | @black n c c' l r v hl hr ihl ihr =>
    intro b hb
    simp only [height] at hb
    simp only [size]
    rcases le_total r.height l.height with hle | hle
    · have := hl.dense_black ihl hr (b := b) (by omega)
      omega
    · have := hr.dense_black ihr hl (b := b) (by omega)
      omega

theorem Balanced.height_lt {b : ℕ} (h : Balanced .black n t) (hsize : t.size + 2 < 2 ^ (b + 1)) :
    t.height < 2 * b := by
  by_contra hb
  have := h.dense b (not_lt.mp hb)
  omega

end

end Tree

structure Frame (α : Type) where
  color : Color
  value : α
  side : Side
  sibling : Tree α

section
variable {α : Type}
open RedBlack.Tree

def Frame.plug (f : Frame α) (t : Tree α) : Tree α := on f.side f.color t f.value f.sibling

/-- The frames on the way to the root, the nearest one first. -/
def plug : List (Frame α) → Tree α → Tree α
  | [], t => t
  | f :: fs, t => plug fs (f.plug t)

def before : List (Frame α) → List α
  | [] => []
  | f :: fs => before fs ++ match f.side with
    | .left => []
    | .right => f.sibling.toList ++ [f.value]

def after : List (Frame α) → List α
  | [] => []
  | f :: fs => (match f.side with
    | .left => f.value :: f.sibling.toList
    | .right => []) ++ after fs

theorem toList_plug (fs : List (Frame α)) (t : Tree α) :
    (plug fs t).toList = before fs ++ t.toList ++ after fs := by
  induction fs generalizing t with
  | nil => simp [plug, before, after]
  | cons f fs ih =>
    rw [plug, ih, before, after, Frame.plug]
    cases f.side <;> simp [on, toList]

theorem before_append (fs gs : List (Frame α)) : before (fs ++ gs) = before gs ++ before fs := by
  induction fs with
  | nil => simp [before]
  | cons f fs ih => rw [List.cons_append, before, before, ih, List.append_assoc]

theorem after_append (fs gs : List (Frame α)) : after (fs ++ gs) = after fs ++ after gs := by
  induction fs with
  | nil => simp [after]
  | cons f fs ih => rw [List.cons_append, after, after, ih, List.append_assoc]

theorem height_plug (fs : List (Frame α)) (t : Tree α) :
    t.height + fs.length ≤ (plug fs t).height := by
  induction fs generalizing t with
  | nil => exact le_refl _
  | cons f fs ih =>
    have hstep : t.height < (f.plug t).height := height_child_on
    have := ih (f.plug t)
    rw [plug, List.length_cons]
    omega

/-- A subtree of this colour and black height keeps the whole in balance. -/
def Fits : List (Frame α) → Color → ℕ → Prop
  | [], c, _ => c = .black
  | f :: fs, c, n =>
    match f.color with
    | .red => c = .black ∧ Balanced .black n f.sibling ∧ Fits fs .red n
    | .black => Balanced f.sibling.color n f.sibling ∧ Fits fs .black (n + 1)

theorem Fits.of_red {fs : List (Frame α)} {n : ℕ} (h : Fits fs .red n) : Fits fs .black n := by
  cases fs with
  | nil => cases h
  | cons f fs =>
    rw [Fits] at h ⊢
    cases hf : f.color with
    | red =>
      rw [hf] at h
      cases h.1
    | black =>
      rw [hf] at h
      exact h

theorem Fits.balanced {fs : List (Frame α)} {c : Color} {n : ℕ} {t : Tree α} (h : Fits fs c n)
    (ht : Balanced c n t) : ∃ N, Balanced .black N (plug fs t) := by
  induction fs generalizing c n t with
  | nil =>
    obtain rfl : c = .black := h
    exact ⟨n, ht⟩
  | cons f fs ih =>
    rw [Fits] at h
    rw [plug, Frame.plug]
    cases hf : f.color with
    | red =>
      rw [hf] at h
      obtain ⟨rfl, hs, hfits⟩ := h
      exact ih hfits (ht.on_red hs)
    | black =>
      rw [hf] at h
      exact ih h.2 (ht.of_color.on_black h.1)

/-- Each subtree of a balanced tree is balanced, and fits where it stands. -/
theorem fits_of_balanced {fs : List (Frame α)} {N : ℕ} {t : Tree α}
    (h : Balanced .black N (plug fs t)) : ∃ n, Balanced t.color n t ∧ Fits fs t.color n := by
  induction fs generalizing t with
  | nil => exact ⟨N, h.of_color, h.color_eq⟩
  | cons f fs ih =>
    obtain ⟨n, hbalanced, hfits⟩ := ih h
    rw [Frame.plug] at hbalanced hfits
    cases hf : f.color with
    | red =>
      rw [hf] at hbalanced hfits
      obtain ⟨-, ht, hs⟩ := balanced_on_red.mp hbalanced
      rw [color_on] at hfits
      refine ⟨n, ht.of_color, ?_⟩
      rw [Fits, hf]
      exact ⟨ht.color_eq, hs, hfits⟩
    | black =>
      rw [hf] at hbalanced hfits
      obtain ⟨-, k, rfl, ht, hs⟩ := balanced_on_black.mp hbalanced
      rw [color_on] at hfits
      refine ⟨k, ht, ?_⟩
      rw [Fits, hf]
      exact ⟨hs, hfits⟩

/-- A red node `x` has taken the place of a black subtree: while its parent is red too, the nodes are
painted over when the uncle is red, and turned when it is black. -/
def insertFix : List (Frame α) → Tree α → Tree α
  | p :: g :: rest, x =>
    if p.color = .red then
      if g.sibling.color = .red then
        insertFix rest (on g.side .red (on p.side .black x p.value p.sibling) g.value
          g.sibling.blacken)
      else if p.side = g.side then
        plug rest (on g.side .black x p.value (on g.side .red p.sibling g.value g.sibling))
      else
        match x.view g.side with
        | none => plug (p :: g :: rest) x
        | some (_, near, v, far) =>
          plug rest (on g.side .black (on g.side .red p.sibling p.value near) v
            (on g.side .red far g.value g.sibling))
    else plug (p :: g :: rest) x
  | fs, x => plug fs x

theorem toList_insertFix (fs : List (Frame α)) (x : Tree α) :
    (insertFix fs x).toList = (plug fs x).toList := by
  induction fs, x using insertFix.induct with
  | case1 p g rest x hp hg ih =>
    rw [insertFix, if_pos hp, if_pos hg, ih, plug, plug, Frame.plug, Frame.plug, toList_plug,
      toList_plug]
    cases g.side <;> cases p.side <;> simp [on, toList]
  | case2 p g rest x hp hg hside =>
    rw [insertFix, if_pos hp, if_neg hg, if_pos hside, plug, plug, Frame.plug, Frame.plug,
      toList_plug, toList_plug, hside]
    cases g.side <;> simp [on, toList]
  | case3 p g rest x hp hg hside hview =>
    rw [insertFix, if_pos hp, if_neg hg, if_neg hside, hview]
  | case4 p g rest x hp hg hside c near v far hview =>
    rw [insertFix, if_pos hp, if_neg hg, if_neg hside, hview, plug, plug, Frame.plug, Frame.plug,
      toList_plug, toList_plug, eq_on_of_view hview, Side.eq_other_of_ne hside]
    cases g.side <;> simp [on, toList, Side.other]
  | case5 p g rest x hp => rw [insertFix, if_neg hp]
  | case6 fs x hfs => rw [insertFix.eq_def]; split <;> simp_all

theorem insertFix_ne_nil (fs : List (Frame α)) {x : Tree α} (hx : x ≠ .nil) :
    insertFix fs x ≠ .nil := by
  intro hnil
  have hlist := toList_insertFix fs x
  rw [hnil, toList_plug] at hlist
  cases x with
  | nil => exact hx rfl
  | node c l v r =>
    have hlength := congrArg List.length hlist
    simp [toList] at hlength

theorem Fits.red_of_black {f : Frame α} {fs : List (Frame α)} {c : Color} {n : ℕ}
    (h : Fits (f :: fs) c n) (hf : f.color ≠ .red) : Fits (f :: fs) .red n := by
  rw [Fits] at h ⊢
  cases hc : f.color with
  | red => exact absurd hc hf
  | black =>
    rw [hc] at h
    exact h

theorem Fits.below_red {f : Frame α} {fs : List (Frame α)} {c : Color} {n : ℕ}
    (h : Fits (f :: fs) c n) (hf : f.color = .red) : Balanced .black n f.sibling ∧ Fits fs .red n := by
  rw [Fits, hf] at h
  exact h.2

theorem Fits.below_black {f : Frame α} {fs : List (Frame α)} {c : Color} {n : ℕ}
    (h : Fits (f :: fs) c n) (hf : f.color ≠ .red) :
    Balanced f.sibling.color n f.sibling ∧ Fits fs .black (n + 1) := by
  rw [Fits] at h
  cases hc : f.color with
  | red => exact absurd hc hf
  | black =>
    rw [hc] at h
    exact h

theorem Fits.above_red {p g : Frame α} {rest : List (Frame α)} {c : Color} {n : ℕ}
    (h : Fits (p :: g :: rest) c n) (hp : p.color = .red) : Balanced .black n p.sibling ∧
      Balanced g.sibling.color n g.sibling ∧ Fits rest .black (n + 1) := by
  obtain ⟨hsibling, hfits⟩ := h.below_red hp
  refine ⟨hsibling, hfits.below_black fun hg => ?_⟩
  rw [Fits, hg] at hfits
  cases hfits.1

theorem balanced_insertFix {fs : List (Frame α)} {x : Tree α} {n : ℕ} (hfits : Fits fs .black n)
    (hx : Balanced .red n x) : ∃ c N, Balanced c N (insertFix fs x) := by
  induction fs, x using insertFix.induct generalizing n with
  | case1 p g rest x hp hg ih =>
    rw [insertFix, if_pos hp, if_pos hg]
    obtain ⟨hsibling, huncle, hrest⟩ := hfits.above_red hp
    rw [hg] at huncle
    exact ih hrest ((hx.of_color.on_black hsibling.of_color).on_red huncle.blacken_red)
  | case2 p g rest x hp hg hside =>
    rw [insertFix, if_pos hp, if_neg hg, if_pos hside]
    obtain ⟨hsibling, huncle, hrest⟩ := hfits.above_red hp
    rw [color_eq_black hg] at huncle
    exact ⟨.black, hrest.balanced (hx.of_color.on_black (hsibling.on_red huncle).of_color)⟩
  | case3 p g rest x hp hg hside hview => exact absurd hview (view_ne_none hx.ne_nil_of_red)
  | case4 p g rest x hp hg hside c near v far hview =>
    rw [insertFix, if_pos hp, if_neg hg, if_neg hside, hview]
    obtain ⟨hsibling, huncle, hrest⟩ := hfits.above_red hp
    rw [color_eq_black hg] at huncle
    obtain rfl := eq_on_of_view hview
    obtain rfl : c = .red := by simpa using hx.color_eq
    obtain ⟨-, hnear, hfar⟩ := balanced_on_red.mp hx
    have hleft : Balanced .red n (on g.side .red p.sibling p.value near) := hsibling.on_red hnear
    have hright : Balanced .red n (on g.side .red far g.value g.sibling) := hfar.on_red huncle
    exact ⟨.black, hrest.balanced (hleft.of_color.on_black hright.of_color)⟩
  | case5 p g rest x hp =>
    rw [insertFix, if_neg hp]
    exact ⟨.black, (hfits.red_of_black hp).balanced hx⟩
  | case6 fs x hfs =>
    match fs with
    | [] => exact ⟨.red, n, hx⟩
    | [p] =>
      have hp : p.color ≠ .red := by
        intro hp
        rw [Fits, hp] at hfits
        cases hfits.2.2
      exact ⟨.black, (hfits.red_of_black hp).balanced hx⟩
    | p :: g :: rest => exact absurd rfl (hfs p g rest)

/-- The child `x` of `p` lacks a black node, and its sibling is black. Either the sibling is painted
red, and the whole lacks one, or the nodes are turned, and nothing is missing any more. -/
def resolve (p : Frame α) (x : Tree α) : Tree α × Bool :=
  match p.sibling.view p.side with
  | none => (p.plug x, true)
  | some (_, near, w, far) =>
    if near.color = .black ∧ far.color = .black then
      (on p.side p.color x p.value (on p.side .red near w far), true)
    else if far.color = .black then
      match near.view p.side with
      | none => (p.plug x, true)
      | some (_, a, y, b) =>
        (on p.side p.color (on p.side .black x p.value a) y (on p.side .black b w far), false)
    else (on p.side p.color (on p.side .black x p.value near) w far.blacken, false)

/-- A subtree lacks a black node: a red one is painted over, and a red sibling of a black one makes
place for a black sibling. -/
def deleteFix : List (Frame α) → Tree α → Tree α
  | [], x => x.blacken
  | p :: rest, x =>
    if x.color = .red then plug (p :: rest) x.blacken
    else if p.sibling.color = .red then
      match p.sibling.view p.side with
      | none => plug (p :: rest) x
      | some (_, near, w, far) =>
        let t := resolve ⟨.red, p.value, p.side, near⟩ x
        plug rest (on p.side .black (if t.2 then t.1.blacken else t.1) w far)
    else
      let t := resolve p x
      if t.2 then deleteFix rest t.1 else plug rest t.1

theorem toList_resolve (p : Frame α) (x : Tree α) :
    (resolve p x).1.toList = (p.plug x).toList := by
  rw [resolve]
  split
  · rfl
  · rename_i c near w far hview
    rw [Frame.plug, eq_on_of_view hview]
    split
    · cases p.side <;> simp [on, toList]
    · split
      · split
        · rfl
        · rename_i c' a y b hnear
          rw [eq_on_of_view hnear]
          cases p.side <;> simp [on, toList]
      · cases p.side <;> simp [on, toList]

theorem toList_deleteFix (fs : List (Frame α)) (x : Tree α) :
    (deleteFix fs x).toList = (plug fs x).toList := by
  induction fs generalizing x with
  | nil => exact toList_blacken
  | cons p rest ih =>
    rw [deleteFix]
    split
    · rw [toList_plug, toList_plug, toList_blacken]
    · split
      · split
        · rfl
        · rename_i c near w far hview
          have hresolve := toList_resolve ⟨.red, p.value, p.side, near⟩ x
          have hsettled : ∀ t : Tree α × Bool, (if t.2 then t.1.blacken else t.1).toList =
              t.1.toList := by
            intro t
            split
            · exact toList_blacken
            · rfl
          rw [plug, Frame.plug, eq_on_of_view hview, toList_plug, toList_plug]
          cases hd : p.side <;> rw [hd] at hresolve <;>
            simp [on, toList, hsettled, hresolve, Frame.plug]
      · have hresolve := toList_resolve p x
        rw [plug, toList_plug, ← hresolve]
        dsimp only
        split
        · rw [ih, toList_plug]
        · rw [toList_plug]

/-- A red root stands for the black node that is missing. -/
def Deficient (n : ℕ) (t : Tree α) : Prop :=
  (t.color = .red ∧ Balanced .black (n + 1) t.blacken) ∨ (t.color = .black ∧ Balanced .black n t)

/-- A balanced subtree after a black node above it was taken away. -/
theorem Deficient.of_balanced {c : Color} {n : ℕ} {t : Tree α} (h : Balanced c n t) :
    Deficient n t := by
  cases c with
  | red => exact .inl ⟨h.color_eq, h.blacken_red⟩
  | black => exact .inr ⟨h.color_eq, h⟩

theorem Deficient.balanced_blacken {n : ℕ} {t : Tree α} (h : Deficient n t) :
    ∃ N, Balanced .black N t.blacken := by
  rcases h with ⟨-, h⟩ | ⟨-, h⟩
  · exact ⟨n + 1, h⟩
  · exact ⟨n, by rwa [blacken_of_black h.color_eq]⟩

section
variable {p : Frame α} {x : Tree α} {n : ℕ}

/-- The black height is one higher above a black node. -/
def Color.over : Color → ℕ → ℕ
  | .red, n => n
  | .black, n => n + 1

theorem balanced_on {d : Side} {c : Color} {t s : Tree α} {v : α} (ht : Balanced .black n t)
    (hs : Balanced .black n s) : Balanced c (c.over n) (on d c t v s) := by
  cases c with
  | red => exact ht.on_red hs
  | black => exact ht.of_color.on_black hs.of_color

theorem balanced_resolve (hx : Balanced .black n x) (hw : Balanced .black (n + 1) p.sibling) :
    ((resolve p x).2 = true → (resolve p x).1.color = p.color ∧
        Balanced .black (n + 1) (resolve p x).1.blacken) ∧
      ((resolve p x).2 = false → Balanced p.color (p.color.over (n + 1)) (resolve p x).1) := by
  obtain ⟨c, near, w, far, hsibling⟩ := exists_on p.side hw.ne_nil
  rw [hsibling] at hw
  have hc : c = .black := by simpa using hw.color_eq
  subst hc
  obtain ⟨-, k, hk, hnear, hfar⟩ := balanced_on_black.mp hw
  obtain rfl : n = k := by omega
  have hview : p.sibling.view p.side = some (.black, near, w, far) := by rw [hsibling, view_on]
  rw [resolve, hview]
  dsimp only
  by_cases hboth : near.color = .black ∧ far.color = .black
  · rw [if_pos hboth]
    rw [hboth.1] at hnear
    rw [hboth.2] at hfar
    refine ⟨fun _ => ⟨color_on, ?_⟩, nofun⟩
    rw [blacken_on]
    exact hx.of_color.on_black (hnear.on_red hfar).of_color
  · rw [if_neg hboth]
    by_cases hblack : far.color = .black
    · rw [if_pos hblack]
      rw [hblack] at hfar
      have hred : near.color = .red := by
        cases hn : near.color with
        | red => rfl
        | black => exact absurd ⟨hn, hblack⟩ hboth
      rw [hred] at hnear
      obtain ⟨c, a, y, b, rfl⟩ := exists_on p.side hnear.ne_nil_of_red
      obtain rfl : c = .red := by simpa using hred
      obtain ⟨-, ha, hb⟩ := balanced_on_red.mp hnear
      rw [view_on]
      refine ⟨nofun, fun _ => ?_⟩
      exact balanced_on (hx.of_color.on_black ha.of_color) (hb.of_color.on_black hfar.of_color)
    · rw [if_neg hblack]
      have hred : far.color = .red := by
        cases hf : far.color with
        | red => rfl
        | black => exact absurd hf hblack
      rw [hred] at hfar
      exact ⟨nofun, fun _ => balanced_on (hx.of_color.on_black hnear) hfar.blacken_red⟩

end

theorem Fits.below {p : Frame α} {rest : List (Frame α)} {n : ℕ}
    (h : Fits (p :: rest) .black (n + 1)) (hp : p.sibling.color ≠ .red) :
    Balanced .black (n + 1) p.sibling ∧ Fits rest p.color (p.color.over (n + 1)) := by
  cases hc : p.color with
  | red => exact h.below_red hc
  | black =>
    obtain ⟨hw, hrest⟩ := h.below_black (by rw [hc]; decide)
    rw [color_eq_black hp] at hw
    exact ⟨hw, hrest⟩

theorem Fits.resolve_up {p : Frame α} {rest : List (Frame α)} {x : Tree α} {n : ℕ}
    (h : Fits (p :: rest) .black (n + 1)) (hp : p.sibling.color ≠ .red) (hx : Balanced .black n x)
    (ht : (resolve p x).2 = true) :
    ∃ m, Fits rest .black (m + 1) ∧ Deficient m (resolve p x).1 := by
  obtain ⟨hw, hrest⟩ := h.below hp
  obtain ⟨hcolor, hbalanced⟩ := (balanced_resolve hx hw).1 ht
  cases hc : p.color with
  | red =>
    rw [hc] at hcolor hrest
    exact ⟨n, hrest.of_red, .inl ⟨hcolor, hbalanced⟩⟩
  | black =>
    rw [hc] at hcolor hrest
    rw [blacken_of_black hcolor] at hbalanced
    exact ⟨n + 1, hrest, .inr ⟨hcolor, hbalanced⟩⟩

theorem balanced_deleteFix {fs : List (Frame α)} {x : Tree α} {n : ℕ}
    (hfits : Fits fs .black (n + 1)) (hx : Deficient n x) :
    ∃ N, Balanced .black N (deleteFix fs x) := by
  induction fs generalizing x n with
  | nil => exact hx.balanced_blacken
  | cons p rest ih =>
    rw [deleteFix]
    rcases hx with ⟨hred, hx⟩ | ⟨hblack, hx⟩
    · rw [if_pos hred]
      exact hfits.balanced hx
    · rw [if_neg (by rw [hblack]; decide)]
      by_cases hsibling : p.sibling.color = .red
      · rw [if_pos hsibling]
        obtain ⟨hw, hrest⟩ := hfits.below_black fun hp => by
          rw [(hfits.below_red hp).1.color_eq] at hsibling
          cases hsibling
        rw [hsibling] at hw
        obtain ⟨c, near, w, far, hon⟩ := exists_on p.side hw.ne_nil_of_red
        have hview : p.sibling.view p.side = some (c, near, w, far) := by rw [hon, view_on]
        rw [hon] at hw
        obtain rfl : c = .red := by simpa using hw.color_eq
        obtain ⟨-, hnear, hfar⟩ := balanced_on_red.mp hw
        obtain ⟨hup, hdone⟩ := balanced_resolve (p := ⟨.red, p.value, p.side, near⟩) hx hnear
        rw [hview]
        dsimp only
        cases ht : (resolve ⟨.red, p.value, p.side, near⟩ x).2 with
        | true =>
          rw [if_pos rfl]
          exact hrest.balanced ((hup ht).2.of_color.on_black hfar.of_color)
        | false =>
          rw [if_neg (by decide)]
          exact hrest.balanced ((hdone ht).of_color.on_black hfar.of_color)
      · rw [if_neg hsibling]
        dsimp only
        cases ht : (resolve p x).2 with
        | true =>
          rw [if_pos rfl]
          obtain ⟨m, hrest, hdeficient⟩ := hfits.resolve_up hsibling hx ht
          exact ih hrest hdeficient
        | false =>
          rw [if_neg (by decide)]
          obtain ⟨hw, hrest⟩ := hfits.below hsibling
          exact hrest.balanced ((balanced_resolve hx hw).2 ht)

theorem fits_of_child {fs : List (Frame α)} {d : Side} {c : Color} {v : α} {t : Tree α} {N : ℕ}
    (h : Balanced .black N (plug fs (on d c .nil v t))) :
    (c = .red → ∃ n, Fits fs .black n ∧ Balanced .black n t) ∧
      (c ≠ .red → ∃ n, Fits fs .black (n + 1) ∧ Deficient n t) := by
  obtain ⟨n, hbalanced, hfits⟩ := fits_of_balanced h
  rw [color_on] at hfits
  constructor
  · rintro rfl
    exact ⟨n, hfits.of_red, (balanced_on_red.mp hbalanced).2.2⟩
  · intro hc
    cases c with
    | red => exact absurd rfl hc
    | black =>
      obtain ⟨-, k, rfl, -, ht⟩ := balanced_on_black.mp hbalanced
      exact ⟨k, hfits, .of_balanced ht⟩

section
variable {κ : Type} [LinearOrder κ] (f : α → κ) (k : κ)

/-- The way to the node with the key `k`, or to the place where it belongs. -/
def locate : List (Frame α) → Tree α → List (Frame α) × Tree α
  | fs, .nil => (fs, .nil)
  | fs, .node c l v r =>
    if k = f v then (fs, .node c l v r)
    else if k < f v then locate (⟨c, v, .left, r⟩ :: fs) l
    else locate (⟨c, v, .right, l⟩ :: fs) r

def Separates (fs : List (Frame α)) : Prop :=
  (∀ x ∈ before fs, f x < k) ∧ ∀ x ∈ after fs, k < f x

variable {f k}

@[simp] theorem plug_locate (fs : List (Frame α)) (t : Tree α) :
    plug (locate f k fs t).1 (locate f k fs t).2 = plug fs t := by
  induction t generalizing fs with
  | nil => rfl
  | node c l v r ihl ihr =>
    rw [locate]
    split_ifs
    · rfl
    · exact ihl _
    · exact ihr _

theorem locate_eq (fs : List (Frame α)) (t : Tree α) : (locate f k fs t).2 = .nil ∨
    ∃ c l v r, (locate f k fs t).2 = .node c l v r ∧ k = f v := by
  induction t generalizing fs with
  | nil => exact .inl rfl
  | node c l v r ihl ihr =>
    rw [locate]
    split_ifs with heq
    · exact .inr ⟨c, l, v, r, rfl, heq⟩
    · exact ihl _
    · exact ihr _

theorem separates_locate {fs : List (Frame α)} {t : Tree α}
    (hordered : KeyedList.Ordered f (plug fs t).toList) (h : Separates f k fs) :
    Separates f k (locate f k fs t).1 := by
  induction t generalizing fs with
  | nil => exact h
  | node c l v r ihl ihr =>
    rw [locate]
    have hinner : KeyedList.Ordered f (l.toList ++ v :: r.toList) := by
      rw [toList_plug, KeyedList.Ordered] at hordered
      exact (List.pairwise_append.mp (List.pairwise_append.mp hordered).1).2.1
    obtain ⟨-, hright, hleft⟩ := List.pairwise_append.mp hinner
    split_ifs with heq hlt
    · exact h
    · refine ihl hordered ⟨?_, ?_⟩
      · simpa [before] using h.1
      · intro x hx
        simp only [after, List.cons_append, List.mem_cons, List.mem_append] at hx
        rcases hx with rfl | hx | hx
        · exact hlt
        · exact hlt.trans ((List.pairwise_cons.mp hright).1 x hx)
        · exact h.2 x hx
    · have hgt : f v < k := lt_of_le_of_ne (not_lt.mp hlt) (Ne.symm heq)
      refine ihr hordered ⟨?_, ?_⟩
      · intro x hx
        simp only [before, List.mem_append, List.mem_singleton] at hx
        rcases hx with hx | hx | rfl
        · exact h.1 x hx
        · exact (hleft x hx v List.mem_cons_self).trans hgt
        · exact hgt
      · simpa [after] using h.2

end

/-- The way to the first node of the tree whose root is given. -/
def leftmost : List (Frame α) → Color → Tree α → α → Tree α → List (Frame α) × Color × α × Tree α
  | fs, c, .nil, v, r => (fs, c, v, r)
  | fs, c, .node c' l' v' r', v, r => leftmost (⟨c, v, .left, r⟩ :: fs) c' l' v' r'

theorem leftmost_append (fs gs : List (Frame α)) (c : Color) (l : Tree α) (v : α) (r : Tree α) :
    leftmost (fs ++ gs) c l v r =
      ((leftmost fs c l v r).1 ++ gs, (leftmost fs c l v r).2) := by
  induction l generalizing fs c v r with
  | nil => rfl
  | node c' l' v' r' ih _ => exact ih (⟨c, v, .left, r⟩ :: fs) c' v' r'

theorem plug_leftmost (fs : List (Frame α)) (c : Color) (l : Tree α) (v : α) (r : Tree α) :
    plug (leftmost fs c l v r).1
        (.node (leftmost fs c l v r).2.1 .nil (leftmost fs c l v r).2.2.1
          (leftmost fs c l v r).2.2.2) = plug fs (.node c l v r) := by
  induction l generalizing fs c v r with
  | nil => rfl
  | node c' l' v' r' ih _ => exact ih (⟨c, v, .left, r⟩ :: fs) c' v' r'

theorem before_leftmost (fs : List (Frame α)) (c : Color) (l : Tree α) (v : α) (r : Tree α) :
    before (leftmost fs c l v r).1 = before fs := by
  induction l generalizing fs c v r with
  | nil => rfl
  | node c' l' v' r' ih _ =>
    rw [leftmost, ih, before, List.append_nil]

theorem fits_value {fs gs : List (Frame α)} {f : Frame α} (v : α) {c : Color} {n : ℕ}
    (h : Fits (fs ++ f :: gs) c n) : Fits (fs ++ { f with value := v } :: gs) c n := by
  induction fs generalizing c n with
  | nil => exact h
  | cons e fs ih =>
    rw [List.cons_append, Fits] at h ⊢
    cases he : e.color with
    | red =>
      rw [he] at h
      exact ⟨h.1, h.2.1, ih h.2.2⟩
    | black =>
      rw [he] at h
      exact ⟨h.1, ih h.2⟩

end

end RedBlack
