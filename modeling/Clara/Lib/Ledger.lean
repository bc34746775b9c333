import Mathlib.Algebra.Order.Group.Multiset
import Clara.Lib.Prog

/-! Programs that borrow: the operations of a signature lend things and take them back. The traces
of a program are the runs against every environment at once; a rule for each way to compose
programs says what a trace still owes. -/
namespace Conc

structure Exchange (Op : Type) (Res : Op → Type) where
  op : Op
  ans : Res op

variable {Op : Type} {Res : Op → Type} {ρ α β : Type}

/-- The events of a run that completes, whatever the environment answers. -/
inductive Trace : Prog Op Res α → List (Exchange Op Res) → α → Prop
  | ret (a : α) : Trace (.ret a) [] a
  | op {o : Op} {k : Res o → Prog Op Res α} (r : Res o) {l : List (Exchange Op Res)} {a : α}
    (h : Trace (k r) l a) : Trace (.op o k) (⟨o, r⟩ :: l) a

theorem Trace.of_bind {p : Prog Op Res α} {f : α → Prog Op Res β} {l : List (Exchange Op Res)}
    {b : β} (h : Trace (p >>= f) l b) :
    ∃ l₁ a l₂, l = l₁ ++ l₂ ∧ Trace p l₁ a ∧ Trace (f a) l₂ b := by
  induction p generalizing l with
  | ret a => exact ⟨[], a, l, rfl, .ret a, h⟩
  | op o k ih =>
    cases h with
    | op r h =>
      obtain ⟨l₁, a, l₂, rfl, h₁, h₂⟩ := ih r h
      exact ⟨⟨o, r⟩ :: l₁, a, l₂, rfl, .op r h₁, h₂⟩

/-- What an operation lends with its answer, and what it takes back. -/
structure Lending (Op : Type) (Res : Op → Type) (ρ : Type) where
  lent : Exchange Op Res → Multiset ρ
  back : Exchange Op Res → Multiset ρ

namespace Lending
variable (L : Lending Op Res ρ)

def lentBy (l : List (Exchange Op Res)) : Multiset ρ := (l.map L.lent).sum

def backBy (l : List (Exchange Op Res)) : Multiset ρ := (l.map L.back).sum

/-- Nothing is taken back that is not owed at that moment: `H` before the events, `H'` after
them. -/
inductive Owes : Multiset ρ → List (Exchange Op Res) → Multiset ρ → Prop
  | nil (H : Multiset ρ) : Owes H [] H
  | cons {H H' : Multiset ρ} (e : Exchange Op Res) {l : List (Exchange Op Res)}
    (h : Owes (H + L.lent e) l H') : Owes (L.back e + H) (e :: l) H'

variable {L} {H H' : Multiset ρ} {l l' : List (Exchange Op Res)}

theorem Owes.append {H'' : Multiset ρ} (h : L.Owes H l H') (h' : L.Owes H' l' H'') :
    L.Owes H (l ++ l') H'' := by
  induction h with
  | nil H => exact h'
  | cons e h ih => exact .cons e (ih h')

theorem Owes.balance (h : L.Owes H l H') : H + L.lentBy l = L.backBy l + H' := by
  induction h with
  | nil H =>
    rw [lentBy, backBy, List.map_nil, List.map_nil, List.sum_nil, add_zero, zero_add]
  | @cons H H' e l h ih =>
    have hsum : L.back e + H + (L.lent e + L.lentBy l) = L.back e + (H + L.lent e + L.lentBy l) := by
      rw [add_assoc, add_assoc]
    show L.back e + H + L.lentBy (e :: l) = L.backBy (e :: l) + H'
    rw [lentBy, backBy, List.map_cons, List.map_cons, List.sum_cons, List.sum_cons, ← lentBy,
      ← backBy, hsum, ih, add_assoc]

section
variable {κ : Type} (place : ρ → κ) {T T' T₀ : Set κ}

variable (L) in
/-- A store that keeps what is lent, each thing at a place of its own. It has held nothing at the
places of what it lends now. -/
structure Stores (e : Exchange Op Res) (T T' : Set κ) : Prop where
  nodup : ((L.lent e).map place).Nodup
  fresh : ∀ k ∈ (L.lent e).map place, k ∉ T
  mem : ∀ k, k ∈ T' ↔ k ∈ T ∧ k ∉ (L.back e).map place ∨ k ∈ (L.lent e).map place

variable (L) in
inductive StoresAll : Set κ → List (Exchange Op Res) → Set κ → Prop
  | nil (T : Set κ) : StoresAll T [] T
  | cons {e : Exchange Op Res} {l : List (Exchange Op Res)} {T T₁ T' : Set κ}
    (he : L.Stores place e T T₁) (hl : StoresAll T₁ l T') : StoresAll T (e :: l) T'

/-- Besides what it held at first, a store holds what is owed to it. -/
structure Holds (T₀ : Set κ) (H : Multiset ρ) (T : Set κ) : Prop where
  nodup : (H.map place).Nodup
  fresh : ∀ k ∈ H.map place, k ∉ T₀
  mem : ∀ k, k ∈ T ↔ k ∈ T₀ ∨ k ∈ H.map place

variable {place}

theorem Stores.holds {e : Exchange Op Res} (he : L.Stores place e T T')
    (h : Holds place T₀ (L.back e + H) T) : Holds place T₀ (H + L.lent e) T' := by
  obtain ⟨hnodup, hfresh, hmem⟩ := h
  rw [Multiset.map_add, Multiset.nodup_add] at hnodup
  obtain ⟨-, hH, hdisj⟩ := hnodup
  simp only [Multiset.map_add, Multiset.mem_add] at hfresh hmem
  refine ⟨?_, ?_, ?_⟩
  · rw [Multiset.map_add, Multiset.nodup_add]
    refine ⟨hH, he.nodup, Multiset.disjoint_left.mpr ?_⟩
    intro k hk hlent
    exact he.fresh k hlent ((hmem k).mpr (.inr (.inr hk)))
  · intro k hk hk₀
    rw [Multiset.map_add, Multiset.mem_add] at hk
    obtain hk | hk := hk
    · exact hfresh k (.inr hk) hk₀
    · exact he.fresh k hk ((hmem k).mpr (.inl hk₀))
  · intro k
    rw [he.mem, hmem, Multiset.map_add, Multiset.mem_add]
    constructor
    · rintro (⟨hk | hk | hk, hback⟩ | hk)
      · exact .inl hk
      · exact absurd hk hback
      · exact .inr (.inl hk)
      · exact .inr (.inr hk)
    · rintro (hk | hk | hk)
      · exact .inl ⟨.inl hk, fun hback => hfresh k (.inl hback) hk⟩
      · exact .inl ⟨.inr (.inr hk), fun hback => Multiset.disjoint_left.mp hdisj hback hk⟩
      · exact .inr hk

theorem Owes.holds (h : L.Owes H l H') (hs : L.StoresAll place T l T')
    (hH : Holds place T₀ H T) : Holds place T₀ H' T' := by
  induction h generalizing T with
  | nil H =>
    cases hs
    exact hH
  | cons e h ih =>
    cases hs with
    | cons he hl => exact ih hl (he.holds hH)

/-- A store that is owed nothing in the end holds what it held before. -/
theorem Owes.restores (h : L.Owes 0 l 0) (hs : L.StoresAll place T l T') : T' = T := by
  have hstart : Holds place T 0 T :=
    ⟨Multiset.nodup_zero, fun k hk => absurd hk (Multiset.notMem_zero k), fun k => by simp⟩
  have hend := h.holds hs hstart
  ext k
  rw [hend.mem]
  simp

end

variable (L) in
/-- Whatever the answers, a program that starts with `H` owed and returns `a` leaves `R a` owed. -/
def Triple (H : Multiset ρ) (p : Prog Op Res α) (R : α → Multiset ρ) : Prop :=
  ∀ l a, Trace p l a → L.Owes H l (R a)

section
variable {p : Prog Op Res α} {f : α → Prog Op Res β} {R : α → Multiset ρ} {Q : β → Multiset ρ}

theorem triple_pure (R : α → Multiset ρ) (a : α) :
    L.Triple (R a) (pure a : Prog Op Res α) R := by
  intro l b h
  cases h
  exact .nil _

theorem Triple.bind (hp : L.Triple H p R) (hf : ∀ a, L.Triple (R a) (f a) Q) :
    L.Triple H (p >>= f) Q := by
  intro l b h
  obtain ⟨l₁, a, l₂, rfl, h₁, h₂⟩ := h.of_bind
  exact (hp l₁ a h₁).append (hf a l₂ b h₂)

theorem triple_ite {c : Prop} [Decidable c] {q : Prog Op Res α} (hp : c → L.Triple H p R)
    (hq : ¬ c → L.Triple H q R) : L.Triple H (if c then p else q) R := by
  split_ifs with hc
  · exact hp hc
  · exact hq hc

/-- An operation that takes back the same whatever it answers. -/
theorem triple_perform {o : Op} {B : Multiset ρ} (hb : ∀ r, L.back ⟨o, r⟩ = B) :
    L.Triple (B + H) (Prog.perform o) fun r => H + L.lent ⟨o, r⟩ := by
  intro l r h
  cases h with
  | op r h =>
    cases h
    rw [← hb r]
    exact .cons _ (.nil _)

theorem triple_perform_empty {o : Op} (h : Res o → False) {R : Res o → Multiset ρ} :
    L.Triple H (Prog.perform o) R := by
  intro l r ht
  exact (h r).elim

end

end Lending
end Conc
