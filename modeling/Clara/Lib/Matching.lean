import Mathlib.Logic.Function.Basic

/-! Pairs that both partners remember: two partial functions that are inverse to each other, and
how pairs are joined and parted. -/
namespace Conc

variable {α β : Type}

/-- `f` names the partner of each `a`, and `g` the partner of each `b`. -/
def Matching (f : α → Option β) (g : β → Option α) : Prop := ∀ a b, f a = some b ↔ g b = some a

namespace Matching
variable {f : α → Option β} {g : β → Option α} {a a' : α} {b : β}

theorem unique (h : Matching f g) (ha : f a = some b) (ha' : f a' = some b) : a = a' := by
  have hb : g b = some a := (h a b).mp ha
  have hb' : g b = some a' := (h a' b).mp ha'
  exact Option.some.inj (hb.symm.trans hb')

theorem empty : Matching (fun _ : α => (none : Option β)) fun _ => none := by
  intro a b
  constructor
  · rintro ⟨⟩
  · rintro ⟨⟩

variable [DecidableEq α] [DecidableEq β]

/-- Two that have no partner become partners. -/
theorem join (h : Matching f g) (ha : f a = none) (hb : g b = none) :
    Matching (Function.update f a (some b)) (Function.update g b (some a)) := by
  intro x y
  by_cases hx : x = a
  · by_cases hy : y = b
    · rw [hx, hy, Function.update_self, Function.update_self]
      exact iff_of_true rfl rfl
    · rw [hx, Function.update_self, Function.update_of_ne hy]
      refine iff_of_false (fun heq => hy (Option.some.inj heq).symm) fun hg => ?_
      rw [(h a y).mpr hg] at ha
      cases ha
  · by_cases hy : y = b
    · rw [hy, Function.update_self, Function.update_of_ne hx]
      refine iff_of_false (fun hf => ?_) fun heq => hx (Option.some.inj heq).symm
      rw [(h x b).mp hf] at hb
      cases hb
    · rw [Function.update_of_ne hx, Function.update_of_ne hy]
      exact h x y

theorem part (h : Matching f g) (hab : f a = some b) :
    Matching (Function.update f a none) (Function.update g b none) := by
  have hba : g b = some a := (h a b).mp hab
  intro x y
  by_cases hx : x = a
  · rw [hx, Function.update_self]
    refine iff_of_false (by simp) fun hg => ?_
    by_cases hy : y = b
    · rw [hy, Function.update_self] at hg
      cases hg
    · rw [Function.update_of_ne hy, ← h, hab] at hg
      exact hy (Option.some.inj hg).symm
  · rw [Function.update_of_ne hx]
    by_cases hy : y = b
    · rw [hy, Function.update_self]
      refine iff_of_false (fun hf => ?_) (by simp)
      rw [h, hba] at hf
      exact hx (Option.some.inj hf).symm
    · rw [Function.update_of_ne hy]
      exact h x y

end Matching

end Conc
