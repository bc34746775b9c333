import Mathlib.Data.Nat.Notation
import Mathlib.Order.Defs.LinearOrder

/-! The words and addresses that every process of CLara passes around. -/
namespace Clara

/-- `global_id_t`. -/
abbrev GlobalId := UInt64

/-- `arg_t`. -/
abbrev Arg := UInt64

abbrev Handle := UInt64

/-- An address of the process under consideration; `NULL` is written `none`. -/
abbrev Addr := ℕ

def invalidId : GlobalId := 0

def invalidHandle : Handle := 0

/-- The numeric order of 64-bit words, which `_comparison_func` uses. -/
instance wordOrder : LinearOrder UInt64 where
  le_refl := UInt64.le_refl
  le_trans _ _ _ := UInt64.le_trans
  le_antisymm _ _ := UInt64.le_antisymm
  le_total := UInt64.le_total
  lt_iff_le_not_ge a b := by
    rw [UInt64.lt_iff_toNat_lt, UInt64.le_iff_toNat_le, UInt64.le_iff_toNat_le]
    omega
  toDecidableLE := inferInstance
  toDecidableEq := inferInstance

end Clara
