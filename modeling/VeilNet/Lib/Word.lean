import Mathlib.Tactic.Ring
import Mathlib.Data.List.Basic

/-!
Fixed-width arithmetic read back in the integers: when a guarded machine
operation is the exact one.
-/
namespace VeilNet.Lib.Word

/-- The wrap test `a + b < a` fires exactly when the sum does not fit. -/
theorem add_lt_self_iff {a b : UInt64} : a + b < a ↔ ¬ a.toNat + b.toNat < 2 ^ 64 := by
  have ha := a.toNat_lt
  have hb := b.toNat_lt
  rw [UInt64.lt_iff_toNat_lt, UInt64.toNat_add]
  omega

theorem toNat_add_of_fits {a b : UInt64} (fits : a.toNat + b.toNat < 2 ^ 64) :
    (a + b).toNat = a.toNat + b.toNat := by
  rw [UInt64.toNat_add, Nat.mod_eq_of_lt fits]

theorem ofNat_ne_zero {n : ℕ} (positive : 0 < n) (fits : n < 2 ^ 64) : UInt64.ofNat n ≠ 0 := by
  intro zero
  have value : (UInt64.ofNat n).toNat = 0 := by rw [zero]; rfl
  rw [UInt64.toNat_ofNat', Nat.mod_eq_of_lt fits] at value
  omega

/-- The integers an `int64` can hold. -/
def Fits64 (z : ℤ) : Prop := -2 ^ 63 ≤ z ∧ z < 2 ^ 63

variable {a b : Int64}

theorem toInt_add_of_fits (fits : Fits64 (a.toInt + b.toInt)) :
    (a + b).toInt = a.toInt + b.toInt := by
  rw [Int64.toInt_add]
  exact Int.bmod_eq_of_le fits.1 fits.2

theorem toInt_sub_of_fits (fits : Fits64 (a.toInt - b.toInt)) :
    (a - b).toInt = a.toInt - b.toInt := by
  rw [Int64.toInt_sub]
  exact Int.bmod_eq_of_le fits.1 fits.2

theorem fits64_max_sub (nonneg : 0 ≤ b) : Fits64 (Int64.maxValue.toInt - b.toInt) := by
  have low : 0 ≤ b.toInt := Int64.le_iff_toInt_le.mp nonneg
  have high := b.toInt_lt
  rw [Int64.toInt_maxValue]
  unfold Fits64
  omega

/-- The overflow test `a > MaxInt64 - b` fires exactly when the sum does not fit. -/
theorem max_sub_lt_iff (nonneg : 0 ≤ b) : Int64.maxValue - b < a ↔ 2 ^ 63 ≤ a.toInt + b.toInt := by
  rw [Int64.lt_iff_toInt_lt, toInt_sub_of_fits (fits64_max_sub nonneg), Int64.toInt_maxValue]
  omega

/-- So a sum whose test does not fire is exact, and a sum that fits passes the test. -/
theorem fits64_add_iff (nonneg : 0 ≤ b) :
    Fits64 (a.toInt + b.toInt) ↔ ¬ Int64.maxValue - b < a := by
  have low : 0 ≤ b.toInt := Int64.le_iff_toInt_le.mp nonneg
  have start := a.le_toInt
  rw [max_sub_lt_iff nonneg, Fits64]
  omega

/-- `uint64(a)` of a non-negative `int64` keeps its value. -/
theorem toNat_toUInt64_of_nonneg (nonneg : 0 ≤ a) : (a.toUInt64.toNat : ℤ) = a.toInt := by
  have low : 0 ≤ a.toInt := Int64.le_iff_toInt_le.mp nonneg
  rw [Int64.toNat_toUInt64_of_le nonneg, Int64.toNatClampNeg]
  omega

end VeilNet.Lib.Word
