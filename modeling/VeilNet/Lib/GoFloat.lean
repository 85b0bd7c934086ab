import Mathlib.Data.Rat.Floor

/-!
The `float64` operations of the modelled code. Results about the code hold for
every interpretation of them, so they do not rest on a rounding mode; the
rationals give the exact one.
-/
namespace VeilNet.Lib

class GoFloat (F : Type) where
  ofInt : ℤ → F
  mul : F → F → F
  div : F → F → F
  lt : F → F → Bool
  le : F → F → Bool
  /-- `math.Round`. -/
  round : F → F
  isNaN : F → Bool
  /-- `math.IsInf(x, 0)`. -/
  isInf : F → Bool
  /-- The conversion `int64(x)`. -/
  toInt64 : F → Int64

/-- With addition. -/
class GoFloatSum (F : Type) extends GoFloat F where
  add : F → F → F

/-- With subtraction too. -/
class GoFloatDiff (F : Type) extends GoFloatSum F where
  sub : F → F → F

/-- Whole numbers that a `float64` holds exactly are compared as numbers. -/
class GoFloatExact (F : Type) [GoFloat F] : Prop where
  lt_ofInt : ∀ a b : ℤ, a.natAbs ≤ 9007199254740992 → b.natAbs ≤ 9007199254740992 →
    GoFloat.lt (GoFloat.ofInt a : F) (GoFloat.ofInt b) = decide (a < b)
  le_ofInt : ∀ a b : ℤ, a.natAbs ≤ 9007199254740992 → b.natAbs ≤ 9007199254740992 →
    GoFloat.le (GoFloat.ofInt a : F) (GoFloat.ofInt b) = decide (a ≤ b)

namespace GoFloat

/-- Half away from zero. -/
def roundRat (x : ℚ) : ℤ := if 0 ≤ x then (x + 1 / 2).floor else (x - 1 / 2).ceil

def truncRat (x : ℚ) : ℤ := if 0 ≤ x then x.floor else x.ceil

instance : GoFloat ℚ where
  ofInt z := z
  mul x y := x * y
  div x y := x / y
  lt x y := decide (x < y)
  le x y := decide (x ≤ y)
  round x := roundRat x
  isNaN _ := false
  isInf _ := false
  toInt64 x := Int64.ofInt (truncRat x)

instance : GoFloatExact ℚ where
  lt_ofInt a b _ _ := by simp [GoFloat.lt, GoFloat.ofInt]
  le_ofInt a b _ _ := by simp [GoFloat.le, GoFloat.ofInt]

instance : GoFloatSum ℚ where
  add x y := x + y

instance : GoFloatDiff ℚ where
  sub x y := x - y

end GoFloat

end VeilNet.Lib
