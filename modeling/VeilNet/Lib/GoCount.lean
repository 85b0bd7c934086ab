import Mathlib.Algebra.Group.Hom.Defs
import Mathlib.Algebra.Order.Group.Int

/-!
Counters. In Go they are of type `int64` and wrap around; the integers count exactly. Either
way a counter that has only been added to holds the image of the exact count.
-/
namespace VeilNet.Lib

class GoCount (N : Type) extends AddCommMonoid N where
  ofInt : ℤ →+ N
  toInt : N → ℤ

instance : GoCount ℤ where
  ofInt := .id ℤ
  toInt := id

instance int64AddCommMonoid : AddCommMonoid Int64 where
  add_assoc := Int64.add_assoc
  zero_add := Int64.zero_add
  add_zero := Int64.add_zero
  add_comm := Int64.add_comm
  nsmul := nsmulRec

instance : GoCount Int64 where
  ofInt := ⟨⟨Int64.ofInt, rfl⟩, Int64.ofInt_add⟩
  toInt := Int64.toInt

end VeilNet.Lib
