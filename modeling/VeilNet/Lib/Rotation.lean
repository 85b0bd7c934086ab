import Mathlib.Order.Basic

/-!
A pointer that rotates through the positions `lo, …, hi`. From any position it
comes to any other within one turn, so a scan of that many steps misses nothing.
-/
namespace VeilNet.Lib.Rotation

/-- The position after `p`; the last one is followed by the first. -/
def advance (lo hi p : ℕ) : ℕ := if p = hi then lo else p + 1

/-- The number of steps from `p` forward to `q`. -/
def stepsTo (lo hi p q : ℕ) : ℕ := if p ≤ q then q - p else hi - p + 1 + (q - lo)

variable {lo hi p q : ℕ}

theorem advance_mem (above : lo ≤ p) (below : p ≤ hi) :
    lo ≤ advance lo hi p ∧ advance lo hi p ≤ hi := by
  unfold advance
  split <;> omega

/-- One turn suffices. -/
theorem stepsTo_le (abovep : lo ≤ p) (belowp : p ≤ hi) (aboveq : lo ≤ q) (belowq : q ≤ hi) :
    stepsTo lo hi p q ≤ hi - lo := by
  unfold stepsTo
  split <;> omega

/-- Each step that does not start at the target comes nearer to it. -/
theorem stepsTo_advance (belowp : p ≤ hi) (aboveq : lo ≤ q) (belowq : q ≤ hi) (away : p ≠ q) :
    stepsTo lo hi (advance lo hi p) q + 1 = stepsTo lo hi p q := by
  unfold stepsTo advance
  by_cases last : p = hi
  · rw [if_pos last]
    split <;> split <;> omega
  · rw [if_neg last]
    split <;> split <;> omega

end VeilNet.Lib.Rotation
