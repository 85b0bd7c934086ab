import Mathlib.Data.Int.Init

/-!
Go instants and durations in nanoseconds. An instant counts from the zero `time.Time`. `Time.Sub`
saturates in Go; where its result is only compared with durations far from the bounds, the exact
difference gives the same answer.
-/
namespace VeilNet.Lib

abbrev Time := Int

abbrev Duration := Int

def Duration.minute : Duration := 60 * 1000000000

def Duration.hour : Duration := 60 * Duration.minute

def Duration.max : ℤ := 9223372036854775807

def Duration.min : ℤ := -9223372036854775808

/-- `Time.Sub`, with its bounds. -/
def Time.sub (t u : ℤ) : ℤ :=
  if Duration.max < t - u then Duration.max
  else if t - u < Duration.min then Duration.min
  else t - u

/-- The product of a number and a duration, which wraps around. -/
def Duration.times (n d : ℤ) : ℤ := (n * d).bmod 18446744073709551616

theorem Duration.times_eq {n d : ℤ} (nonneg : 0 ≤ n * d) (fits : n * d ≤ Duration.max) :
    Duration.times n d = n * d := by
  unfold Duration.max at fits
  unfold Duration.times
  apply Int.bmod_eq_of_le <;> omega

theorem Time.sub_pos_iff (t u : ℤ) : 0 < Time.sub t u ↔ u < t := by
  unfold Time.sub Duration.max Duration.min
  split
  · omega
  · split <;> omega

theorem Time.sub_le_of_lt {t u : ℤ} (later : u < t) : Time.sub t u ≤ t - u := by
  unfold Time.sub Duration.max Duration.min
  split
  · omega
  · split <;> omega

theorem Time.add_le_of_le_sub {t u d : ℤ} (positive : 0 < d) (passed : d ≤ Time.sub t u) :
    u + d ≤ t := by
  unfold Time.sub Duration.max Duration.min at passed
  split at passed
  · omega
  · split at passed <;> omega

end VeilNet.Lib
