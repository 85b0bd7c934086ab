import Mathlib.Data.List.Induction
import Mathlib.Algebra.Order.Group.Int

/-!
Sliding windows over a log of times. Dropping what is no longer recent changes nothing later; and
a log in which each entry came with fewer than `max` recent ones before it has at most `max`
entries in any window.
-/
namespace VeilNet.Lib.SlidingWindow

variable {window max : ℤ}

/-- The times of the log in the window that ends with `t`, when none of them is later. -/
def recent (window : ℤ) (log : List ℤ) (t : ℤ) : List ℤ := log.filter fun u => t - window < u

/-- What was not recent once is never recent again. -/
theorem recent_recent (log : List ℤ) {t t' : ℤ} (later : t ≤ t') :
    recent window (recent window log t) t' = recent window log t' := by
  unfold recent
  rw [List.filter_filter]
  apply List.filter_congr
  intro u _
  rw [Bool.and_eq_left_iff_imp, decide_eq_true_eq, decide_eq_true_eq]
  omega

theorem recent_append (log log' : List ℤ) (t : ℤ) :
    recent window (log ++ log') t = recent window log t ++ recent window log' t :=
  List.filter_append ..

/-- Each entry came at a time with fewer than `max` recent ones before it. -/
def Paced (window max : ℤ) (log : List ℤ) : Prop :=
  ∀ front t back, log = front ++ t :: back → ((recent window front t).length : ℤ) < max

theorem paced_snoc_iff {log : List ℤ} {t : ℤ} :
    Paced window max (log ++ [t]) ↔
      Paced window max log ∧ ((recent window log t).length : ℤ) < max := by
  constructor
  · intro paced
    refine ⟨?_, paced log t [] rfl⟩
    intro front u back same
    exact paced front u (back ++ [t]) (by rw [same, List.append_assoc, List.cons_append])
  · rintro ⟨paced, last⟩ front u back same
    cases back using List.reverseRecOn with
    | nil =>
      obtain ⟨rfl, rfl⟩ := List.append_singleton_inj.mp same
      exact last
    | append_singleton back v _ =>
      rw [← List.cons_append, ← List.append_assoc] at same
      exact paced front u back (List.append_singleton_inj.mp same).1

/-- A paced log has at most `max` entries within less than a window's length. -/
theorem length_filter_le {log : List ℤ} (paced : Paced window max log) (nonneg : 0 ≤ max)
    (span : ℤ → Bool) (short : ∀ u t, span u = true → span t = true → t - window < u) :
    ((log.filter span).length : ℤ) ≤ max := by
  induction log using List.reverseRecOn with
  | nil => simpa using nonneg
  | append_singleton log t ih =>
    obtain ⟨before, last⟩ := paced_snoc_iff.mp paced
    have fewer := ih before
    rw [List.filter_append]
    cases within : span t with
    | false => simpa [within] using fewer
    | true =>
      have recents : (log.filter span).length ≤ (recent window log t).length := by
        rw [recent, ← List.countP_eq_length_filter, ← List.countP_eq_length_filter]
        apply List.countP_mono_left
        intro u _ inSpan
        exact decide_eq_true (short u t inSpan within)
      rw [List.filter_cons_of_pos within, List.length_append, List.filter_nil,
        List.length_singleton]
      omega

end VeilNet.Lib.SlidingWindow
