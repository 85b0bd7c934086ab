import Mathlib.Data.List.Infix

/-!
A greedy scan: each element of a list that fits the path so far is appended to it, up to a cap.
`longest_iff` says when the path is the longest one.
-/
namespace VeilNet.Lib.Greedy

variable {α : Type} {fits : List α → α → Bool} {cap : ℕ} {path l : List α}

def scan (fits : List α → α → Bool) (cap : ℕ) (path : List α) : List α → List α
  | [] => path
  | n :: rest =>
    if path.length < cap ∧ fits path n = true then scan fits cap (path ++ [n]) rest
    else scan fits cap path rest

theorem prefix_scan (fits : List α → α → Bool) (cap : ℕ) (path l : List α) :
    path <+: scan fits cap path l := by
  induction l generalizing path with
  | nil => exact List.prefix_refl path
  | cons n rest ih =>
    unfold scan
    split
    · exact (List.prefix_append path [n]).trans (ih (path ++ [n]))
    · exact ih path

/-- What one fitting element preserves, the scan preserves. -/
theorem scan_induction {P : List α → Prop} (start : P path)
    (step : ∀ path n, n ∈ l → path.length < cap → fits path n = true → P path → P (path ++ [n])) :
    P (scan fits cap path l) := by
  induction l generalizing path with
  | nil => exact start
  | cons n rest ih =>
    have later : ∀ path m, m ∈ rest → path.length < cap → fits path m = true →
        P path → P (path ++ [m]) :=
      fun path m member => step path m (List.mem_cons_of_mem n member)
    unfold scan
    split
    · next fit => exact ih (step path n List.mem_cons_self fit.1 fit.2 start) later
    · exact ih start later

/-- Whatever fits the finished path was taken, unless the path is full. -/
theorem full_of_fits (antitone : ∀ {p q : List α} {n : α}, p <+: q → fits q n = true →
    fits p n = true) {n : α} (member : n ∈ l) (fit : fits (scan fits cap path l) n = true) :
    n ∈ scan fits cap path l ∨ cap ≤ (scan fits cap path l).length := by
  induction l generalizing path with
  | nil => cases member
  | cons m rest ih =>
    unfold scan at fit ⊢
    rcases List.mem_cons.mp member with rfl | later
    · split
      · exact .inl ((prefix_scan fits cap (path ++ [n]) rest).subset (by simp))
      · next refused =>
        rw [if_neg refused] at fit
        have grows := prefix_scan fits cap path rest
        refine .inr (Nat.le_trans ?_ grows.length_le)
        by_contra short
        exact refused ⟨by omega, antitone grows fit⟩
    · split
      · next taken =>
        rw [if_pos taken] at fit
        exact ih later fit
      · next refused =>
        rw [if_neg refused] at fit
        exact ih later fit

/-- The first element that fits is the next of the path. -/
theorem append_prefix_scan {n : α} (room : path.length < cap)
    (found : l.find? (fits path) = some n) : path ++ [n] <+: scan fits cap path l := by
  induction l with
  | nil => cases found
  | cons m rest ih =>
    unfold scan
    cases fit : fits path m with
    | true =>
      rw [List.find?_cons_of_pos fit] at found
      obtain rfl := Option.some.inj found
      rw [if_pos ⟨room, rfl⟩]
      exact prefix_scan fits cap (path ++ [m]) rest
    | false =>
      rw [List.find?_cons_of_neg (by simp [fit])] at found
      rw [if_neg (by simp)]
      exact ih found

theorem scan_eq_self (none : l.find? (fits path) = none) : scan fits cap path l = path := by
  induction l with
  | nil => rfl
  | cons m rest ih =>
    rw [List.find?_eq_none] at none
    unfold scan
    rw [if_neg fun taken => none m List.mem_cons_self taken.2]
    exact ih (List.find?_eq_none.mpr fun n member => none n (List.mem_cons_of_mem m member))

theorem scan_of_full (full : cap ≤ path.length) : scan fits cap path l = path := by
  induction l with
  | nil => rfl
  | cons m rest ih =>
    unfold scan
    rw [if_neg fun taken => absurd taken.1 (by omega)]
    exact ih

/-- A path that cannot be extended is the longest accepted one up to the cap exactly
when, at every length up to the cap that some accepted list has, the path so far could
be extended. -/
theorem longest_iff {accept : List α → Prop} {pool : List α}
    (closed : ∀ {p q : List α}, p <+: q → accept q → accept p) (drawn : ∀ n ∈ path, n ∈ pool)
    (accepted : accept path) (maximal : path.length < cap → ∀ n ∈ pool, ¬ accept (path ++ [n])) :
    (∀ other : List α, (∀ n ∈ other, n ∈ pool) → other.length ≤ cap → accept other →
      other.length ≤ path.length) ↔
    ∀ k < cap, (∃ other : List α, (∀ n ∈ other, n ∈ pool) ∧ accept other ∧ other.length = k + 1) →
      ∃ n ∈ pool, accept (path.take k ++ [n]) := by
  constructor
  · rintro longest k small ⟨other, inPool, ok, length⟩
    have long : k < path.length := by
      have := longest other inPool (by omega) ok
      omega
    refine ⟨path[k], drawn _ (List.getElem_mem long), ?_⟩
    rw [List.take_concat_get' path k long]
    exact closed (List.take_prefix (k + 1) path) accepted
  · intro extendable other inPool few ok
    by_contra longer
    have room : path.length < cap := by omega
    have front : other.take (path.length + 1) <+: other := List.take_prefix _ other
    obtain ⟨n, member, ok'⟩ := extendable path.length room
      ⟨other.take (path.length + 1), fun n member => inPool n (front.subset member),
        closed front ok, by rw [List.length_take]; omega⟩
    rw [List.take_length] at ok'
    exact maximal room n member ok'

end VeilNet.Lib.Greedy
