import Mathlib.Data.List.Basic

/-!
Lists of things under way (running calls, messages in a pool), addressed by
position: what replacing or removing one of them leaves.
-/
namespace VeilNet.Lib.Slots
variable {α : Type*}

/-- The list around position `i`. -/
theorem split_at {l : List α} {i : ℕ} {a : α} (found : l[i]? = some a) :
    ∃ front back, l = front ++ a :: back ∧ l.eraseIdx i = front ++ back ∧
      ∀ b, l.set i b = front ++ b :: back := by
  induction l generalizing i with
  | nil => simp at found
  | cons head rest ih =>
    cases i with
    | zero =>
      obtain rfl : head = a := by simpa using found
      exact ⟨[], rest, rfl, rfl, fun _ => rfl⟩
    | succ i =>
      obtain ⟨front, back, whole, erased, replaced⟩ := ih (by simpa using found)
      refine ⟨head :: front, back, by rw [whole]; rfl, ?_, fun b => ?_⟩
      · rw [List.eraseIdx_cons_succ, erased]
        rfl
      · rw [List.set_cons_succ, replaced]
        rfl

/-- Replacing one element brings in only the new one. -/
theorem mem_replaced {front back : List α} {a b x : α} (member : x ∈ front ++ b :: back) :
    x = b ∨ x ∈ front ++ a :: back := by
  simp only [List.mem_append, List.mem_cons] at member ⊢
  rcases member with inFront | here | inBack
  · exact .inr (.inl inFront)
  · exact .inl here
  · exact .inr (.inr (.inr inBack))

/-- What one element contributes to a count. -/
theorem countP_middle (q : α → Bool) (front back : List α) (a : α) :
    (front ++ a :: back).countP q = (front ++ back).countP q + (q a).toNat := by
  rw [List.countP_append, List.countP_cons, List.countP_append]
  cases q a
  · rfl
  · rw [if_pos rfl, Bool.toNat_true, Nat.add_assoc]

/-- Distinct keys tell the removed element from the remaining ones. -/
theorem key_ne_of_nodup {β : Type*} (key : α → β) {front back : List α} {a b : α}
    (distinct : ((front ++ a :: back).map key).Nodup) (other : b ∈ front ++ back) :
    key b ≠ key a := by
  intro same
  rw [List.map_append, List.map_cons, List.nodup_append] at distinct
  obtain ⟨_, tail, apart⟩ := distinct
  rcases List.mem_append.mp other with inFront | inBack
  · exact apart (key b) (List.mem_map_of_mem inFront) (key a) List.mem_cons_self same
  · exact (List.nodup_cons.mp tail).1 (same ▸ List.mem_map_of_mem inBack)

/-- A position of a list with one more element is an old one or the last. -/
theorem getElem?_concat_cases {l : List α} {a b : α} {j : ℕ} (found : (l ++ [a])[j]? = some b) :
    l[j]? = some b ∨ (j = l.length ∧ b = a) := by
  rw [List.getElem?_append] at found
  split at found
  · exact .inl found
  · next past =>
    rw [List.getElem?_singleton] at found
    split at found
    · exact .inr ⟨by omega, (Option.some.inj found).symm⟩
    · cases found

end VeilNet.Lib.Slots
