import Mathlib.Algebra.BigOperators.Group.Finset.Basic
import Mathlib.Algebra.BigOperators.Group.Finset.Piecewise
import Mathlib.Data.Finset.Dedup

/-!
Deduplication with a memory of one key adds the weight of every maximal run of equal keys; a true
one adds the weight of every distinct key. The difference is the weight of the keys that come back
after another one.
-/
namespace VeilNet.Lib.LastSeen

variable {α : Type*} [DecidableEq α] (w : α → ℕ)

/-- What the one-key memory adds up, starting with the remembered key. -/
def counted : Option α → List α → ℕ
  | _, [] => 0
  | last, a :: rest => (if last = some a then 0 else w a) + counted (some a) rest

/-- The weight of the keys that come back: seen before, but not just before.
`seen` lists the earlier keys, the latest first. -/
def reopened (seen : List α) : List α → ℕ
  | [] => 0
  | a :: rest => (if a ∈ seen ∧ seen.head? ≠ some a then w a else 0) + reopened (a :: seen) rest

/-- The weight of the first key when the memory already holds it. -/
def carried (last : Option α) (keys : List α) : ℕ :=
  match keys.head? with
  | none => 0
  | some a => if last = some a then w a else 0

theorem counted_eq (seen keys : List α) :
    counted w seen.head? keys = ∑ a ∈ keys.toFinset \ seen.toFinset,
      w a + reopened w seen keys := by
  induction keys generalizing seen with
  | nil => simp [counted, reopened]
  | cons a rest ih =>
    have step := ih (a :: seen)
    simp only [List.head?_cons, List.toFinset_cons] at step
    simp only [counted, reopened, step, List.toFinset_cons]
    by_cases old : a ∈ seen
    · have sets : insert a rest.toFinset \ seen.toFinset =
          rest.toFinset \ insert a seen.toFinset := by
        ext x
        simp only [Finset.mem_sdiff, Finset.mem_insert, List.mem_toFinset]
        constructor
        · rintro ⟨rfl | later, fresh⟩
          · exact absurd old fresh
          · exact ⟨later, fun h => h.elim (fun eq => fresh (eq ▸ old)) fresh⟩
        · exact fun h => ⟨.inr h.1, fun hx => h.2 (.inr hx)⟩
      rw [sets]
      by_cases just : seen.head? = some a
      · simp [just]
      · simp [just, old, Nat.add_left_comm]
    · have notLast : seen.head? ≠ some a := fun eq => old (List.mem_of_mem_head? eq)
      have sets : insert a rest.toFinset \ seen.toFinset =
          insert a (rest.toFinset \ insert a seen.toFinset) := by
        ext x
        simp only [Finset.mem_sdiff, Finset.mem_insert, List.mem_toFinset]
        constructor
        · rintro ⟨rfl | later, fresh⟩
          · exact .inl rfl
          · by_cases same : x = a
            · exact .inl same
            · exact .inr ⟨later, fun h => h.elim same fresh⟩
        · rintro (rfl | ⟨later, fresh⟩)
          · exact ⟨.inl rfl, old⟩
          · exact ⟨.inr later, fun hx => fresh (.inr hx)⟩
      have absent : a ∉ rest.toFinset \ insert a seen.toFinset := by simp
      rw [sets, Finset.sum_insert absent]
      simp [notLast, old, Nat.add_assoc]

/-- The one-key memory against true deduplication, from any remembered key. -/
theorem counted_add_carried (last : Option α) (keys : List α) :
    counted w last keys + carried w last keys = ∑ a ∈ keys.toFinset, w a + reopened w [] keys := by
  have fresh := counted_eq w [] keys
  simp only [List.head?_nil, List.toFinset_nil, Finset.sdiff_empty] at fresh
  rw [← fresh]
  cases keys with
  | nil => simp [counted, carried]
  | cons a rest =>
    simp only [counted, carried, List.head?_cons, reduceCtorEq, ↓reduceIte]
    split <;> omega

end VeilNet.Lib.LastSeen
