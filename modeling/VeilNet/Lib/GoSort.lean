import Mathlib.Data.List.Sort

/-!
Go's `sort.Slice` and `sort.SliceStable`, which are given the comparison as a
function. Results are stated for every sorting algorithm that respects it.
-/
namespace VeilNet.Lib

/-- What `sort` asks of a comparison: a strict weak order. -/
structure StrictWeak {α : Type} (less : α → α → Bool) : Prop where
  asymm : ∀ a b, less a b = true → less b a = false
  trans : ∀ a b c, less b a = false → less c b = false → less c a = false

/-- A sorting algorithm. Whatever the comparison is, it permutes the list. -/
structure GoSort (α : Type) where
  sort : (α → α → Bool) → List α → List α
  perm : ∀ less l, (sort less l).Perm l
  sorted : ∀ less, StrictWeak less → ∀ l, (sort less l).Pairwise fun a b => less b a = false

namespace GoSort
variable {α : Type}

variable {less : α → α → Bool} {l : List α}

theorem mem_sort (sorter : GoSort α) {a : α} : a ∈ sorter.sort less l ↔ a ∈ l :=
  (sorter.perm less l).mem_iff

theorem sort_ne_nil (sorter : GoSort α) (less : α → α → Bool) (some : l ≠ []) :
    sorter.sort less l ≠ [] :=
  fun none => some (List.Perm.nil_eq (none ▸ sorter.perm less l)).symm

/-- Nothing is before the first entry. -/
theorem head_least (sorter : GoSort α) (weak : StrictWeak less)
    {a : α} (first : (sorter.sort less l).head? = some a) :
    a ∈ l ∧ ∀ b ∈ l, less b a = false := by
  obtain ⟨rest, result⟩ := List.head?_eq_some_iff.mp first
  have sorted := sorter.sorted less weak l
  rw [result, List.pairwise_cons] at sorted
  have inside : a ∈ sorter.sort less l := result ▸ List.mem_cons_self
  refine ⟨sorter.mem_sort.mp inside, fun b member => ?_⟩
  have kept : b ∈ sorter.sort less l := sorter.mem_sort.mpr member
  rw [result, List.mem_cons] at kept
  rcases kept with rfl | later
  · cases ahead : less b b with
    | false => rfl
    | true => exact ahead.symm.trans (weak.asymm b b ahead)
  · exact sorted.1 b later

/-- Insertion sort, which is stable. -/
def insertion : GoSort α where
  sort less l := l.insertionSort fun a b => less b a = false
  perm less l := List.perm_insertionSort _ l
  sorted less weak l := by
    have total : Std.Total fun a b : α => less b a = false := by
      refine ⟨fun a b => ?_⟩
      cases ahead : less b a with
      | false => exact .inl rfl
      | true => exact .inr (weak.asymm b a ahead)
    have trans : IsTrans α fun a b => less b a = false := ⟨weak.trans⟩
    exact List.pairwise_insertionSort _ l

/-- A sort that prefers one entry to those it ties with. -/
def preferring [DecidableEq α] (a : α) : GoSort α where
  sort less l := insertion.sort less (if a ∈ l then a :: l.erase a else l)
  perm less l := by
    refine (insertion.perm less _).trans ?_
    split
    · next member => exact (List.perm_cons_erase member).symm
    · exact .refl l
  sorted less weak l := insertion.sorted less weak _

theorem head_preferring [DecidableEq α] {a : α} (member : a ∈ l)
    (least : ∀ b ∈ l, less b a = false) : ((preferring a).sort less l).head? = some a := by
  have moved : (preferring a).sort less l =
      ((l.erase a).insertionSort fun a b => less b a = false).orderedInsert
        (fun a b => less b a = false) a := by
    simp only [preferring, if_pos member]
    rfl
  rw [moved]
  cases rest : (l.erase a).insertionSort fun a b => less b a = false with
  | nil => rfl
  | cons b more =>
    have inside : b ∈ l := List.mem_of_mem_erase ((List.perm_insertionSort _ _).mem_iff.mp
      (rest ▸ List.mem_cons_self))
    simp [List.orderedInsert, least b inside]

end GoSort

end VeilNet.Lib
