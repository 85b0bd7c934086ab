import Mathlib.Algebra.Order.Ring.Nat
import Mathlib.Data.List.Basic
import Mathlib.Data.List.TakeWhile

/-!
Words joined by a separator. A separator that a word does not contain
determines where the word ends, whatever stands on its other side.
-/
namespace VeilNet.Lib.Separator

variable {α : Type*} {sep : α}

variable {u v xs ys : List α}

/-- Leading words with equally many separators end at the same one. -/
theorem separator_of_count [BEq α] [LawfulBEq α]
    (same : u.count sep = v.count sep) (h : u ++ sep :: xs = v ++ sep :: ys) : u = v ∧ xs = ys := by
  have within : ∀ {u v xs ys more : List α}, u.count sep = v.count sep → v = u ++ more →
      sep :: xs = more ++ sep :: ys → u = v ∧ xs = ys := by
    intro u v xs ys more same longer rest
    cases more with
    | nil => exact ⟨by simpa using longer.symm, (List.cons.inj rest).2⟩
    | cons c more =>
      -- the separator after the shorter word would lie inside the longer one
      obtain ⟨rfl, -⟩ := List.cons.inj rest
      rw [longer, List.count_append, List.count_cons_self] at same
      omega
  rcases List.append_eq_append_iff.mp h with ⟨more, longer, rest⟩ | ⟨more, longer, rest⟩
  · exact within same longer rest
  · obtain ⟨words, tails⟩ := within same.symm longer rest
    exact ⟨words.symm, tails.symm⟩

/-- The first separator ends a leading word that is free of it. -/
theorem first_separator (hu : sep ∉ u) (hv : sep ∉ v)
    (h : u ++ sep :: xs = v ++ sep :: ys) : u = v ∧ xs = ys := by
  classical
  refine separator_of_count ?_ h
  rw [List.count_eq_zero.mpr hu, List.count_eq_zero.mpr hv]

/-- The last separator starts a trailing word that is free of it. -/
theorem last_separator (hu : sep ∉ u) (hv : sep ∉ v)
    (h : xs ++ sep :: u = ys ++ sep :: v) : xs = ys ∧ u = v := by
  have reversed : u.reverse ++ sep :: xs.reverse = v.reverse ++ sep :: ys.reverse := by
    simpa using congrArg List.reverse h
  obtain ⟨words, rest⟩ := first_separator (by simpa using hu) (by simpa using hv) reversed
  exact ⟨List.reverse_inj.mp rest, List.reverse_inj.mp words⟩

section joined
variable [BEq α] [LawfulBEq α]

/-- The separators of a joined text: those of the words, and one between neighbours. -/
theorem count_intercalate (words : List (List α)) :
    ([sep].intercalate words).count sep =
      (words.map (List.count sep)).sum + (words.length - 1) := by
  induction words with
  | nil => rfl
  | cons word rest ih =>
    cases rest with
    | nil => simp
    | cons next rest =>
      rw [List.intercalate_cons_cons, List.count_append, List.count_append, ih]
      simp only [List.map_cons, List.sum_cons, List.length_cons, List.count_singleton_self]
      omega

variable {words words' : List (List α)}

/-- A joined text determines its words once it is known how many separators each
of them holds. -/
theorem intercalate_inj_of_count (same : words.map (List.count sep) = words'.map (List.count sep))
    (h : [sep].intercalate words = [sep].intercalate words') : words = words' := by
  induction words generalizing words' with
  | nil => exact (List.map_eq_nil_iff.mp same.symm).symm
  | cons word rest ih =>
    cases words' with
    | nil => cases same
    | cons word' rest' =>
      obtain ⟨here, later⟩ := List.cons.inj same
      cases rest with
      | nil =>
        obtain rfl := List.map_eq_nil_iff.mp later.symm
        rw [show word = word' by simpa using h]
      | cons next rest =>
        cases rest' with
        | nil => cases later
        | cons next' rest' =>
          rw [List.intercalate_cons_cons, List.intercalate_cons_cons, List.append_assoc,
            List.append_assoc] at h
          obtain ⟨rfl, tails⟩ := separator_of_count here h
          rw [ih later tails]

/-- Taking a joined text apart takes each of its words apart. -/
theorem splitOn_intercalate_flatMap (some : words ≠ []) :
    ([sep].intercalate words).splitOn sep = words.flatMap (List.splitOn sep) := by
  induction words with
  | nil => exact absurd rfl some
  | cons word rest ih =>
    cases rest with
    | nil => simp
    | cons next rest =>
      rw [List.intercalate_cons_cons, List.append_assoc, List.singleton_append,
        List.splitOn_append_cons_self, ih (List.cons_ne_nil next rest)]
      rfl

/-- The pieces and the number of separators in each word make up the words. -/
theorem eq_iff_pieces_counts :
    words = words' ↔ words.flatMap (List.splitOn sep) = words'.flatMap (List.splitOn sep) ∧
      words.map (List.count sep) = words'.map (List.count sep) := by
  constructor
  · rintro rfl
    exact ⟨rfl, rfl⟩
  · rintro ⟨pieces, counts⟩
    by_cases empty : words = []
    · subst empty
      exact (List.map_eq_nil_iff.mp counts.symm).symm
    · have some : words' ≠ [] := by
        rintro rfl
        exact empty (List.map_eq_nil_iff.mp counts)
      refine intercalate_inj_of_count counts ?_
      rw [← splitOn_intercalate_flatMap empty, ← splitOn_intercalate_flatMap some] at pieces
      have texts := congrArg [sep].intercalate pieces
      rwa [List.intercalate_splitOn, List.intercalate_splitOn] at texts

/-- Words that are not empty join to the same text exactly when they fall apart into
the same pieces. -/
theorem intercalate_eq_iff (nonempty : ∀ word ∈ words, word ≠ [])
    (nonempty' : ∀ word ∈ words', word ≠ []) :
    [sep].intercalate words = [sep].intercalate words' ↔
      words.flatMap (List.splitOn sep) = words'.flatMap (List.splitOn sep) := by
  have apart : ∀ {words : List (List α)}, words ≠ [] → (∀ word ∈ words, word ≠ []) →
      [sep].intercalate words ≠ [] ∧ words.flatMap (List.splitOn sep) ≠ [] := by
    intro words some nonempty
    obtain ⟨word, rest, rfl⟩ := List.exists_cons_of_ne_nil some
    have here := nonempty word List.mem_cons_self
    constructor
    · cases rest with
      | nil => simpa using here
      | cons next rest => simp [List.intercalate_cons_cons]
    · simp [List.splitOn_ne_nil]
  by_cases empty : words = [] <;> by_cases empty' : words' = []
  · simp [empty, empty']
  · obtain ⟨text, pieces⟩ := apart empty' nonempty'
    rw [empty]
    exact iff_of_false (Ne.symm text) (Ne.symm pieces)
  · obtain ⟨text, pieces⟩ := apart empty nonempty
    rw [empty']
    exact iff_of_false text pieces
  · rw [← splitOn_intercalate_flatMap empty, ← splitOn_intercalate_flatMap empty']
    constructor
    · exact congrArg (List.splitOn sep)
    · intro pieces
      have texts := congrArg [sep].intercalate pieces
      rwa [List.intercalate_splitOn, List.intercalate_splitOn] at texts

end joined

end VeilNet.Lib.Separator
