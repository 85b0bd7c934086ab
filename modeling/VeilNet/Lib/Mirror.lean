import Mathlib.Logic.Function.Basic

/-!
A table whose entries carry a key and a value, and an image that is meant to hold the value of
every entry under its key. The image is kept by one upsert or delete for each change, so it
mirrors the table only as long as no two entries share a key.
-/
namespace VeilNet.Lib.Mirror

variable {ι κ ν : Type*} {entries entries' : ι → Option (κ × ν)} {image image' : κ → Option ν}

/-- The image holds the values of the entries under their keys, and nothing else. -/
def Mirrors (entries : ι → Option (κ × ν)) (image : κ → Option ν) : Prop :=
  ∀ k v, image k = some v ↔ ∃ i, entries i = some (k, v)

/-- No two entries have the same value. -/
def Apart (entries : ι → Option (κ × ν)) : Prop :=
  ∀ i j k k' v, entries i = some (k, v) → entries j = some (k', v) → i = j

variable (h : Mirrors entries image)
include h

/-- In a mirrored table no two entries share a key. -/
theorem Mirrors.key_unique (apart : Apart entries) {i j : ι} {k : κ}
    {v w : ν} (here : entries i = some (k, v)) (there : entries j = some (k, w)) : i = j := by
  have left := (h k v).mpr ⟨i, here⟩
  have right := (h k w).mpr ⟨j, there⟩
  obtain rfl : v = w := Option.some.inj (left.symm.trans right)
  exact apart i j k k v here there

/-- The entries in `gone` leave, and their keys are deleted from the image. -/
structure Drops (entries entries' : ι → Option (κ × ν)) (image image' : κ → Option ν)
    (gone : ι → Prop) : Prop where
  own : ∀ i, gone i → entries' i = none
  others : ∀ i, ¬ gone i → entries' i = entries i
  deleted : ∀ i k v, gone i → entries i = some (k, v) → image' k = none
  kept : ∀ k, (∀ i v, gone i → entries i ≠ some (k, v)) → image' k = image k

theorem Mirrors.drops {gone : ι → Prop} (apart : Apart entries)
    (d : Drops entries entries' image image' gone) : Mirrors entries' image' := by
  intro k v
  constructor
  · intro found
    have untouched : ∀ i w, gone i → entries i ≠ some (k, w) := by
      intro i w left entry
      rw [d.deleted i k w left entry] at found
      cases found
    rw [d.kept k untouched] at found
    obtain ⟨i, entry⟩ := (h k v).mp found
    have stays : ¬ gone i := fun left => untouched i v left entry
    exact ⟨i, by rw [d.others i stays, entry]⟩
  · rintro ⟨i, entry⟩
    have stays : ¬ gone i := fun left => by
      rw [d.own i left] at entry
      cases entry
    rw [d.others i stays] at entry
    have untouched : ∀ j w, gone j → entries j ≠ some (k, w) := fun j w left other =>
      stays (h.key_unique apart entry other ▸ left)
    rw [d.kept k untouched]
    exact (h k v).mpr ⟨i, entry⟩

/-- Entry `i` becomes `(k, v)`, and the image is set at `k`. -/
structure Sets (entries entries' : ι → Option (κ × ν)) (image image' : κ → Option ν) (i : ι) (k : κ)
    (v : ν) : Prop where
  own : entries' i = some (k, v)
  others : ∀ j, j ≠ i → entries' j = entries j
  set : image' k = some v
  kept : ∀ k', k' ≠ k → image' k' = image k'

omit h in
/-- The entries after a set: the new one, and those of the other positions. -/
theorem Sets.entry_iff {i j : ι} {k k' : κ} {v v' : ν}
    (s : Sets entries entries' image image' i k v) :
    entries' j = some (k', v') ↔
      (j = i ∧ k' = k ∧ v' = v) ∨ (j ≠ i ∧ entries j = some (k', v')) := by
  by_cases here : j = i
  · subst here
    simp only [s.own, Option.some.injEq, Prod.mk.injEq, true_and, ne_eq, not_true_eq_false,
      false_and, or_false, eq_comm]
  · simp only [s.others j here, here, false_and, ne_eq, not_false_eq_true, true_and, false_or]

/-- If the mirror is kept, the key is that of the replaced entry and of no other. -/
theorem Mirrors.unique_of_sets {i j : ι} {k k' : κ} {v v' : ν}
    (apart : Apart entries) (new : ∀ j k', entries j ≠ some (k', v))
    (s : Sets entries entries' image image' i k v) (mirrors : Mirrors entries' image')
    (entry : entries j = some (k', v')) : k' = k ↔ j = i := by
  constructor
  · rintro rfl
    by_contra other
    -- the other entry's value would have to be the one just set
    have found := (mirrors k' v').mpr ⟨j, s.entry_iff.mpr (.inr ⟨other, entry⟩)⟩
    rw [s.set] at found
    exact new j k' (Option.some.inj found ▸ entry)
  · rintro rfl
    by_contra other
    -- the old key would stay in the image without an entry
    have found : image' k' = some v' := by
      rw [s.kept k' other]
      exact (h k' v').mpr ⟨j, entry⟩
    obtain ⟨l, holder⟩ := (mirrors k' v').mp found
    rcases s.entry_iff.mp holder with ⟨_, same, _⟩ | ⟨away, old⟩
    · exact other same
    · exact away (apart l j k' k' v' old entry)

theorem Mirrors.sets {i : ι} {k : κ} {v : ν}
    (s : Sets entries entries' image image' i k v)
    (unique : ∀ j k' v', entries j = some (k', v') → (k' = k ↔ j = i)) :
    Mirrors entries' image' := by
  intro k' w
  simp only [s.entry_iff]
  by_cases same : k' = k
  · subst same
    rw [s.set]
    constructor
    · rintro ⟨⟩
      exact ⟨i, .inl ⟨rfl, rfl, rfl⟩⟩
    · rintro ⟨j, ⟨_, _, rfl⟩ | ⟨away, entry⟩⟩
      · rfl
      · exact absurd ((unique j k' w entry).mp rfl) away
  · rw [s.kept k' same]
    constructor
    · intro found
      obtain ⟨j, entry⟩ := (h k' w).mp found
      exact ⟨j, .inr ⟨fun here => same ((unique j k' w entry).mpr here), entry⟩⟩
    · rintro ⟨j, ⟨_, here, _⟩ | ⟨_, entry⟩⟩
      · exact absurd here same
      · exact (h k' w).mpr ⟨j, entry⟩

/-- Setting an entry with a new value keeps the mirror exactly when the key is that
of the entry it replaces, and of no other entry. -/
theorem Mirrors.sets_iff {i : ι} {k : κ} {v : ν} (apart : Apart entries)
    (new : ∀ j k', entries j ≠ some (k', v)) (s : Sets entries entries' image image' i k v) :
    Mirrors entries' image' ↔ ∀ j k' v', entries j = some (k', v') → (k' = k ↔ j = i) :=
  ⟨fun mirrors _ _ _ entry => h.unique_of_sets apart new s mirrors entry, h.sets s⟩

/-- Taking an entry away without a delete keeps the mirror only if there was none. -/
theorem Mirrors.vanish_iff {i : ι} (apart : Apart entries)
    (own : entries' i = none) (others : ∀ j, j ≠ i → entries' j = entries j) :
    Mirrors entries' image ↔ entries i = none := by
  constructor
  · intro mirrors
    cases entry : entries i with
    | none => rfl
    | some pair =>
      obtain ⟨k, v⟩ := pair
      obtain ⟨j, holder⟩ := (mirrors k v).mp ((h k v).mpr ⟨i, entry⟩)
      by_cases same : j = i
      · rw [same, own] at holder
        cases holder
      · rw [others j same] at holder
        exact absurd (apart j i k k v holder entry) same
  · intro absent
    have unchanged : entries' = entries := by
      funext j
      by_cases same : j = i
      · rw [same, own, absent]
      · exact others j same
    rw [unchanged]
    exact h

end VeilNet.Lib.Mirror
