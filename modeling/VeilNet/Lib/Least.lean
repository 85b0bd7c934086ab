import Mathlib.Data.Set.Finite.Lemmas

/-!
The least members of a finite set by a key, and what they have to do with a handicap:
keys that rise for some of the members, by which these keep their order.
-/
namespace VeilNet.Lib

section least
variable {α β : Type*} [LinearOrder β]

/-- A member whose key is least. -/
def LeastBy (members : Set α) (key : α → β) (a : α) : Prop :=
  a ∈ members ∧ ∀ b ∈ members, key a ≤ key b

variable {members held : Set α} {key key' : α → β} {a b : α}

theorem exists_leastBy (finite : members.Finite) (some : a ∈ members) :
    ∃ b, LeastBy members key b :=
  Set.exists_min_image members key finite ⟨a, some⟩

theorem LeastBy.of_le (least : LeastBy members key a) (member : b ∈ members) (le : key b ≤ key a) :
    LeastBy members key b :=
  ⟨member, fun c other => le.trans (least.2 c other)⟩

/-- Where keys tell the members apart, one member is least. -/
theorem LeastBy.eq (apart : ∀ a ∈ members, ∀ b ∈ members, key a = key b → a = b)
    (least : LeastBy members key a) (least' : LeastBy members key b) : a = b :=
  apart a least.1 b least'.1 (le_antisymm (least.2 b least'.1) (least'.2 a least.1))

/-- The second key is the first one, with a handicap on the members held. -/
structure Handicap (members held : Set α) (key key' : α → β) : Prop where
  free : ∀ a ∈ members, a ∉ held → key' a = key a
  worse : ∀ a ∈ members, key a ≤ key' a
  order : ∀ a ∈ members, a ∈ held → ∀ b ∈ members, b ∈ held → (key' a ≤ key' b ↔ key a ≤ key b)
  apart : ∀ a ∈ members, a ∈ held → ∀ b ∈ members, b ∉ held → key a ≠ key b ∧ key' a ≠ key' b

/-- Some member that is not held is before all that are. -/
def FreeAhead (members held : Set α) (key : α → β) : Prop :=
  ∃ a ∈ members, a ∉ held ∧ ∀ b ∈ members, b ∈ held → key a < key b

namespace Handicap
variable (handicap : Handicap members held key key')
include handicap

theorem leastBy_of_free (least : LeastBy members key a) (free : a ∉ held) :
    LeastBy members key' a := by
  refine ⟨least.1, fun b member => ?_⟩
  rw [handicap.free a least.1 free]
  exact (least.2 b member).trans (handicap.worse b member)

/-- If a least member is free, the handicap changes nothing. -/
theorem leastBy_iff_of_free (least : LeastBy members key a) (free : a ∉ held) :
    LeastBy members key' b ↔ LeastBy members key b := by
  constructor
  · intro least'
    refine least.of_le least'.1 ?_
    calc key b ≤ key' b := handicap.worse b least'.1
      _ ≤ key' a := least'.2 a least.1
      _ = key a := handicap.free a least.1 free
  · intro other
    refine handicap.leastBy_of_free other fun isHeld => ?_
    exact (handicap.apart b other.1 isHeld a least.1 free).1
      (le_antisymm (other.2 a least.1) (least.2 b other.1))

/-- If a least member is held and no free one gets ahead, the handicap changes nothing. -/
theorem leastBy_iff_of_held (least : LeastBy members key a) (isHeld : a ∈ held)
    (behind : ¬ FreeAhead members held key') :
    LeastBy members key' b ↔ LeastBy members key b := by
  have first : ∀ c ∈ members, c ∈ held → key' a ≤ key' c := fun c member other =>
    (handicap.order a least.1 isHeld c member other).mpr (least.2 c member)
  have least' : LeastBy members key' a := by
    refine ⟨least.1, fun c member => ?_⟩
    by_contra ahead
    have free : c ∉ held := fun other => ahead (first c member other)
    exact behind ⟨c, member, free, fun d inner other =>
      (not_le.mp ahead).trans_le (first d inner other)⟩
  constructor
  · intro other
    by_cases otherHeld : b ∈ held
    · exact least.of_le other.1
        ((handicap.order b other.1 otherHeld a least.1 isHeld).mp (other.2 a least.1))
    · exact absurd (le_antisymm (least'.2 b other.1) (other.2 a least.1))
        (handicap.apart a least.1 isHeld b other.1 otherHeld).2
  · intro other
    have otherHeld : b ∈ held := by
      by_contra free
      exact (handicap.apart a least.1 isHeld b other.1 free).1
        (le_antisymm (least.2 b other.1) (other.2 a least.1))
    exact least'.of_le other.1
      ((handicap.order b other.1 otherHeld a least.1 isHeld).mpr (other.2 a least.1))

/-- A handicap leaves the least members as they are exactly when a free member that gets
ahead of all members held was not needed for it: one was ahead of them before. -/
theorem leastBy_iff (finite : members.Finite) :
    (∀ a, LeastBy members key' a ↔ LeastBy members key a) ↔
      (FreeAhead members held key' → FreeAhead members held key) := by
  constructor
  · rintro same ⟨m, member, _, ahead⟩
    obtain ⟨a, least'⟩ := @exists_leastBy _ _ _ _ key' _ finite member
    have free : a ∉ held := fun isHeld =>
      absurd (least'.2 m member) (not_le.mpr (ahead a least'.1 isHeld))
    have least := (same a).mp least'
    refine ⟨a, least.1, free, fun b other isHeld => ?_⟩
    exact lt_of_le_of_ne (least.2 b other) (handicap.apart b other isHeld a least.1 free).1.symm
  · intro needed b
    by_cases some : members.Nonempty
    · obtain ⟨a, least⟩ := @exists_leastBy _ _ _ _ key _ finite some.some_mem
      by_cases isHeld : a ∈ held
      · refine handicap.leastBy_iff_of_held least isHeld fun ahead => ?_
        obtain ⟨m, member, _, before⟩ := needed ahead
        exact absurd (least.2 m member) (not_le.mpr (before a least.1 isHeld))
      · exact handicap.leastBy_iff_of_free least isHeld
    · exact iff_of_false (fun least => some ⟨b, least.1⟩) fun least => some ⟨b, least.1⟩

end Handicap

end least

end VeilNet.Lib
