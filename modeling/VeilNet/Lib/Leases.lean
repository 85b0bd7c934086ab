import Mathlib.Data.Set.Basic

/-!
Leases of addresses to holders. A book is exact when every taken address has a holder. Overwriting
the entry of a holder returns nothing, so the holder must have held nothing before.
-/
namespace VeilNet.Lib.Leases

structure Book (κ α : Type) where
  used : Set α
  lease : κ → Option α

variable {κ α : Type} {b b' : Book κ α}

/-- Holders hold taken addresses, no two the same. -/
structure Sound (b : Book κ α) : Prop where
  taken : ∀ k a, b.lease k = some a → a ∈ b.used
  apart : ∀ k k' a, b.lease k = some a → b.lease k' = some a → k = k'

def Exact (b : Book κ α) : Prop := ∀ a ∈ b.used, ∃ k, b.lease k = some a

/-- The entry of `k` becomes `new`: a free address, which is then taken, or
nothing. What `k` held before is not returned. -/
structure Overwrites (b b' : Book κ α) (k : κ) (new : Option α) : Prop where
  free : ∀ a, new = some a → a ∉ b.used
  used : ∀ x, x ∈ b'.used ↔ new = some x ∨ x ∈ b.used
  own : b'.lease k = new
  others : ∀ k', k' ≠ k → b'.lease k' = b.lease k'

/-- The holders in `gone` return their addresses. -/
structure Returns (b b' : Book κ α) (gone : κ → Prop) : Prop where
  used : ∀ x, x ∈ b'.used ↔ x ∈ b.used ∧ ∀ k, gone k → b.lease k ≠ some x
  own : ∀ k, gone k → b'.lease k = none
  others : ∀ k, ¬ gone k → b'.lease k = b.lease k

section overwrites
variable {k : κ} {new : Option α}

/-- Whoever holds an address afterwards is `k` with its new one, or held it before. -/
theorem Overwrites.held (h : Overwrites b b' k new) {k' : κ} {x : α}
    (holds : b'.lease k' = some x) : k' = k ∧ new = some x ∨ k' ≠ k ∧ b.lease k' = some x := by
  by_cases same : k' = k
  · subst same
    exact .inl ⟨rfl, h.own.symm.trans holds⟩
  · rw [h.others k' same] at holds
    exact .inr ⟨same, holds⟩

theorem Overwrites.sound (h : Overwrites b b' k new) (sound : Sound b) : Sound b' := by
  constructor
  · intro k' x holds
    rcases h.held holds with ⟨_, isNew⟩ | ⟨_, old⟩
    · exact (h.used x).mpr (.inl isNew)
    · exact (h.used x).mpr (.inr (sound.taken k' x old))
  · intro k₁ k₂ x holds₁ holds₂
    rcases h.held holds₁ with ⟨same₁, new₁⟩ | ⟨_, old₁⟩ <;>
      rcases h.held holds₂ with ⟨same₂, new₂⟩ | ⟨_, old₂⟩
    · rw [same₁, same₂]
    · exact absurd (sound.taken k₂ x old₂) (h.free x new₁)
    · exact absurd (sound.taken k₁ x old₁) (h.free x new₂)
    · exact sound.apart k₁ k₂ x old₁ old₂

/-- What `k` held before stays taken and has no holder any more. -/
theorem Overwrites.exact_iff (h : Overwrites b b' k new) (sound : Sound b) (exact : Exact b) :
    Exact b' ↔ b.lease k = none := by
  constructor
  · intro exact'
    cases held : b.lease k with
    | none => rfl
    | some old =>
      exfalso
      have taken := sound.taken k old held
      obtain ⟨k', holds⟩ := exact' old ((h.used old).mpr (.inr taken))
      rcases h.held holds with ⟨_, isNew⟩ | ⟨other, holds'⟩
      · exact h.free old isNew taken
      · exact other (sound.apart k' k old holds' held)
  · intro none x member
    rcases (h.used x).mp member with isNew | old
    · exact ⟨k, h.own.trans isNew⟩
    · obtain ⟨k', held⟩ := exact x old
      have other : k' ≠ k := by
        rintro rfl
        rw [none] at held
        cases held
      exact ⟨k', by rw [h.others k' other, held]⟩

end overwrites

section returns
variable {gone : κ → Prop}

theorem Returns.held (h : Returns b b' gone) {k : κ} {x : α} (holds : b'.lease k = some x) :
    ¬ gone k ∧ b.lease k = some x := by
  have stays : ¬ gone k := fun left => by
    rw [h.own k left] at holds
    cases holds
  exact ⟨stays, by rw [← h.others k stays, holds]⟩

theorem Returns.sound (h : Returns b b' gone) (sound : Sound b) : Sound b' := by
  constructor
  · intro k x holds
    obtain ⟨stays, held⟩ := h.held holds
    refine (h.used x).mpr ⟨sound.taken k x held, fun k' left held' => ?_⟩
    exact stays (sound.apart k k' x held held' ▸ left)
  · intro k₁ k₂ x holds₁ holds₂
    exact sound.apart k₁ k₂ x (h.held holds₁).2 (h.held holds₂).2

theorem Returns.exact (h : Returns b b' gone) (exact : Exact b) : Exact b' := by
  intro x member
  obtain ⟨taken, unreturned⟩ := (h.used x).mp member
  obtain ⟨k, held⟩ := exact x taken
  have stays : ¬ gone k := fun left => unreturned k left held
  exact ⟨k, by rw [h.others k stays, held]⟩

end returns

end VeilNet.Lib.Leases
