import VeilNet.Source.Tokens

/-!
# What a token ID reveals

`Validate` under a wrong secret, in two issuers that may differ in everything they hold of the
presented ID. The answers agree exactly when the ID is revoked in both or in neither: revocation
is looked at before the secret.
-/
namespace VeilNet.Guarantees.TokenOracle
open Lib Source.Tokens

/-- The issuer knows the ID, and the ID is revoked. -/
def RevokedRecord (iss : Issuer) (id : String) : Prop :=
  (iss.tokens.lookup id).isSome = true ∧ iss.isMarkedRevoked id = true

instance (iss : Issuer) (id : String) : Decidable (RevokedRecord iss id) :=
  inferInstanceAs (Decidable (_ ∧ _))

/-- The secret is not the one of the issuer's token under this ID, if it has one. -/
def WrongSecret (iss : Issuer) (id secret : String) : Prop :=
  ∀ record, iss.tokens.lookup id = some record → secret ≠ record.secret

/-- Whoever lacks the secret sees whether the ID is revoked, and nothing else. -/
theorem validate_of_wrongSecret {sha256 : String → List UInt8}
    (collisionFree : Function.Injective sha256) (now : Time) {iss : Issuer} {raw id secret : String}
    (presented : GoText.cut raw '.' = some (id, secret)) (idNonempty : id ≠ "")
    (secretNonempty : secret ≠ "") (wrong : WrongSecret iss id secret) :
    validate sha256 now iss raw =
      .error (if RevokedRecord iss id then Error.revoked else Error.invalid) := by
  rw [validate_of_cut sha256 now iss presented idNonempty secretNonempty]
  cases found : iss.tokens.lookup id with
  | none =>
    have unknown : ¬ RevokedRecord iss id := by simp [RevokedRecord, found]
    rw [if_neg unknown]
  | some record =>
    have digests : sha256 secret ≠ sha256 record.secret := collisionFree.ne (wrong record found)
    by_cases revoked : iss.isMarkedRevoked id = true
    · have both : RevokedRecord iss id := by simp [RevokedRecord, found, revoked]
      simp only [if_pos both, if_pos revoked]
    · have unrevoked : ¬ RevokedRecord iss id := fun both => revoked both.2
      simp only [if_neg unrevoked, if_neg revoked, if_pos digests]

/-- A string without an ID or without a secret is invalid everywhere. -/
theorem validate_of_empty (sha256 : String → List UInt8) (now : Time) (iss : Issuer)
    {raw id secret : String} (presented : GoText.cut raw '.' = some (id, secret))
    (empty : id = "" ∨ secret = "") : validate sha256 now iss raw = .error .invalid := by
  simp only [validate, presented, if_pos empty]

/-- A presented string with a wrong secret gets the same error from two issuers exactly when its
ID is revoked in both or in neither, or when it is malformed. -/
theorem wrong_secret_same_error_iff (sha256 : String → List UInt8)
    (collisionFree : Function.Injective sha256) (now : Time) (iss iss' : Issuer)
    (raw id secret : String) (presented : GoText.cut raw '.' = some (id, secret))
    (wrong : WrongSecret iss id secret) (wrong' : WrongSecret iss' id secret) :
    (∃ e, validate sha256 now iss raw = .error e ∧ validate sha256 now iss' raw = .error e) ↔
      (id = "" ∨ secret = "") ∨ (RevokedRecord iss id ↔ RevokedRecord iss' id) := by
  by_cases empty : id = "" ∨ secret = ""
  · refine iff_of_true ⟨.invalid, ?_, ?_⟩ (.inl empty)
    · exact validate_of_empty sha256 now iss presented empty
    · exact validate_of_empty sha256 now iss' presented empty
  · obtain ⟨idNonempty, secretNonempty⟩ := not_or.mp empty
    rw [validate_of_wrongSecret collisionFree now presented idNonempty secretNonempty wrong,
      validate_of_wrongSecret collisionFree now presented idNonempty secretNonempty wrong']
    by_cases here : RevokedRecord iss id <;> by_cases there : RevokedRecord iss' id <;>
      simp [here, there, empty]

section sample

/-- A token that expires at instant 10. -/
def record : Record := ⟨"node", "session", 10, scopeExit, "secret"⟩

def live : Issuer := { newIssuer with tokens := newIssuer.tokens.insert "id" record }

def consumed : Issuer := (revoke live "id").2

/-- An unknown ID and a live one answer alike. -/
theorem live_like_unknown :
    (∃ e, validate GoText.utf8 5 newIssuer "id.guess" = .error e ∧
      validate GoText.utf8 5 live "id.guess" = .error e) ∧
    ¬ RevokedRecord newIssuer "id" ∧ ¬ RevokedRecord live "id" := by
  refine ⟨?_, by decide, by decide⟩
  refine (wrong_secret_same_error_iff GoText.utf8 GoText.utf8_injective 5 newIssuer live "id.guess"
    "id" "guess" (by decide) ?_ ?_).mpr (.inr ?_)
  · intro record found
    cases found
  · intro record found
    obtain rfl := Option.some.inj found
    decide
  · exact iff_of_false (by decide) (by decide)

/-- A revoked ID is told apart from an unknown one by a guessed secret. -/
theorem consumed_unlike_unknown :
    WrongSecret newIssuer "id" "guess" ∧ WrongSecret consumed "id" "guess" ∧
    validate GoText.utf8 5 newIssuer "id.guess" = .error .invalid ∧
    validate GoText.utf8 5 consumed "id.guess" = .error .revoked := by
  refine ⟨?_, ?_, by decide, by decide⟩
  · intro record found
    cases found
  · intro record found
    obtain rfl := Option.some.inj found
    decide

end sample

end VeilNet.Guarantees.TokenOracle
