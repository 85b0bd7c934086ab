import VeilNet.Source.Tokens
import VeilNet.Lib.Run

/-!
# Token lifecycle

Any run of `Mint`, `Revoke` and `Sweep` with a clock that never goes back. The run records the
tokens it minted and the IDs it revoked; these alone characterise `Validate` at its end.
-/
namespace VeilNet.Guarantees.TokenLifecycle
open Lib Source.Tokens

/-- An issuer with the history of its run. -/
structure Lifecycle where
  issuer : Issuer
  minted : List Token
  revokedIDs : List String
  clock : Time

def start (clock : Time) : Lifecycle := ⟨newIssuer, [], [], clock⟩

inductive Op where
  | mint (now : Time) (draw : Draw) (nodeID sessionID : String) (ttl : Duration) (scope : String)
  | revoke (now : Time) (id : String)
  | sweep (now : Time) (order : RangeOrder)

def Op.now : Op → Time
  | .mint now .. | .revoke now _ | .sweep now _ => now

def step (s : Lifecycle) : Op → Lifecycle
  | .mint now draw nodeID sessionID ttl scope =>
    match mint now draw s.issuer nodeID sessionID ttl scope with
    | (.ok t, iss) => { s with issuer := iss, minted := t :: s.minted, clock := now }
    | (.error _, iss) => { s with issuer := iss, clock := now }
  | .revoke now id =>
    match revoke s.issuer id with
    | (none, iss) => { s with issuer := iss, revokedIDs := id :: s.revokedIDs, clock := now }
    | (some _, iss) => { s with issuer := iss, clock := now }
  | .sweep now order => { s with issuer := (sweep now order s.issuer).2, clock := now }

/-- The clock does not go back, and a drawn ID is new. -/
def Admissible (s : Lifecycle) (op : Op) : Prop :=
  s.clock ≤ op.now ∧
  match op with
  | .mint _ draw .. => ∀ bytes ∈ draw.id, GoText.hexEncode bytes.toList ∉ s.minted.map (·.id)
  | .revoke .. | .sweep .. => True

-- The drawn bytes form a finite type; the instance must look at the one draw
-- instead of enumerating that type.
instance (s : Lifecycle) : ∀ op, Decidable (Admissible s op)
  | .mint now draw .. =>
    have : Decidable (∀ bytes ∈ draw.id, GoText.hexEncode bytes.toList ∉ s.minted.map Token.id) :=
      Option.decidableForallMem draw.id
    inferInstanceAs (Decidable (s.clock ≤ now ∧ _))
  | .revoke now _ | .sweep now _ => inferInstanceAs (Decidable (s.clock ≤ now ∧ True))

/-- What the issuer remembers of its run. A record may be gone only when its
token is unrevoked and expired for more than the grace period. -/
structure Remembers (s : Lifecycle) : Prop where
  wellFormed : ∀ t ∈ s.minted, t.WellFormed
  unique : ∀ t ∈ s.minted, ∀ t' ∈ s.minted, t.id = t'.id → t = t'
  stored : ∀ id record, s.issuer.tokens.lookup id = some record →
    ∃ t ∈ s.minted, t.id = id ∧ t.record = record
  kept : ∀ t ∈ s.minted, t.id ∈ s.revokedIDs ∨ s.clock ≤ t.expiresAt + expiredGrace →
    s.issuer.tokens.lookup t.id = some t.record
  revoked : ∀ id, s.issuer.isMarkedRevoked id = true ↔ id ∈ s.revokedIDs

theorem remembers_start (clock : Time) : Remembers (start clock) := by
  constructor <;> simp [start, newIssuer, Issuer.isMarkedRevoked]

variable {s : Lifecycle} {now : Time}

theorem remembers_tick (h : Remembers s) (later : s.clock ≤ now) :
    Remembers { s with clock := now } :=
  ⟨h.wellFormed, h.unique, h.stored,
    fun t member live => h.kept t member (live.imp_right later.trans),
    h.revoked⟩

theorem remembers_mint (h : Remembers s) (later : s.clock ≤ now)
    {t : Token} (wellFormed : t.WellFormed) (fresh : t.id ∉ s.minted.map (·.id)) :
    Remembers
      { s with
        issuer := { s.issuer with tokens := s.issuer.tokens.insert t.id t.record }
        minted := t :: s.minted
        clock := now } := by
  have differs : ∀ t' ∈ s.minted, t'.id ≠ t.id := fun t' member eq =>
    fresh (List.mem_map.mpr ⟨t', member, eq⟩)
  refine ⟨?_, ?_, ?_, ?_, h.revoked⟩
  · intro t' member
    rcases List.mem_cons.mp member with rfl | old
    · exact wellFormed
    · exact h.wellFormed t' old
  · intro a ma b mb same
    rcases List.mem_cons.mp ma with rfl | oldA <;> rcases List.mem_cons.mp mb with rfl | oldB
    · rfl
    · exact absurd same.symm (differs b oldB)
    · exact absurd same (differs a oldA)
    · exact h.unique a oldA b oldB same
  · intro id record found
    rcases GoMap.lookup_insert_cases found with ⟨rfl, rfl⟩ | ⟨_, old⟩
    · exact ⟨t, List.mem_cons_self, rfl, rfl⟩
    · obtain ⟨t', member, eqs⟩ := h.stored id record old
      exact ⟨t', List.mem_cons_of_mem _ member, eqs⟩
  · intro t' member live
    rcases List.mem_cons.mp member with rfl | old
    · exact AList.lookup_insert _
    · rw [AList.lookup_insert_ne (differs t' old)]
      exact h.kept t' old (live.imp_right later.trans)

theorem remembers_revoke (h : Remembers s) (later : s.clock ≤ now)
    {id : String} {record : Record} (known : s.issuer.tokens.lookup id = some record) :
    Remembers
      { s with
        issuer := { s.issuer with revoked := s.issuer.revoked.insert id true }
        revokedIDs := id :: s.revokedIDs
        clock := now } := by
  refine ⟨h.wellFormed, h.unique, h.stored, ?_, ?_⟩
  · intro t member live
    by_cases isRevoked : t.id = id
    · obtain ⟨t', member', sameID, sameRecord⟩ := h.stored id record known
      obtain rfl := h.unique t member t' member' (isRevoked.trans sameID.symm)
      rw [isRevoked, sameRecord]
      exact known
    · apply h.kept t member
      rcases live with revoked | inGrace
      · exact .inl ((List.mem_cons.mp revoked).resolve_left isRevoked)
      · exact .inr (later.trans inGrace)
  · intro other
    by_cases same : other = id
    · subst same
      simp [Issuer.isMarkedRevoked]
    · have before := h.revoked other
      simp only [Issuer.isMarkedRevoked, AList.lookup_insert_ne same, List.mem_cons, same,
        false_or] at before ⊢
      exact before

theorem remembers_sweep (h : Remembers s) (later : s.clock ≤ now) (order : RangeOrder) :
    Remembers { s with issuer := (sweep now order s.issuer).2, clock := now } := by
  refine ⟨h.wellFormed, h.unique, ?_, ?_, h.revoked⟩
  · intro id record found
    rw [lookup_sweep, Option.filter_eq_some_iff] at found
    exact h.stored id record found.1
  · intro t member live
    have before := h.kept t member (live.imp_right later.trans)
    rw [lookup_sweep, before, Option.filter_eq_some_iff]
    refine ⟨rfl, ?_⟩
    -- A revoked record is never collectable, and an unrevoked one is in its grace.
    rcases live with revoked | inGrace
    · simp [Issuer.collectable, (h.revoked t.id).mpr revoked]
    · have young : ¬ now - t.record.expiresAt > expiredGrace :=
        not_lt.mpr (Int.sub_left_le_of_le_add inGrace)
      simp [Issuer.collectable, young]

theorem remembers_step (s : Lifecycle) (op : Op) (admissible : Admissible s op) (h : Remembers s) :
    Remembers (step s op) := by
  obtain ⟨later, fresh⟩ := admissible
  cases op with
  | mint now draw nodeID sessionID ttl scope =>
    simp only [step]
    split
    · next t iss outcome =>
      obtain ⟨rfl, wellFormed, bytes, drawn, id⟩ := mint_ok outcome
      exact remembers_mint h later wellFormed (by rw [id]; exact fresh bytes drawn)
    · next e iss outcome =>
      rw [mint_error outcome]
      exact remembers_tick h later
  | revoke now id =>
    simp only [step, revoke]
    cases known : s.issuer.tokens.lookup id with
    | none => exact remembers_tick h later
    | some record => exact remembers_revoke h later known
  | sweep now order => exact remembers_sweep h later order

theorem remembers_run {clock : Time} {ops : List Op}
    (admissible : Run.Along step Admissible (start clock) ops) :
    Remembers (Run.run step (start clock) ops) :=
  (Run.throughout_of_invariant (remembers_start clock) remembers_step admissible).last

section validate
variable {s : Lifecycle} {sha256 : String → List UInt8} {now : Time} {t : Token}

variable (h : Remembers s)
include h

/-- The answer for the bearer string of a minted token whose record is still kept. -/
theorem Remembers.validate_raw (member : t ∈ s.minted)
    (kept : s.issuer.tokens.lookup t.id = some t.record) :
    validate sha256 now s.issuer t.raw =
      if t.id ∈ s.revokedIDs then .error .revoked
      else if ¬ now < t.expiresAt then .error .expired
      else .ok { t with secret := "" } := by
  have shape := h.wellFormed t member
  rw [validate_of_cut sha256 now s.issuer shape.cut shape.idNonempty shape.secretNonempty, kept]
  exact if_congr (h.revoked t.id) rfl (if_neg fun differs => differs rfl)

theorem Remembers.validate_revoked (member : t ∈ s.minted)
    (revoked : t.id ∈ s.revokedIDs) : validate sha256 now s.issuer t.raw = .error .revoked := by
  rw [h.validate_raw member (h.kept t member (.inl revoked)), if_pos revoked]

theorem Remembers.validate_expired (later : s.clock ≤ now) (member : t ∈ s.minted)
    (unrevoked : t.id ∉ s.revokedIDs) (expired : t.expiresAt ≤ now)
    (inGrace : now ≤ t.expiresAt + expiredGrace) :
    validate sha256 now s.issuer t.raw = .error .expired := by
  rw [h.validate_raw member (h.kept t member (.inr (later.trans inGrace))), if_neg unrevoked,
    if_pos (not_lt.mpr expired)]

theorem Remembers.validate_live (later : s.clock ≤ now) (member : t ∈ s.minted)
    (unrevoked : t.id ∉ s.revokedIDs) (live : now < t.expiresAt) :
    validate sha256 now s.issuer t.raw = .ok { t with secret := "" } := by
  have inGrace : now ≤ t.expiresAt + expiredGrace :=
    live.le.trans (le_add_of_nonneg_right (by decide))
  rw [h.validate_raw member (h.kept t member (.inr (later.trans inGrace))), if_neg unrevoked,
    if_neg (not_not.mpr live)]

/-- Only the bearer string of a live, unrevoked, minted token is accepted. -/
theorem Remembers.of_validate_ok (collisionFree : Function.Injective sha256)
    {raw : String} {answer : Token} (accepted : validate sha256 now s.issuer raw = .ok answer) :
    ∃ t ∈ s.minted, raw = t.raw ∧ t.id ∉ s.revokedIDs ∧ now < t.expiresAt ∧
      answer = { t with secret := "" } := by
  obtain ⟨secret, record, splits, found, notRevoked, digests, inTime, fields⟩ :=
    validate_ok accepted
  obtain ⟨t, member, sameID, rfl⟩ := h.stored _ _ found
  have raw_eq : raw = t.raw := by
    rw [(GoText.cut_iff.mp splits).1, (h.wellFormed t member).raw, sameID, collisionFree digests]
    rfl
  refine ⟨t, member, raw_eq, ?_, inTime, ?_⟩
  · rw [← h.revoked, sameID, notRevoked]
    decide
  · rw [fields, raw_eq, ← sameID]
    rfl

end validate

/-- At any time after any admissible run: a string is accepted exactly when it is the bearer
string of a minted token that is neither revoked nor expired, and the answer carries its fields; a
revoked token is reported as revoked whatever was swept; an unrevoked expired one is reported as
expired for 24 hours. -/
theorem token_lifecycle (sha256 : String → List UInt8) (collisionFree : Function.Injective sha256)
    (clock : Time) (ops : List Op) (admissible : Run.Along step Admissible (start clock) ops)
    (now : Time) (later : (Run.run step (start clock) ops).clock ≤ now) (raw : String) :
    let s := Run.run step (start clock) ops
    (∀ answer, validate sha256 now s.issuer raw = .ok answer ↔
      ∃ t ∈ s.minted, raw = t.raw ∧ t.id ∉ s.revokedIDs ∧ now < t.expiresAt ∧
        answer = { t with secret := "" }) ∧
    (∀ t ∈ s.minted, raw = t.raw → t.id ∈ s.revokedIDs →
      validate sha256 now s.issuer raw = .error .revoked) ∧
    (∀ t ∈ s.minted, raw = t.raw → t.id ∉ s.revokedIDs → t.expiresAt ≤ now →
      now ≤ t.expiresAt + expiredGrace → validate sha256 now s.issuer raw = .error .expired) := by
  intro s
  have h : Remembers s := remembers_run admissible
  refine ⟨fun answer => ⟨h.of_validate_ok collisionFree, ?_⟩, ?_, ?_⟩
  · rintro ⟨t, member, rfl, unrevoked, live, rfl⟩
    exact h.validate_live later member unrevoked live
  · rintro t member rfl revoked
    exact h.validate_revoked member revoked
  · rintro t member rfl unrevoked expired inGrace
    exact h.validate_expired later member unrevoked expired inGrace

/-- Two tokens of five minutes each; the first is revoked, and a sweep follows. -/
def sampleRun : List Op :=
  [ .mint 0 ⟨some (.replicate 16 0), some (.replicate 32 7)⟩ "node" "s1" (5 * Duration.minute) "",
    .mint 0 ⟨some (.replicate 16 1), some (.replicate 32 8)⟩ "node" "s2" (5 * Duration.minute) "",
    .revoke 1 (GoText.hexEncode (List.replicate 16 0)),
    .sweep 2 .forward ]

/-- The bytes themselves stand in for the digest. -/
theorem sampleRun_lifecycle :
    Run.Along step Admissible (start 0) sampleRun ∧
    ∃ live revoked, (Run.run step (start 0) sampleRun).minted = [live, revoked] ∧
      validate GoText.utf8 2 (Run.run step (start 0) sampleRun).issuer live.raw =
        .ok { live with secret := "" } ∧
      validate GoText.utf8 (5 * Duration.minute)
        (Run.run step (start 0) sampleRun).issuer live.raw = .error .expired ∧
      ∀ now ≥ (2 : Time), validate GoText.utf8 now (Run.run step (start 0) sampleRun).issuer
        revoked.raw = .error .revoked := by
  have admissible : Run.Along step Admissible (start 0) sampleRun := by decide
  have lifecycle := token_lifecycle GoText.utf8 GoText.utf8_injective 0 sampleRun admissible
  refine ⟨admissible, _, _, rfl, ?_, ?_, fun now later => ?_⟩
  · exact ((lifecycle 2 (by decide) _).1 _).mpr
      ⟨_, List.mem_cons_self, rfl, by decide, by decide, rfl⟩
  · exact (lifecycle _ (by decide) _).2.2 _ List.mem_cons_self rfl (by decide)
      (by decide) (by decide)
  · exact (lifecycle now later _).2.1 _ (List.mem_cons_of_mem _ List.mem_cons_self) rfl
      (by decide)

end VeilNet.Guarantees.TokenLifecycle
