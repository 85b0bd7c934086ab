import VeilNet.Source.Sessions
import VeilNet.Lib.Run

/-!
# Single use of session tokens

Runs of `Authorize`, `Revoke` and `SweepOnce`, under any validator. A token is tombstoned when its
session is revoked or swept, but `Authorize` overwrites a session that has lapsed and was not
swept. Each token is authorised at most once exactly when no call meets such a session. Without
`MaxSessionDuration` that never happens, since the token has expired by then as well.
-/
namespace VeilNet.Guarantees.TokenReuse
open Lib Source.Sessions

/-- A manager with the token IDs it authorised, the latest first. -/
structure State where
  manager : Manager
  authorised : List String

def start (maxDuration : Duration) : State := ⟨newManager maxDuration, []⟩

/-- The validator reads the clock at `asked`, the manager at `now`. -/
inductive Op where
  | authorize (asked now : Time) (raw clientPubkey assignedIP endpoint : String)
  | revoke (now : Time) (id : String)
  | sweep (now : Time) (order : RangeOrder)

def Op.now : Op → Time
  | .authorize _ now .. | .revoke now _ | .sweep now _ => now

section definitions
variable (validator : Time → String → Except Error Token)

def step (s : State) : Op → State
  | .authorize asked now raw clientPubkey assignedIP endpoint =>
    match authorize (validator asked raw) now s.manager clientPubkey assignedIP endpoint with
    | (.ok session, m) => ⟨m, session.tokenID :: s.authorised⟩
    | (.error _, m) => ⟨m, s.authorised⟩
  | .revoke now id => { s with manager := (revoke now s.manager id).2 }
  | .sweep now order => { s with manager := (sweepOnce order now s.manager).2 }

def SingleUse (s : State) : Prop := s.authorised.Nodup

instance (s : State) : Decidable (SingleUse s) := inferInstanceAs (Decidable s.authorised.Nodup)

/-- A call with an accepted, unexpired token does not meet a lapsed session of
that token. -/
def MeetsNoLapsed (s : State) : Op → Prop
  | .authorize asked now raw .. => ∀ tok, validator asked raw = .ok tok → tok.expired now = false →
    ∀ existing, s.manager.byToken.lookup tok.id = some existing → existing.expired now = false
  | .revoke .. | .sweep .. => True

end definitions

/-- The authorised tokens are those that have a session or a tombstone, and none
has both. -/
structure Accounted (s : State) : Prop where
  remembered : ∀ id ∈ s.authorised,
    (s.manager.byToken.lookup id).isSome ∨ (s.manager.revoked.lookup id).isSome
  entered : ∀ id, (s.manager.byToken.lookup id).isSome → id ∈ s.authorised
  apart : ∀ id, (s.manager.byToken.lookup id).isSome → s.manager.revoked.lookup id = none

theorem accounted_start (maxDuration : Duration) : Accounted (start maxDuration) := by
  constructor <;> simp [start, newManager]

section steps
variable {s : State}

/-- A new session is in the map, and its token among the authorised ones. -/
theorem Accounted.enter (h : Accounted s) {session : Session}
    (unrevoked : s.manager.revoked.lookup session.tokenID = none) :
    Accounted ⟨s.manager.enter session, session.tokenID :: s.authorised⟩ := by
  constructor
  · intro id member
    rw [enter_byToken]
    split
    · exact .inl rfl
    · next other => exact h.remembered id ((List.mem_cons.mp member).resolve_left other)
  · intro id found
    rw [enter_byToken] at found
    split at found
    · next same => exact List.mem_cons.mpr (.inl same)
    · exact List.mem_cons_of_mem _ (h.entered id found)
  · intro id found
    rw [enter_byToken] at found
    split at found
    · next same =>
      rw [same]
      exact unrevoked
    · exact h.apart id found

theorem Accounted.revoke (h : Accounted s) (now : Time) (tokenID : String) :
    Accounted { s with manager := (revoke now s.manager tokenID).2 } := by
  have stays : ∀ id, ((Source.Sessions.revoke now s.manager tokenID).2.byToken.lookup id).isSome →
      id ≠ tokenID ∧ (s.manager.byToken.lookup id).isSome := by
    intro id found
    rw [revoke_byToken] at found
    split at found
    · cases found
    · next other => exact ⟨other, found⟩
  constructor
  · intro id member
    rw [revoke_revoked, revoke_byToken]
    rcases h.remembered id member with live | tombstone
    · split
      · next same => exact .inr (.inr ⟨same, live⟩)
      · exact .inl live
    · exact .inr (.inl tombstone)
  · intro id found
    exact h.entered id (stays id found).2
  · intro id found
    obtain ⟨other, before⟩ := stays id found
    have unrevoked := h.apart id before
    rw [← Option.not_isSome_iff_eq_none, revoke_revoked, unrevoked]
    simp [other]

theorem Accounted.sweep (h : Accounted s) (now : Time) (order : RangeOrder) :
    Accounted { s with manager := (sweepOnce order now s.manager).2 } := by
  have stays : ∀ id, ((sweepOnce order now s.manager).2.byToken.lookup id).isSome →
      ∃ session, s.manager.byToken.lookup id = some session ∧ session.expired now = false := by
    intro id found
    obtain ⟨session, kept⟩ := Option.isSome_iff_exists.mp found
    exact ⟨session, of_sweepOnce kept⟩
  constructor
  · intro id member
    rw [sweepOnce_revoked, sweepOnce_byToken]
    rcases h.remembered id member with live | tombstone
    · obtain ⟨session, found⟩ := Option.isSome_iff_exists.mp live
      cases lapsed : session.expired now with
      | true => exact .inr (.inr ⟨session, found, lapsed⟩)
      | false => exact .inl (by simp [found, Option.filter, lapsed])
    · exact .inr (.inl tombstone)
  · intro id found
    obtain ⟨session, before, _⟩ := stays id found
    exact h.entered id (by simp [before])
  · intro id found
    obtain ⟨session, before, live⟩ := stays id found
    have unrevoked := h.apart id (by simp [before])
    rw [← Option.not_isSome_iff_eq_none, sweepOnce_revoked, unrevoked, before]
    simp [live]

/-- The new token was not authorised before, exactly when it has no session. -/
theorem Accounted.fresh_iff (h : Accounted s) {id : String}
    (unrevoked : s.manager.revoked.lookup id = none) :
    id ∉ s.authorised ↔ s.manager.byToken.lookup id = none := by
  constructor
  · intro fresh
    by_contra present
    exact fresh (h.entered id (Option.isSome_iff_ne_none.mpr present))
  · intro absent member
    rcases h.remembered id member with live | tombstone
    · simp [absent] at live
    · simp [unrevoked] at tombstone

variable (validator : Time → String → Except Error Token)

theorem accounted_step (s : State) (op : Op) (h : Accounted s) :
    Accounted (step validator s op) := by
  cases op with
  | authorize asked now raw clientPubkey assignedIP endpoint =>
    rcases authorize_cases (validator asked raw) now s.manager clientPubkey assignedIP endpoint with
      ⟨e, refused⟩ | ⟨tok, _, _, unrevoked, _, opened⟩
    · rw [step, refused]
      exact h
    · rw [step, opened]
      exact h.enter unrevoked
  | revoke now id => exact h.revoke now id
  | sweep now order => exact h.sweep now order

/-- A step keeps the tokens single-use exactly when it meets no lapsed session. -/
theorem singleUse_step_iff (s : State) (op : Op) (h : Accounted s) (before : SingleUse s) :
    SingleUse (step validator s op) ↔ MeetsNoLapsed validator s op := by
  cases op with
  | revoke now id => exact iff_of_true before trivial
  | sweep now order => exact iff_of_true before trivial
  | authorize asked now raw clientPubkey assignedIP endpoint =>
    rcases authorize_cases (validator asked raw) now s.manager clientPubkey assignedIP endpoint with
      ⟨e, refused⟩ | ⟨tok, accepted, unexpired, unrevoked, lapsed, opened⟩
    · refine iff_of_true (by rw [step, refused]; exact before) ?_
      intro tok accepted unexpired existing found
      have unrevoked := h.apart tok.id (by simp [found])
      obtain ⟨live, found', unlapsed⟩ := live_of_refused refused accepted unexpired unrevoked
      rw [Option.some.inj (found.symm.trans found'), unlapsed]
    · have added : SingleUse (step validator s
          (.authorize asked now raw clientPubkey assignedIP endpoint)) ↔ tok.id ∉ s.authorised := by
        rw [step, opened]
        exact List.nodup_cons.trans (and_iff_left before)
      rw [added, h.fresh_iff unrevoked, absent_iff_unlapsed lapsed]
      constructor
      · intro unlapsed tok' same _
        obtain rfl := Except.ok.inj (accepted.symm.trans same)
        exact unlapsed
      · intro meets
        exact meets tok accepted unexpired

end steps

/-- Under every validator and in every run: each token ID is authorised at most once, in every
state, exactly when no call that presents an accepted, unexpired token meets a lapsed session of
it which was not swept. -/
theorem single_use_iff (validator : Time → String → Except Error Token) (maxDuration : Duration)
    (ops : List Op) :
    Run.Throughout (step validator) SingleUse (start maxDuration) ops ↔
      Run.Along (step validator) (MeetsNoLapsed validator) (start maxDuration) ops :=
  Run.throughout_iff_along (accounted_start maxDuration) List.nodup_nil
    (fun s op _ => accounted_step validator s op) (fun s op _ => singleUse_step_iff validator s op)
    (Run.along_of_forall fun _ _ => trivial)

section uncapped
variable (validator : Time → String → Except Error Token)

/-- The tokens that the validator accepts under one ID have one expiry. -/
def OneExpiry : Prop :=
  ∀ asked asked' raw raw' tok tok', validator asked raw = .ok tok →
    validator asked' raw' = .ok tok' → tok.id = tok'.id → tok.expiresAt = tok'.expiresAt

/-- Sessions are not capped: each lapses with the token that opened it. -/
structure Uncapped (s : State) : Prop where
  uncapped : s.manager.maxSessionDuration ≤ 0
  own : ∀ id session, s.manager.byToken.lookup id = some session → session.revoked = false ∧
    ∃ asked raw tok, validator asked raw = .ok tok ∧ tok.id = id ∧ session.expiresAt = tok.expiresAt

variable {validator}

theorem Uncapped.step {s : State} (h : Uncapped validator s) (op : Op) :
    Uncapped validator (step validator s op) := by
  cases op with
  | authorize asked now raw clientPubkey assignedIP endpoint =>
    rcases authorize_cases (validator asked raw) now s.manager clientPubkey assignedIP endpoint with
      ⟨e, refused⟩ | ⟨tok, accepted, _, _, _, opened⟩
    · rw [TokenReuse.step, refused]
      exact ⟨h.uncapped, h.own⟩
    · rw [TokenReuse.step, opened]
      refine ⟨h.uncapped, fun id session found => ?_⟩
      rw [enter_byToken] at found
      split at found
      · next same =>
        have cap : ¬ s.manager.maxSessionDuration > 0 := Int.not_lt.mpr h.uncapped
        obtain rfl := Option.some.inj found
        exact ⟨rfl, asked, raw, tok, accepted, same.symm, by simp [openSession, sessionExpiry, cap]⟩
      · exact h.own id session found
  | revoke now tokenID =>
    have uncapped : (revoke now s.manager tokenID).2.maxSessionDuration ≤ 0 := by
      unfold Source.Sessions.revoke
      split <;> exact h.uncapped
    refine ⟨uncapped, fun id session found => ?_⟩
    simp only [TokenReuse.step, revoke_byToken] at found
    split at found
    · cases found
    · exact h.own id session found
  | sweep now order =>
    refine ⟨h.uncapped, fun id session found => ?_⟩
    exact h.own id session (of_sweepOnce found).1

theorem Uncapped.meetsNoLapsed {s : State} (h : Uncapped validator s)
    (oneExpiry : OneExpiry validator) (op : Op) : MeetsNoLapsed validator s op := by
  cases op with
  | revoke now tokenID => trivial
  | sweep now order => trivial
  | authorize asked now raw clientPubkey assignedIP endpoint =>
    intro tok accepted unexpired existing found
    obtain ⟨unrevoked, asked', raw', tok', accepted', sameID, expiry⟩ := h.own tok.id existing found
    have same := oneExpiry asked asked' raw raw' tok tok' accepted accepted' sameID.symm
    simp only [Token.expired, same] at unexpired
    simp only [Session.expired, unrevoked, expiry, Bool.false_eq_true, ↓reduceIte]
    split
    · rfl
    · next bounded => simpa [bounded] using unexpired

/-- Without a cap on sessions, tokens are single-use in every run. -/
theorem singleUse_of_uncapped {maxDuration : Duration} (uncapped : maxDuration ≤ 0)
    (oneExpiry : OneExpiry validator) (ops : List Op) :
    Run.Throughout (step validator) SingleUse (start maxDuration) ops := by
  have kept : Run.Throughout (step validator)
      (fun s => Accounted s ∧ Uncapped validator s ∧ SingleUse s) (start maxDuration) ops := by
    refine Run.throughout_of_step ?_ ?_
    · exact ⟨accounted_start maxDuration, ⟨uncapped, by simp [start, newManager]⟩, List.nodup_nil⟩
    · intro s op ⟨accounted, noCap, single⟩
      have meets := noCap.meetsNoLapsed oneExpiry op
      exact ⟨accounted_step validator s op accounted, noCap.step op,
        (singleUse_step_iff validator s op accounted single).mpr meets⟩
  exact kept.mono fun _ h => h.2.2

end uncapped

section sample

/-- The validator accepts a token, and goes on accepting it until it expires. -/
def KeepsAccepting (validator : Time → String → Except Error Token) : Prop :=
  ∀ asked raw tok, validator asked raw = .ok tok → ∀ later ≥ asked, tok.expired later = false →
    validator later raw = .ok tok

/-- One token, good for an hour. -/
def hourToken : Token := ⟨"t", "n", "s", Duration.hour, scopeExit, "t.secret"⟩

def hourValidator (asked : Time) (_ : String) : Except Error Token :=
  if hourToken.expired asked then .error .expired else .ok hourToken

theorem hourValidator_keepsAccepting : KeepsAccepting hourValidator := by
  intro asked raw tok accepted later _ unexpired
  unfold hourValidator at accepted ⊢
  split at accepted
  · cases accepted
  · obtain rfl := Except.ok.inj accepted
    simp [unexpired]

/-- The token is presented again after its session of one minute has lapsed, and
before a sweep. -/
def reuse : List Op :=
  [ .authorize 0 0 "t.secret" "key" "100.64.0.2" "",
    .authorize (2 * Duration.minute) (2 * Duration.minute) "t.secret" "key" "100.64.0.3" "" ]

/-- With sessions capped at a minute, the hour's token opens two sessions. -/
theorem reuse_authorises_twice :
    KeepsAccepting hourValidator ∧ (reuse.map Op.now).Pairwise (· ≤ ·) ∧
    (Run.run (step hourValidator) (start Duration.minute) reuse).authorised = ["t", "t"] ∧
    ¬ SingleUse (Run.run (step hourValidator) (start Duration.minute) reuse) :=
  ⟨hourValidator_keepsAccepting, by decide, by decide, by decide⟩

/-- Without the cap the second call is refused. -/
theorem uncapped_reuse_refused :
    OneExpiry hourValidator ∧ Run.Throughout (step hourValidator) SingleUse (start 0) reuse := by
  have oneExpiry : OneExpiry hourValidator := by
    intro asked asked' raw raw' tok tok' accepted accepted' _
    unfold hourValidator at accepted accepted'
    split at accepted <;> split at accepted' <;> simp_all
  exact ⟨oneExpiry, singleUse_of_uncapped le_rfl oneExpiry reuse⟩

end sample

end VeilNet.Guarantees.TokenReuse
