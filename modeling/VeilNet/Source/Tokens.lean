import VeilNet.Lib.GoText
import VeilNet.Source.Sessions

/-!
The token issuer of `internal/tokens/tokens.go`, and the adapter of `session.go` through which a
node asks it. The clock and the bytes of `crypto/rand` are arguments; SHA-256 is a parameter, and
the constant-time comparison of two digests is their equality.
-/
namespace VeilNet.Source.Tokens
open Lib

def scopeExit : String := "exit"

def scopeRelay : String := "relay"

def defaultTTL : Duration := 4 * Duration.hour

def expiredGrace : Duration := 24 * Duration.hour

/-- The package's sentinel errors, and a failing random source. -/
inductive Error where
  | invalid | expired | revoked | unknown | random
  deriving DecidableEq

structure Token where
  id : String
  nodeID : String
  sessionID : String
  expiresAt : Time
  scope : String
  secret : String
  raw : String
  deriving DecidableEq

structure Record where
  nodeID : String
  sessionID : String
  expiresAt : Time
  scope : String
  secret : String

structure Issuer where
  tokens : GoMap String Record
  revoked : GoMap String Bool

def newIssuer : Issuer := ⟨∅, ∅⟩

/-- The bytes drawn by one `Mint`; none when `rand.Read` fails. -/
structure Draw where
  id : Option (Vector UInt8 16)
  secret : Option (Vector UInt8 32)

/-- `in.revoked[id]`: a missing entry reads as false. -/
def Issuer.isMarkedRevoked (iss : Issuer) (id : String) : Bool :=
  (iss.revoked.lookup id).getD false

/-- `ttl <= 0` falls back to `DefaultTTL`. -/
def effectiveTTL (ttl : Duration) : Duration := if ttl ≤ 0 then defaultTTL else ttl

/-- Scope `""` falls back to `ScopeExit`. -/
def effectiveScope (scope : String) : String := if scope = "" then scopeExit else scope

def mint (now : Time) (draw : Draw) (iss : Issuer) (nodeID sessionID : String) (ttl : Duration)
    (scope : String) : Except Error Token × Issuer :=
  if GoText.blank nodeID || GoText.blank sessionID then (.error .invalid, iss)
  else
    let scope := effectiveScope scope
    if scope ≠ scopeExit ∧ scope ≠ scopeRelay then (.error .invalid, iss)
    else
      match draw.id, draw.secret with
      | some idBytes, some secretBytes =>
        let id := GoText.hexEncode idBytes.toList
        let secret := GoText.base64urlEncode secretBytes.toList
        let expiresAt := now + effectiveTTL ttl
        (.ok { id, nodeID, sessionID, expiresAt, scope, secret, raw := id ++ "." ++ secret },
          { iss with
            tokens := iss.tokens.insert id { nodeID, sessionID, expiresAt, scope, secret } })
      | _, _ => (.error .random, iss)

/-- Revocation is looked at before the secret, the secret before the expiry. -/
def validate (sha256 : String → List UInt8) (now : Time) (iss : Issuer) (raw : String) :
    Except Error Token :=
  match GoText.cut raw '.' with
  | none => .error .invalid
  | some (id, secret) =>
    if id = "" ∨ secret = "" then .error .invalid
    else
      match iss.tokens.lookup id with
      | none => .error .invalid
      | some record =>
        if iss.isMarkedRevoked id then .error .revoked
        else if sha256 secret ≠ sha256 record.secret then .error .invalid
        else if ¬ now < record.expiresAt then .error .expired
        else .ok
          { id, nodeID := record.nodeID, sessionID := record.sessionID,
            expiresAt := record.expiresAt, scope := record.scope, secret := "", raw }

def revoke (iss : Issuer) (id : String) : Option Error × Issuer :=
  match iss.tokens.lookup id with
  | none => (some .unknown, iss)
  | some _ => (none, { iss with revoked := iss.revoked.insert id true })

/-- A record that `Sweep` collects. -/
def Issuer.collectable (iss : Issuer) (now : Time) (id : String) (record : Record) : Bool :=
  now - record.expiresAt > expiredGrace && !iss.isMarkedRevoked id

/-- The number of collected records, and the issuer without them. -/
def sweep (now : Time) (order : RangeOrder) (iss : Issuer) : ℕ × Issuer :=
  let (gone, left) := GoMap.removeWhere order (iss.collectable now) iss.tokens
  (gone.length, { iss with tokens := left })

/-- What the issuer keeps of a minted token. -/
def Token.record (t : Token) : Record :=
  { nodeID := t.nodeID, sessionID := t.sessionID, expiresAt := t.expiresAt, scope := t.scope,
    secret := t.secret }

/-- The shape of a minted token: the bearer string splits back into the ID and
the secret. This follows from the two encodings, whatever bytes were drawn. -/
structure Token.WellFormed (t : Token) : Prop where
  raw : t.raw = t.id ++ "." ++ t.secret
  idFree : '.' ∉ t.id.toList
  idNonempty : t.id ≠ ""
  secretNonempty : t.secret ≠ ""

theorem Token.WellFormed.cut {t : Token} (h : t.WellFormed) :
    GoText.cut t.raw '.' = some (t.id, t.secret) :=
  GoText.cut_iff.mpr ⟨h.raw, h.idFree⟩

section mint
variable {now : Time} {draw : Draw} {iss next : Issuer} {nodeID sessionID scope : String}
  {ttl : Duration}

/-- A failed mint changes nothing. -/
theorem mint_error {e : Error}
    (h : mint now draw iss nodeID sessionID ttl scope = (.error e, next)) : next = iss := by
  unfold mint at h
  split at h
  · exact (Prod.mk.inj h).2.symm
  · dsimp only at h
    split at h
    · exact (Prod.mk.inj h).2.symm
    · split at h
      · exact absurd (Prod.mk.inj h).1 (by simp)
      · exact (Prod.mk.inj h).2.symm

/-- A successful mint stores the record of the returned token under its ID. -/
theorem mint_ok {t : Token} (h : mint now draw iss nodeID sessionID ttl scope = (.ok t, next)) :
    next = { iss with tokens := iss.tokens.insert t.id t.record } ∧ t.WellFormed ∧
      ∃ bytes, draw.id = some bytes ∧ t.id = GoText.hexEncode bytes.toList := by
  unfold mint at h
  split at h
  · exact absurd (Prod.mk.inj h).1 (by simp)
  · dsimp only at h
    split at h
    · exact absurd (Prod.mk.inj h).1 (by simp)
    · split at h
      · next idBytes secretBytes drawnID drawnSecret =>
        obtain ⟨token, issuer⟩ := Prod.mk.inj h
        obtain rfl := Except.ok.inj token
        refine ⟨issuer.symm, ⟨rfl, GoText.dot_notMem_hexEncode _, ?_, ?_⟩, idBytes, drawnID, rfl⟩
        · exact GoText.hexEncode_ne_empty (List.ne_nil_of_length_pos (by simp))
        · exact GoText.base64urlEncode_ne_empty (List.ne_nil_of_length_pos (by simp))
      · exact absurd (Prod.mk.inj h).1 (by simp)

/-- `Mint` refuses blank names, an unknown scope and a failing random source, and
nothing else. -/
theorem mint_ok_iff :
    (∃ t next, mint now draw iss nodeID sessionID ttl scope = (.ok t, next)) ↔
      GoText.blank nodeID = false ∧ GoText.blank sessionID = false ∧
      (effectiveScope scope = scopeExit ∨ effectiveScope scope = scopeRelay) ∧
      draw.id.isSome = true ∧ draw.secret.isSome = true := by
  unfold mint
  by_cases named : (GoText.blank nodeID || GoText.blank sessionID) = true
  · rw [if_pos named]
    rw [Bool.or_eq_true] at named
    grind
  · rw [if_neg named]
    rw [Bool.or_eq_true, not_or] at named
    dsimp only
    by_cases unknown : effectiveScope scope ≠ scopeExit ∧ effectiveScope scope ≠ scopeRelay
    · rw [if_pos unknown]
      grind
    · rw [if_neg unknown]
      cases drawnID : draw.id <;> cases drawnSecret : draw.secret <;> grind

end mint

/-- What `Validate` answers for a string that splits, by the record under the ID. -/
theorem validate_of_cut (sha256 : String → List UInt8) (now : Time) (iss : Issuer)
    {raw id secret : String} (split : GoText.cut raw '.' = some (id, secret)) (idNonempty : id ≠ "")
    (secretNonempty : secret ≠ "") :
    validate sha256 now iss raw =
      match iss.tokens.lookup id with
      | none => .error .invalid
      | some record =>
        if iss.isMarkedRevoked id then .error .revoked
        else if sha256 secret ≠ sha256 record.secret then .error .invalid
        else if ¬ now < record.expiresAt then .error .expired
        else .ok
          { id, nodeID := record.nodeID, sessionID := record.sessionID,
            expiresAt := record.expiresAt, scope := record.scope, secret := "", raw } := by
  simp [validate, split, idNonempty, secretNonempty]

variable {sha256 : String → List UInt8}

/-- A token is accepted only with its secret, before it expires, and if it is not revoked. -/
theorem validate_ok {now : Time} {iss : Issuer} {raw : String}
    {t : Token} (h : validate sha256 now iss raw = .ok t) :
    ∃ secret record, GoText.cut raw '.' = some (t.id, secret) ∧
      iss.tokens.lookup t.id = some record ∧ iss.isMarkedRevoked t.id = false ∧
      sha256 secret = sha256 record.secret ∧ now < record.expiresAt ∧
      t = { id := t.id, nodeID := record.nodeID, sessionID := record.sessionID,
            expiresAt := record.expiresAt, scope := record.scope, secret := "", raw } := by
  unfold validate at h
  split at h
  · cases h
  · next id secret splits =>
    split at h
    · cases h
    · split at h
      · cases h
      · next record found =>
        split at h
        · cases h
        · next notRevoked =>
          split at h
          · cases h
          · next digests =>
            split at h
            · cases h
            · next inTime =>
              obtain rfl := Except.ok.inj h
              exact ⟨secret, record, splits, found, by simpa using notRevoked,
                by simpa using digests, by simpa using inTime, rfl⟩

theorem lookup_sweep (now : Time) (order : RangeOrder) (iss : Issuer) (id : String) :
    (sweep now order iss).2.tokens.lookup id =
      (iss.tokens.lookup id).filter fun record => !iss.collectable now id record :=
  GoMap.lookup_removeWhere order (iss.collectable now) iss.tokens id

/-- The issuer's errors as the node sees them. -/
def Error.toSession : Error → Sessions.Error
  | .expired => .expired
  | .revoked => .revoked
  | .invalid | .unknown | .random => .invalid

def Token.toSession (t : Token) : Sessions.Token :=
  { id := t.id, nodeID := t.nodeID, sessionID := t.sessionID, expiresAt := t.expiresAt,
    scope := t.scope, raw := t.raw }

/-- No issuer: every string is refused. -/
structure SessionValidator where
  issuer : Option Issuer

def SessionValidator.validate (sha256 : String → List UInt8) (now : Time) (v : SessionValidator)
    (raw : String) : Except Sessions.Error Sessions.Token :=
  match v.issuer with
  | none => .error .invalid
  | some iss =>
    match Tokens.validate sha256 now iss raw with
    | .error e => .error e.toSession
    | .ok t => .ok t.toSession

theorem SessionValidator.validate_ok {now : Time}
    {v : SessionValidator} {raw : String} {tok : Sessions.Token}
    (accepted : v.validate sha256 now raw = .ok tok) :
    ∃ iss t, v.issuer = some iss ∧ Tokens.validate sha256 now iss raw = .ok t ∧
      tok = t.toSession := by
  unfold SessionValidator.validate at accepted
  split at accepted
  · cases accepted
  · next iss shared =>
    split at accepted
    · cases accepted
    · next t answer => exact ⟨iss, t, shared, answer, (Except.ok.inj accepted).symm⟩

end VeilNet.Source.Tokens
