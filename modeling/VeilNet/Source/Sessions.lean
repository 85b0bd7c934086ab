import VeilNet.Lib.GoMap
import VeilNet.Lib.GoTime

/-!
The session manager of `internal/session/session.go`. The validator's answer and
the clock reading of a call are arguments. Sessions are shared by pointer in the
source; `ref` is the identity that its pointer comparison sees. Byte counters, totals and emitted
events are left out.
-/
namespace VeilNet.Source.Sessions
open Lib

def scopeExit : String := "exit"

/-- The sentinel errors, the refusal of an active token, and a validator's own error. -/
inductive Error where
  | invalid | expired | revoked | unknown | alreadyActive
  | validator (text : String)
  deriving DecidableEq

structure Token where
  id : String
  nodeID : String
  sessionID : String
  expiresAt : Time
  scope : String
  raw : String

structure Session where
  ref : ℕ
  tokenID : String
  nodeID : String
  sessionID : String
  clientPubkey : String
  assignedIP : String
  endpoint : String
  scope : String
  createdAt : Time
  expiresAt : Time
  revoked : Bool
  deriving DecidableEq

/-- A session without expiry lapses only by revocation. -/
def Session.expired (s : Session) (now : Time) : Bool :=
  if s.revoked then true else if s.expiresAt = 0 then false else !decide (now < s.expiresAt)

/-- `allocated` counts the session objects made so far. -/
structure Manager where
  maxSessionDuration : Duration
  byToken : GoMap String Session
  byIP : GoMap String ℕ
  revoked : GoMap String Time
  authorizedTotal : UInt64
  expiredTotal : UInt64
  allocated : ℕ

def newManager (maxSessionDuration : Duration) : Manager :=
  { maxSessionDuration, byToken := ∅, byIP := ∅, revoked := ∅, authorizedTotal := 0,
    expiredTotal := 0, allocated := 0 }

/-- The token has an expiry and it has come. -/
def Token.expired (tok : Token) (now : Time) : Bool :=
  tok.expiresAt ≠ 0 && !decide (now < tok.expiresAt)

/-- The session's expiry: the token's own, or the cap when that comes earlier. -/
def sessionExpiry (maxDuration : Duration) (now : Time) (tok : Token) : Time :=
  if maxDuration > 0 ∧ (tok.expiresAt = 0 ∨ now + maxDuration < tok.expiresAt) then
    now + maxDuration
  else tok.expiresAt

/-- The session that `Authorize` opens for a token. -/
def openSession (m : Manager) (now : Time) (tok : Token)
    (clientPubkey assignedIP endpoint : String) : Session :=
  { ref := m.allocated, tokenID := tok.id, nodeID := tok.nodeID, sessionID := tok.sessionID,
    clientPubkey, assignedIP, endpoint, scope := tok.scope, createdAt := now,
    expiresAt := sessionExpiry m.maxSessionDuration now tok, revoked := false }

/-- Enter a session in both maps; an entry of the same token is overwritten. -/
def Manager.enter (m : Manager) (s : Session) : Manager :=
  { m with
    byToken := m.byToken.insert s.tokenID s
    byIP := if s.assignedIP ≠ "" then m.byIP.insert s.assignedIP s.ref else m.byIP
    authorizedTotal := m.authorizedTotal + 1
    allocated := m.allocated + 1 }

def authorize (answer : Except Error Token) (now : Time) (m : Manager)
    (clientPubkey assignedIP endpoint : String) : Except Error Session × Manager :=
  match answer with
  | .error e => (.error e, m)
  | .ok tok =>
    if tok.expired now then (.error .expired, m)
    else if (m.revoked.lookup tok.id).isSome then (.error .revoked, m)
    else if (m.byToken.lookup tok.id).any fun existing => !existing.expired now then
      (.error .alreadyActive, m)
    else
      let s := openSession m now tok clientPubkey assignedIP endpoint
      (.ok s, m.enter s)

/-- Drop the address entry, when it still points to this session. -/
def dropIP (byIP : GoMap String ℕ) (s : Session) : GoMap String ℕ :=
  if s.assignedIP ≠ "" ∧ byIP.lookup s.assignedIP = some s.ref then byIP.erase s.assignedIP
    else byIP

def revoke (now : Time) (m : Manager) (tokenID : String) : Option Error × Manager :=
  match m.byToken.lookup tokenID with
  | none => (some .unknown, m)
  | some s =>
    (none,
      { m with
        byToken := m.byToken.erase tokenID
        byIP := dropIP m.byIP s
        revoked := m.revoked.insert tokenID now })

def get (m : Manager) (tokenID : String) : Except Error Session :=
  match m.byToken.lookup tokenID with
  | none => .error .unknown
  | some s => .ok s

def activeCount (m : Manager) (now : Time) : ℕ :=
  ((GoMap.values m.byToken).filter fun s => !s.expired now).length

/-- The entries that a sweep at `now` selects. -/
def lapsed (now : Time) (_ : String) (s : Session) : Bool := s.expired now

/-- The evicted sessions in the order visited, and the manager without them. -/
def sweepOnce (order : RangeOrder) (now : Time) (m : Manager) : List Session × Manager :=
  let (gone, left) := GoMap.removeWhere order (lapsed now) m.byToken
  (gone.map (·.2),
    { m with
      byToken := left
      byIP := gone.foldl (fun byIP e => dropIP byIP e.2) m.byIP
      revoked := gone.foldl (fun revoked e => revoked.insert e.1 now) m.revoked
      expiredTotal := m.expiredTotal + UInt64.ofNat gone.length })

section effects
variable {answer : Except Error Token} {now : Time} {m : Manager}
  {clientPubkey assignedIP endpoint : String}

/-- `Authorize` changes nothing, or it opens a session for an unexpired, unrevoked
token that has no session, or one that has lapsed. -/
theorem authorize_cases (answer : Except Error Token) (now : Time) (m : Manager)
    (clientPubkey assignedIP endpoint : String) :
    (∃ e, authorize answer now m clientPubkey assignedIP endpoint = (.error e, m)) ∨
    ∃ tok, answer = .ok tok ∧ tok.expired now = false ∧ m.revoked.lookup tok.id = none ∧
      (∀ existing, m.byToken.lookup tok.id = some existing → existing.expired now = true) ∧
      authorize answer now m clientPubkey assignedIP endpoint =
        (.ok (openSession m now tok clientPubkey assignedIP endpoint),
          m.enter (openSession m now tok clientPubkey assignedIP endpoint)) := by
  unfold authorize
  split
  · exact .inl ⟨_, rfl⟩
  · next tok =>
    split
    · exact .inl ⟨_, rfl⟩
    · next unexpired =>
      split
      · exact .inl ⟨_, rfl⟩
      · next unrevoked =>
        split
        · exact .inl ⟨_, rfl⟩
        · next inactive =>
          refine .inr ⟨tok, rfl, by simpa using unexpired, by simpa using unrevoked, ?_, rfl⟩
          intro existing found
          rw [found] at inactive
          simpa using inactive

/-- An accepted token that is neither expired nor revoked, and not in use, opens a session. -/
theorem authorize_of_inactive {tok : Token} (accepted : answer = .ok tok)
    (unexpired : tok.expired now = false) (unrevoked : m.revoked.lookup tok.id = none)
    (inactive : ∀ existing, m.byToken.lookup tok.id = some existing → existing.expired now = true) :
    authorize answer now m clientPubkey assignedIP endpoint =
      (.ok (openSession m now tok clientPubkey assignedIP endpoint),
        m.enter (openSession m now tok clientPubkey assignedIP endpoint)) := by
  have noneActive : ((m.byToken.lookup tok.id).any fun existing => !existing.expired now) =
      false := by
    cases found : m.byToken.lookup tok.id with
    | none => rfl
    | some existing => simp [inactive existing found]
  simp [authorize, accepted, unexpired, unrevoked, noneActive]

/-- A refused call whose token is accepted, unexpired and unconsumed has met a live session. -/
theorem live_of_refused {tok : Token} {e : Error}
    (refused : authorize answer now m clientPubkey assignedIP endpoint = (.error e, m))
    (accepted : answer = .ok tok) (unexpired : tok.expired now = false)
    (unrevoked : m.revoked.lookup tok.id = none) :
    ∃ existing, m.byToken.lookup tok.id = some existing ∧ existing.expired now = false := by
  by_contra noneLive
  have inactive : ∀ existing, m.byToken.lookup tok.id = some existing →
      existing.expired now = true := by
    intro existing found
    by_contra live
    exact noneLive ⟨existing, found, by simpa using live⟩
  rw [authorize_of_inactive accepted unexpired unrevoked inactive] at refused
  cases refused

/-- When only a lapsed session can be there, meeting none means that there is none. -/
theorem absent_iff_unlapsed {id : String}
    (lapsed : ∀ existing, m.byToken.lookup id = some existing → existing.expired now = true) :
    m.byToken.lookup id = none ↔
      ∀ existing, m.byToken.lookup id = some existing → existing.expired now = false := by
  constructor
  · intro absent existing found
    rw [absent] at found
    cases found
  · intro unlapsed
    by_contra present
    obtain ⟨existing, found⟩ := Option.ne_none_iff_exists'.mp present
    have live := unlapsed existing found
    rw [lapsed existing found] at live
    cases live

theorem enter_byToken (m : Manager) (s : Session) (id : String) :
    (m.enter s).byToken.lookup id = if id = s.tokenID then some s else m.byToken.lookup id := by
  by_cases same : id = s.tokenID
  · rw [if_pos same, same]
    exact AList.lookup_insert _
  · rw [if_neg same]
    exact AList.lookup_insert_ne same

theorem revoke_byToken (now : Time) (m : Manager) (tokenID id : String) :
    (revoke now m tokenID).2.byToken.lookup id =
      if id = tokenID then none else m.byToken.lookup id := by
  unfold revoke
  split
  · next absent =>
    split
    · next same => rw [same, absent]
    · rfl
  · split
    · next same => rw [same, AList.lookup_erase]
    · next other => rw [AList.lookup_erase_ne other]

theorem revoke_revoked (now : Time) (m : Manager) (tokenID id : String) :
    ((revoke now m tokenID).2.revoked.lookup id).isSome ↔
      (m.revoked.lookup id).isSome ∨ id = tokenID ∧ (m.byToken.lookup id).isSome := by
  unfold revoke
  split
  · next absent =>
    constructor
    · exact .inl
    · rintro (old | ⟨rfl, present⟩)
      · exact old
      · rw [absent] at present
        cases present
  · next s found =>
    by_cases same : id = tokenID
    · subst same
      simp [found]
    · simp [AList.lookup_insert_ne same, same]

theorem mem_sweepOnce {order : RangeOrder} {s : Session} :
    s ∈ (sweepOnce order now m).1 ↔ ∃ id, m.byToken.lookup id = some s ∧ s.expired now = true := by
  simp only [sweepOnce, List.mem_map, Sigma.exists, GoMap.mem_removeWhere, lapsed]
  constructor
  · rintro ⟨id, _, selected, rfl⟩
    exact ⟨id, selected⟩
  · rintro ⟨id, selected⟩
    exact ⟨id, s, selected, rfl⟩

/-- A sweep keeps exactly the sessions that have not expired. -/
theorem sweepOnce_byToken (order : RangeOrder) (now : Time) (m : Manager) (id : String) :
    (sweepOnce order now m).2.byToken.lookup id =
      (m.byToken.lookup id).filter fun s => !s.expired now :=
  GoMap.lookup_removeWhere order (lapsed now) m.byToken id

section swept
variable {order : RangeOrder} {now : Time} {m : Manager} {id : String}

theorem sweepOnce_lapsed (lapsed : ∃ s, m.byToken.lookup id = some s ∧ s.expired now = true) :
    (sweepOnce order now m).2.byToken.lookup id = none := by
  obtain ⟨s, found, expired⟩ := lapsed
  simp [sweepOnce_byToken, found, Option.filter, expired]

theorem sweepOnce_live (live : ¬ ∃ s, m.byToken.lookup id = some s ∧ s.expired now = true) :
    (sweepOnce order now m).2.byToken.lookup id = m.byToken.lookup id := by
  rw [sweepOnce_byToken]
  cases found : m.byToken.lookup id with
  | none => rfl
  | some s =>
    have unexpired : s.expired now = false :=
      Bool.eq_false_of_not_eq_true fun expired => live ⟨s, found, expired⟩
    simp [Option.filter, unexpired]

theorem of_sweepOnce {s : Session} (left : (sweepOnce order now m).2.byToken.lookup id = some s) :
    m.byToken.lookup id = some s ∧ s.expired now = false := by
  rw [sweepOnce_byToken, Option.filter_eq_some_iff] at left
  exact ⟨left.1, by simpa using left.2⟩

end swept

theorem sweepOnce_revoked (order : RangeOrder) (now : Time) (m : Manager) (id : String) :
    ((sweepOnce order now m).2.revoked.lookup id).isSome ↔
      (m.revoked.lookup id).isSome ∨
        ∃ s, m.byToken.lookup id = some s ∧ s.expired now = true := by
  have tombstones := GoMap.lookup_foldl_insert (fun e : Σ _ : String, Session => e.1)
    (GoMap.removeWhere order (lapsed now) m.byToken).1 m.revoked now id
  have gone : id ∈ (GoMap.removeWhere order (lapsed now) m.byToken).1.map (·.1) ↔
      ∃ s, m.byToken.lookup id = some s ∧ s.expired now = true := by
    simp [GoMap.mem_removeWhere, lapsed]
  rw [sweepOnce]
  dsimp only
  rw [tombstones]
  split
  · next member => simp [gone.mp member]
  · next absent => simp [mt gone.mpr absent]

theorem Session.expired_mono {s : Session} {now later : Time} (forward : now ≤ later)
    (expired : s.expired now = true) : s.expired later = true := by
  unfold Session.expired at expired ⊢
  split
  · rfl
  · next live =>
    rw [if_neg live] at expired
    split
    · next unlimited =>
      rw [if_pos unlimited] at expired
      cases expired
    · next limited =>
      rw [if_neg limited] at expired
      have due : s.expiresAt ≤ now := by simpa using expired
      simpa using due.trans forward

theorem activeCount_eq_countP (m : Manager) (now : Time) :
    activeCount m now = m.byToken.entries.countP fun e => !e.2.expired now := by
  rw [activeCount, ← List.countP_eq_length_filter, GoMap.values, List.countP_map]
  rfl

theorem activeCount_anti (m : Manager) {now later : Time} (forward : now ≤ later) :
    activeCount m later ≤ activeCount m now := by
  rw [activeCount_eq_countP, activeCount_eq_countP]
  refine List.countP_mono_left fun e _ live => ?_
  rw [Bool.not_eq_true'] at live ⊢
  by_contra expired
  rw [Session.expired_mono forward (by simpa using expired)] at live
  cases live

/-- A new session counts for one at most: it may take the place of another. -/
theorem activeCount_enter_le (m : Manager) (s : Session) (now : Time) :
    activeCount (m.enter s) now ≤ activeCount m now + 1 := by
  rw [activeCount_eq_countP, activeCount_eq_countP, Manager.enter, AList.entries_insert]
  have fewer : (m.byToken.entries.kerase s.tokenID).countP (fun e => !e.2.expired now) ≤
      m.byToken.entries.countP fun e => !e.2.expired now :=
    (List.kerase_sublist s.tokenID m.byToken.entries).countP_le
  rw [List.countP_cons]
  split <;> omega

theorem activeCount_le_of_sublist {m m' : Manager} (now : Time)
    (fewer : m'.byToken.entries.Sublist m.byToken.entries) :
    activeCount m' now ≤ activeCount m now := by
  rw [activeCount_eq_countP, activeCount_eq_countP]
  exact fewer.countP_le

theorem revoke_sublist (now : Time) (m : Manager) (tokenID : String) :
    (revoke now m tokenID).2.byToken.entries.Sublist m.byToken.entries := by
  unfold revoke
  split
  · exact List.Sublist.refl _
  · exact List.kerase_sublist _ _

theorem sweepOnce_sublist (order : RangeOrder) (now : Time) (m : Manager) :
    (sweepOnce order now m).2.byToken.entries.Sublist m.byToken.entries :=
  GoMap.removeWhere_sublist order (lapsed now) m.byToken

end effects

end VeilNet.Source.Sessions
