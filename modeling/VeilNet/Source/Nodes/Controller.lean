import VeilNet.Source.Nodes.Ipam
import VeilNet.Source.Sessions

/-!
The node controller of `internal/nodes/controller.go`. What a call learns from outside (the abuse
guard, the key parser, the validator, the device, the clock) is in its `Call`; what it does to the
device and the store is returned as a list of effects. Counters and published events are left
out.
-/
namespace VeilNet.Source.Nodes
open Lib Source.Sessions

inductive NodeType where
  | exit | relay
  deriving DecidableEq

/-- The policy fields; `cgnatIP` and `cgnatMask` are the IPv4 range of `CGNAT`. -/
structure Config where
  nodeType : NodeType
  maxClients : ℤ
  acceptNew : Bool
  emergencyDisable : Bool
  maxSessionMinutes : Int64
  cgnatIP : UInt32
  cgnatMask : UInt32

structure ClientRow where
  tokenID : String
  nodeID : String
  sessionID : String
  clientKey : String
  assignedIP : String
  endpoint : String
  scope : String
  expiresAt : Time
  createdAt : Time

inductive Error where
  | rangeTooSmall | disabled | notAccepting | capacity | relayScope | poolExhausted
  | precheck (text : String)
  | badPubkey (text : String)
  | session (e : Sessions.Error)
  | installPeer (text : String)
  deriving DecidableEq

/-- Successful calls of the device and the store. -/
inductive Effect where
  | addPeer (publicKey allowedIP endpoint : String) (keepalive : ℕ)
  | removePeer (publicKey : String)
  | upsertClient (row : ClientRow)
  | bumpSessionsToday (now : Time)
  | revokeClient (tokenID : String)

/-- `fakeWG` says that the peer manager is the fake one, `db` that a store is open. -/
structure Controller where
  cfg : Config
  fakeWG : Bool
  db : Bool
  ip : IPAM
  ses : Manager

/-- What one `Authorize` call learns from outside. -/
structure Call where
  precheck : Except String Unit
  countedAt : Time
  keyParse : Except String Unit
  validated : Except Sessions.Error Token
  now : Time
  addPeer : Except String Unit
  revokedAt : Time
  installedAt : Time

/-- `time.Duration(minutes) * time.Minute`, which wraps. -/
def Config.maxSessionDuration (cfg : Config) : Duration :=
  (cfg.maxSessionMinutes * Int64.ofInt Duration.minute).toInt

/-- The stored rows that have not expired keep their addresses. -/
def restore (text : IPText) (now : Time) (ip : IPAM) (rows : List ClientRow) : IPAM :=
  rows.foldl (fun ip row =>
    if row.expiresAt ≠ 0 ∧ ¬ now < row.expiresAt then ip else ip.reserve text row.assignedIP) ip

/-- `rows` are the active rows of the store, none when there is no store. -/
def newController (text : IPText) (cfg : Config) (fakeWG db : Bool) (now : Time)
    (rows : List ClientRow) : Except Error Controller :=
  match IPAM.newIPAM text cfg.cgnatIP cfg.cgnatMask with
  | none => .error .rangeTooSmall
  | some ip =>
    .ok { cfg, fakeWG, db, ip := restore text now ip rows,
          ses := newManager cfg.maxSessionDuration }

namespace Controller

variable (c : Controller)

/-- The checks before an address is leased. A fake manager takes any key. -/
def admission (call : Call) : Except Error Unit :=
  if c.cfg.emergencyDisable then .error .disabled
  else match call.precheck with
  | .error e => .error (.precheck e)
  | .ok () =>
    if !c.cfg.acceptNew then .error .notAccepting
    else if (activeCount c.ses call.countedAt : ℤ) ≥ c.cfg.maxClients then .error .capacity
    else match call.keyParse with
      | .error e => if c.fakeWG then .ok () else .error (.badPubkey e)
      | .ok () => .ok ()

/-- Undo a session that cannot be served. -/
def abandon (text : IPText) (now : Time) (c : Controller) (tokenID assigned : String) :
    Controller :=
  { c with ses := (Sessions.revoke now c.ses tokenID).2, ip := c.ip.release text assigned }

/-- Store calls are made only when there is a store. -/
def stored (effects : List Effect) : List Effect := if c.db then effects else []

def clientRow (s : Session) (clientPubkey assigned endpoint : String) : ClientRow :=
  { tokenID := s.tokenID, nodeID := s.nodeID, sessionID := s.sessionID, clientKey := clientPubkey,
    assignedIP := assigned, endpoint, scope := s.scope, expiresAt := s.expiresAt,
    createdAt := s.createdAt }

def authorize (text : IPText) (call : Call) (c : Controller) (clientPubkey endpoint : String) :
    Except Error Session × Controller × List Effect :=
  match c.admission call with
  | .error e => (.error e, c, [])
  | .ok () =>
    match c.ip.allocate text with
    | (none, ip) => (.error .poolExhausted, { c with ip }, [])
    | (some assigned, ip) =>
      match Sessions.authorize call.validated call.now c.ses clientPubkey assigned endpoint with
      | (.error e, ses) => (.error (.session e), { c with ip := ip.release text assigned, ses }, [])
      | (.ok s, ses) =>
        let held := { c with ip, ses }
        if c.cfg.nodeType = .relay ∧ s.scope = scopeExit then
          (.error .relayScope, held.abandon text call.revokedAt s.tokenID assigned, [])
        else match call.addPeer with
          | .error e =>
            (.error (.installPeer e), held.abandon text call.revokedAt s.tokenID assigned, [])
          | .ok () =>
            (.ok s, held, .addPeer clientPubkey assigned endpoint 25 ::
              c.stored [.upsertClient (clientRow s clientPubkey assigned endpoint),
                .bumpSessionsToday call.installedAt])

def revoke (text : IPText) (now : Time) (c : Controller) (tokenID : String) :
    Option Sessions.Error × Controller × List Effect :=
  match Sessions.get c.ses tokenID with
  | .error e => (some e, c, [])
  | .ok s =>
    match Sessions.revoke now c.ses tokenID with
    | (some e, ses) => (some e, { c with ses }, [])
    | (none, ses) =>
      (none, { c with ses, ip := c.ip.release text s.assignedIP },
        .removePeer s.clientPubkey :: c.stored [.revokeClient tokenID])

/-- The expiry callback runs once for each evicted session. -/
def onSessionExpired (s : Session) : List Effect :=
  .removePeer s.clientPubkey :: c.stored [.revokeClient s.tokenID]

def sweepOnce (text : IPText) (order : RangeOrder) (now : Time) (c : Controller) :
    ℕ × Controller × List Effect :=
  let (gone, ses) := Sessions.sweepOnce order now c.ses
  (gone.length,
    { c with ses, ip := (gone.map (·.assignedIP)).foldl (IPAM.release text) c.ip },
    gone.flatMap c.onSessionExpired)

def setEmergencyDisable (disabled : Bool) : Controller :=
  { c with cfg := { c.cfg with emergencyDisable := disabled } }

/-- The call gets as far as the session table with an accepted token: it is
admitted, an address is free, and the token is neither expired nor consumed. -/
def Reaches (text : IPText) (c : Controller) (call : Call) (tok : Token) : Prop :=
  c.admission call = .ok () ∧ (c.ip.allocate text).1.isSome ∧ call.validated = .ok tok ∧
    tok.expired call.now = false ∧ c.ses.revoked.lookup tok.id = none

/-- A session for this token can be served: its scope suits the node, and the
device takes the peer. -/
def Serves (call : Call) (tok : Token) : Prop :=
  ¬ (c.cfg.nodeType = .relay ∧ tok.scope = scopeExit) ∧ call.addPeer = .ok ()

variable {text : IPText}

/-- Abandoning a session that was just opened returns the address just leased. -/
theorem abandon_leased {c : Controller} {off : UInt32} (free : off ∉ c.ip.used) (now : Time)
    (next : UInt32) (ses : Manager) (tokenID : String) :
    abandon text now { c with ses, ip := { c.ip with next, used := insert off c.ip.used } } tokenID
        (text.format (c.ip.base + off)) =
      { c with ses := (Sessions.revoke now ses tokenID).2, ip := { c.ip with next } } := by
  unfold abandon
  dsimp only
  rw [IPAM.release_allocated free]

/-- A refused call moves at most the allocation pointer. A call that opens a session leases one
free offset. If the session can be served, the peer is installed; otherwise the session is revoked
and the offset returned. -/
theorem authorize_cases (text : IPText) (call : Call) (c : Controller)
    (clientPubkey endpoint : String) :
    (∃ e next, c.authorize text call clientPubkey endpoint =
        (.error e, { c with ip := { c.ip with next } }, []) ∧
      ∀ tok, c.Reaches text call tok →
        ∃ existing, c.ses.byToken.lookup tok.id = some existing ∧
          existing.expired call.now = false) ∨
    ∃ tok off next s, c.Reaches text call tok ∧
      (∀ existing, c.ses.byToken.lookup tok.id = some existing → existing.expired call.now = true) ∧
      off ∉ c.ip.used ∧
      s = openSession c.ses call.now tok clientPubkey (text.format (c.ip.base + off)) endpoint ∧
      (c.Serves call tok ∧ c.authorize text call clientPubkey endpoint =
          (.ok s,
            { c with ses := c.ses.enter s, ip := { c.ip with next, used := insert off c.ip.used } },
            .addPeer clientPubkey s.assignedIP endpoint 25 ::
              c.stored [.upsertClient (clientRow s clientPubkey s.assignedIP endpoint),
                .bumpSessionsToday call.installedAt]) ∨
       ¬ c.Serves call tok ∧ ∃ e, c.authorize text call clientPubkey endpoint =
          (.error e,
            { c with
              ses := (Sessions.revoke call.revokedAt (c.ses.enter s) s.tokenID).2
              ip := { c.ip with next } }, [])) := by
  unfold authorize
  cases admitted : c.admission call with
  | error e =>
    exact .inl ⟨e, c.ip.next, rfl, fun tok reaches => nomatch admitted.symm.trans reaches.1⟩
  | ok u =>
    rcases c.ip.allocate_cases text with ⟨next, exhausted⟩ | ⟨off, next, free, leased⟩
    · refine .inl ⟨.poolExhausted, next, by rw [exhausted], fun tok reaches => ?_⟩
      have available := reaches.2.1
      rw [exhausted] at available
      cases available
    · rcases Sessions.authorize_cases call.validated call.now c.ses clientPubkey
        (text.format (c.ip.base + off)) endpoint with
        ⟨e, refused⟩ | ⟨tok, accepted, unexpired, unrevoked, lapsed, opened⟩
      · refine .inl ⟨.session e, next, ?_, ?_⟩
        · simp only [leased, refused, IPAM.release_allocated free]
        · intro tok ⟨_, _, accepted, unexpired, unrevoked⟩
          exact live_of_refused refused accepted unexpired unrevoked
      · let s := openSession c.ses call.now tok clientPubkey
            (text.format (c.ip.base + off)) endpoint
        have reaches : c.Reaches text call tok :=
          ⟨admitted, by rw [leased]; rfl, accepted, unexpired, unrevoked⟩
        refine .inr ⟨tok, off, next, s, reaches, lapsed, free, rfl, ?_⟩
        simp only [leased, opened]
        -- the session is abandoned for its scope, or for the device's refusal
        split
        · next relay =>
          refine .inr ⟨fun serves => serves.1 relay, .relayScope, ?_⟩
          rw [abandon_leased free]
        · next scope =>
          cases installed : call.addPeer with
          | error e =>
            refine .inr ⟨fun serves => ?_, .installPeer e, ?_⟩
            · cases installed.symm.trans serves.2
            · rw [abandon_leased free]
          | ok u => exact .inl ⟨⟨scope, installed⟩, rfl⟩

/-- `Revoke` changes nothing, or it drops the session, its peer and its address. -/
theorem revoke_cases (text : IPText) (now : Time) (c : Controller) (tokenID : String) :
    (∃ e, c.revoke text now tokenID = (some e, c, [])) ∨
    ∃ s, c.ses.byToken.lookup tokenID = some s ∧
      c.revoke text now tokenID =
        (none,
          { c with
            ses := (Sessions.revoke now c.ses tokenID).2
            ip := c.ip.release text s.assignedIP },
          .removePeer s.clientPubkey :: c.stored [.revokeClient tokenID]) := by
  unfold revoke Sessions.get Sessions.revoke
  cases found : c.ses.byToken.lookup tokenID with
  | none => exact .inl ⟨.unknown, rfl⟩
  | some s => exact .inr ⟨s, rfl, rfl⟩

end Controller

end VeilNet.Source.Nodes
