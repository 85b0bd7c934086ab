import VeilNet.Guarantees.AddressLeases
import VeilNet.Source.Nodes.Device

/-!
# What a refused authorisation costs

`Authorize` leases an address and opens a session before it looks at the scope and asks the
device. If one of these refuses, `Revoke` undoes the session and consumes the token. So a refused
call changes nothing exactly when no session was opened.
-/
namespace VeilNet.Guarantees.RefusedAuthorize
open Lib Source.Sessions Source.Nodes Guarantees.AddressLeases

section definitions
variable {κ ν : Type} [DecidableEq κ]

/-- Sessions, tombstones, leases and peers are as before, and a call that would have
succeeded before still succeeds. -/
structure CostsNothing (text : IPText) (keyOf : String → κ) (tag : String → ν) (peers : GoMap κ ν)
    (c after : Controller) (effects : List Effect) : Prop where
  sessions : after.ses.byToken = c.ses.byToken
  tombstones : after.ses.revoked = c.ses.revoked
  leases : after.ip.used = c.ip.used
  peers : applyPeers keyOf tag effects peers = peers
  later : ∀ call clientPubkey endpoint s, (c.authorize text call clientPubkey endpoint).1 = .ok s →
    ∃ s', (after.authorize text call clientPubkey endpoint).1 = .ok s'

/-- If the call comes to open a session, then the session can be served: the scope
suits the node, and the device takes the peer. -/
def ServesIfOpened (text : IPText) (c : Controller) (call : Call) : Prop :=
  ∀ tok, c.Reaches text call tok →
    (∀ existing, c.ses.byToken.lookup tok.id = some existing → existing.expired call.now = true) →
    c.Serves call tok

end definitions

section outcome
variable {text : IPText} {c : Controller} {call : Call} {clientPubkey endpoint : String}

/-- A call succeeds exactly when it opens a session that can be served. -/
theorem authorize_ok_iff :
    (∃ s, (c.authorize text call clientPubkey endpoint).1 = .ok s) ↔
      ∃ tok, c.Reaches text call tok ∧
        (∀ existing, c.ses.byToken.lookup tok.id = some existing →
          existing.expired call.now = true) ∧ c.Serves call tok := by
  rcases c.authorize_cases text call clientPubkey endpoint with
    ⟨e, next, refused, live⟩ | ⟨tok, off, next, s, reaches, lapsed, _, _, ⟨serves, opened⟩ |
      ⟨unserved, e, abandoned⟩⟩
  · rw [refused]
    refine iff_of_false (fun ok => by cases ok.choose_spec) ?_
    intro ⟨tok, reaches, lapsed, _⟩
    obtain ⟨existing, found, unexpired⟩ := live tok reaches
    rw [lapsed existing found] at unexpired
    cases unexpired
  · rw [opened]
    exact iff_of_true ⟨s, rfl⟩ ⟨tok, reaches, lapsed, serves⟩
  · rw [abandoned]
    refine iff_of_false (fun ok => by cases ok.choose_spec) ?_
    intro ⟨tok', reaches', _, serves⟩
    obtain rfl := Except.ok.inj (reaches.2.2.1.symm.trans reaches'.2.2.1)
    exact unserved serves

/-- Where the pointer stands does not matter to whether an address is free. -/
theorem reaches_congr {next : UInt32} (before : c.ip.InRange)
    (after : IPAM.InRange { c.ip with next }) {tok : Token} :
    Controller.Reaches text { c with ip := { c.ip with next } } call tok ↔
      c.Reaches text call tok := by
  have free : ∀ {a : IPAM}, a.InRange →
      ((a.allocate text).1.isSome = true ↔ ¬ ∀ off, a.Assignable off → off ∈ a.used) := by
    intro a inRange
    rcases a.allocate_spec text inRange with ⟨_, failed, _, full⟩ |
      ⟨off, _, free, assignable, _, leased⟩
    · rw [failed]
      exact iff_of_false (fun found => by cases found) (fun room => room full)
    · rw [leased]
      exact iff_of_true rfl fun full => free (full off assignable)
  unfold Controller.Reaches
  rw [free before, free after]
  rfl

end outcome

section pool
variable {text : IPText} {c : Controller}

theorem inRange_restore (now : Time) (rows : List ClientRow) {ip : IPAM} (h : ip.InRange) :
    (restore text now ip rows).InRange := by
  unfold restore
  induction rows generalizing ip with
  | nil => exact h
  | cons row rest ih =>
    rw [List.foldl_cons]
    apply ih
    split
    · exact h
    · exact h.reserve row.assignedIP

theorem inRange_newController {cfg : Config} {fakeWG db : Bool} {now : Time} {rows : List ClientRow}
    (made : newController text cfg fakeWG db now rows = .ok c) : c.ip.InRange := by
  unfold newController at made
  split at made
  · cases made
  · next ip pool =>
    obtain rfl := Except.ok.inj made
    exact inRange_restore now rows (IPAM.inRange_newIPAM pool)

theorem inRange_authorize (h : c.ip.InRange) (call : Call) (clientPubkey endpoint : String) :
    (c.authorize text call clientPubkey endpoint).2.1.ip.InRange := by
  have moved : (c.ip.allocate text).2.InRange := h.allocate
  unfold Controller.authorize
  cases c.admission call with
  | error e => exact h
  | ok u =>
    rcases leased : c.ip.allocate text with ⟨_ | assigned, ip⟩
    · rw [leased] at moved
      exact moved
    · rw [leased] at moved
      dsimp only
      rcases authorize call.validated call.now c.ses clientPubkey assigned endpoint
        with ⟨e | s, ses⟩
      · exact moved.release assigned
      · dsimp only
        split
        · exact moved.release assigned
        · cases call.addPeer with
          | error e => exact moved.release assigned
          | ok u => exact moved

theorem inRange_step (c : Controller) (op : Op) (h : c.ip.InRange) :
    (step text c op).ip.InRange := by
  cases op with
  | authorize call clientPubkey endpoint => exact inRange_authorize h call clientPubkey endpoint
  | revoke now tokenID =>
    rw [step]
    rcases c.revoke_cases text now tokenID with ⟨e, refused⟩ | ⟨s, _, dropped⟩
    · rw [refused]
      exact h
    · rw [dropped]
      exact h.release s.assignedIP
  | sweep now order =>
    rw [step, Controller.sweepOnce]
    dsimp only
    induction (sweepOnce order now c.ses).1.map (·.assignedIP) generalizing c with
    | nil => exact h
    | cons ip rest ih =>
      rw [List.foldl_cons]
      exact ih { c with ip := c.ip.release text ip } (h.release ip)

theorem inRange_run {c : Controller} (h : c.ip.InRange) (ops : List Op) :
    (Run.run (step text) c ops).ip.InRange := by
  have all : Run.Throughout (step text) (·.ip.InRange) c ops :=
    Run.throughout_of_step h inRange_step
  exact all.last

end pool

/-- In every state of a controller: whatever refuses a call, sessions, tombstones, leases, peers
and the prospects of later calls are as before, exactly when a session that it comes to open can
be served. -/
theorem refused_costs_nothing_iff {κ ν : Type} [DecidableEq κ] (text : IPText) (keyOf : String → κ)
    (tag : String → ν) (peers : GoMap κ ν) (cfg : Config) (fakeWG db : Bool) (now : Time)
    (rows : List ClientRow) (c : Controller)
    (made : newController text cfg fakeWG db now rows = .ok c) (ops : List Op) (call : Call)
    (clientPubkey endpoint : String) :
    (∀ e, ((Run.run (step text) c ops).authorize text call clientPubkey endpoint).1 = .error e →
      CostsNothing text keyOf tag peers (Run.run (step text) c ops)
        ((Run.run (step text) c ops).authorize text call clientPubkey endpoint).2.1
        ((Run.run (step text) c ops).authorize text call clientPubkey endpoint).2.2) ↔
    ServesIfOpened text (Run.run (step text) c ops) call := by
  have inRange : (Run.run (step text) c ops).ip.InRange :=
    inRange_run (inRange_newController made) ops
  generalize Run.run (step text) c ops = c at inRange
  have after : (c.authorize text call clientPubkey endpoint).2.1.ip.InRange :=
    inRange_authorize inRange call clientPubkey endpoint
  rcases c.authorize_cases text call clientPubkey endpoint with
    ⟨e, next, refused, live⟩ | ⟨tok, off, next, s, reaches, lapsed, _, rfl, ⟨serves, opened⟩ |
      ⟨unserved, e, abandoned⟩⟩
  · rw [refused] at after ⊢
    refine iff_of_true (fun _ _ => ⟨rfl, rfl, rfl, rfl, ?_⟩) ?_
    · intro call' clientPubkey' endpoint' s ok
      obtain ⟨tok, reaches, rest⟩ := authorize_ok_iff.mp ⟨s, ok⟩
      exact authorize_ok_iff.mpr ⟨tok, (reaches_congr inRange after).mpr reaches, rest⟩
    · intro tok reaches lapsed
      obtain ⟨existing, found, unexpired⟩ := live tok reaches
      rw [lapsed existing found] at unexpired
      cases unexpired
  · rw [opened]
    refine iff_of_true (fun e impossible => by cases impossible) fun tok' reaches' _ => ?_
    obtain rfl := Except.ok.inj (reaches.2.2.1.symm.trans reaches'.2.2.1)
    exact serves
  · rw [abandoned]
    refine iff_of_false (fun free => ?_) fun served => unserved (served tok reaches lapsed)
    -- the undone session has left a tombstone for its token
    have same := (free e rfl).tombstones
    have buried := (revoke_revoked call.revokedAt (c.ses.enter (openSession c.ses call.now tok
      clientPubkey (text.format (c.ip.base + off)) endpoint)) tok.id tok.id).mpr
        (.inr ⟨rfl, by rw [enter_byToken]; simp [openSession]⟩)
    change ((revoke call.revokedAt _ tok.id).2.revoked = _) at same
    rw [same, reaches.2.2.2.2] at buried
    cases buried

section sample

/-- An open exit node with the range 100.64.0.0/29 and room for two clients. -/
def twoClients : Config := ⟨.exit, 2, true, false, 0, 0x64400000, 0xFFFFFFF8⟩

def token : Token := ⟨"id", "node", "session", 0, scopeExit, "raw"⟩

/-- A call whose token is accepted, with the device's answer. -/
def calling (addPeer : Except String Unit) : Call :=
  ⟨.ok (), 1, .ok (), .ok token, 1, addPeer, 1, 1⟩

def node : Controller :=
  { cfg := twoClients
    fakeWG := false
    db := false
    ip := ⟨0x64400000, 8, 2, ∅, "100.64.0.1"⟩
    ses := newManager 0 }

theorem node_made : newController .dottedQuad twoClients false false 0 [] = .ok node := by
  rfl

/-- The token's client is connected. -/
def connected : List Op := [.authorize (calling (.ok ())) "key" "endpoint"]

/-- A second call with the token of a live session is refused and costs nothing. -/
theorem secondCall_costs_nothing :
    ((Run.run (step .dottedQuad) node connected).authorize .dottedQuad (calling (.ok ())) "key'"
      "endpoint").1 = .error (.session .alreadyActive) ∧
    CostsNothing .dottedQuad id id (∅ : GoMap String String)
      (Run.run (step .dottedQuad) node connected)
      ((Run.run (step .dottedQuad) node connected).authorize .dottedQuad (calling (.ok ())) "key'"
        "endpoint").2.1
      ((Run.run (step .dottedQuad) node connected).authorize .dottedQuad (calling (.ok ())) "key'"
        "endpoint").2.2 := by
  have refused : ((Run.run (step .dottedQuad) node connected).authorize .dottedQuad
      (calling (.ok ())) "key'" "endpoint").1 = .error (.session .alreadyActive) := by
    decide
  refine ⟨refused, (refused_costs_nothing_iff .dottedQuad id id ∅ twoClients false false 0 [] node
    node_made connected (calling (.ok ())) "key'" "endpoint").mpr ?_ _ refused⟩
  intro tok _ _
  refine ⟨fun relay => ?_, rfl⟩
  have exit : (Run.run (step .dottedQuad) node connected).cfg.nodeType = .exit := by decide
  rw [exit] at relay
  cases relay.1

/-- The device refuses the peer once; the retry, which would have succeeded before,
finds the token consumed. -/
theorem busyDevice_consumes_token :
    (node.authorize .dottedQuad (calling (.error "busy")) "key" "endpoint").1 =
      .error (.installPeer "busy") ∧
    ((node.authorize .dottedQuad (calling (.error "busy")) "key" "endpoint").2.1.authorize
      .dottedQuad (calling (.ok ())) "key" "endpoint").1 = .error (.session .revoked) ∧
    (node.authorize .dottedQuad (calling (.ok ())) "key" "endpoint").1.isOk = true := by
  decide

end sample

end VeilNet.Guarantees.RefusedAuthorize
