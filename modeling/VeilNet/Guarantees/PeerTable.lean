import VeilNet.Source.Nodes.Device
import VeilNet.Guarantees.AddressLeases
import VeilNet.Lib.Mirror

/-!
# The peer table of a node

Sessions are kept by token, peers by the key that the client chooses. The device mirrors the
sessions as long as no two tokens have one key and a lapsed session is replaced by one with the
same key.
-/
namespace VeilNet.Guarantees.PeerTable
open Lib Source.Sessions Source.Nodes
open Guarantees.AddressLeases (Op WellLeased exitConfig exitNode exitNode_started)

/-- A controller and its device: the allowed address of each peer, by public key. -/
structure World (κ : Type) where
  ctl : Controller
  peers : GoMap κ String

/-- The device accepts every peer. -/
def accepted (call : Call) : Call := { call with addPeer := .ok () }

section definitions
variable {κ : Type} [DecidableEq κ] (keyOf : String → κ) (text : IPText)

def World.after (w : World κ) (outcome : Controller × List Effect) : World κ :=
  ⟨outcome.1, applyPeers keyOf (fun ip => ip) outcome.2 w.peers⟩

def step (w : World κ) : Op → World κ
  | .authorize call clientPubkey endpoint =>
    w.after keyOf (w.ctl.authorize text (accepted call) clientPubkey endpoint).2
  | .revoke now tokenID => w.after keyOf (w.ctl.revoke text now tokenID).2
  | .sweep now order => w.after keyOf (w.ctl.sweepOnce text order now).2

/-- Each session has a peer with its key, whose allowed address is its address,
and there are no other peers. -/
structure PeersMirror (w : World κ) : Prop where
  present : ∀ id s, w.ctl.ses.byToken.lookup id = some s →
    w.peers.lookup (keyOf s.clientPubkey) = some s.assignedIP
  only : ∀ k ip, w.peers.lookup k = some ip →
    ∃ id s, w.ctl.ses.byToken.lookup id = some s ∧ keyOf s.clientPubkey = k

/-- When a call opens a session (its token has at most a lapsed one), the key is that of the
lapsed session and of no other token's. A session that a relay node opens for an exit token, and
drops again, replaces none. -/
def KeysApart (c : Controller) : Op → Prop
  | .authorize call clientPubkey _ => ∀ tok, c.Reaches text (accepted call) tok →
    (∀ existing, c.ses.byToken.lookup tok.id = some existing → existing.expired call.now = true) →
    if c.cfg.nodeType = .relay ∧ tok.scope = scopeExit then c.ses.byToken.lookup tok.id = none
    else ∀ id s, c.ses.byToken.lookup id = some s →
      (keyOf s.clientPubkey = keyOf clientPubkey ↔ id = tok.id)
  | .revoke .. | .sweep .. => True

/-- The sessions as entries with a key and an address. -/
def entries (c : Controller) (id : String) : Option (κ × String) :=
  (c.ses.byToken.lookup id).map fun s => (keyOf s.clientPubkey, s.assignedIP)

end definitions

section mirror
variable {κ : Type} {keyOf : String → κ} {text : IPText} {c : Controller}

theorem entries_eq_some {id : String} {k : κ} {ip : String} : entries keyOf c id = some (k, ip) ↔
    ∃ s, c.ses.byToken.lookup id = some s ∧ keyOf s.clientPubkey = k ∧ s.assignedIP = ip := by
  simp [entries]

theorem entries_eq_none {id : String} :
    entries keyOf c id = none ↔ c.ses.byToken.lookup id = none :=
  Option.map_eq_none_iff

/-- What the condition asks of a call that opens a session for `tok`. -/
theorem keysApart_authorize {c : Controller} {call : Call} {clientPubkey endpoint : String}
    {tok : Token} (reaches : c.Reaches text (accepted call) tok)
    (lapsed : ∀ existing, c.ses.byToken.lookup tok.id = some existing →
      existing.expired call.now = true) :
    KeysApart keyOf text c (.authorize call clientPubkey endpoint) ↔
      if c.cfg.nodeType = .relay ∧ tok.scope = scopeExit then c.ses.byToken.lookup tok.id = none
      else ∀ id s, c.ses.byToken.lookup id = some s →
        (keyOf s.clientPubkey = keyOf clientPubkey ↔ id = tok.id) := by
  constructor
  · intro apart
    exact apart tok reaches lapsed
  · intro holds tok' reaches' _
    obtain rfl := Except.ok.inj (reaches.2.2.1.symm.trans reaches'.2.2.1)
    exact holds

theorem entries_apart (h : WellLeased text c) : Mirror.Apart (entries keyOf c) := by
  intro id id' k k' ip here there
  obtain ⟨s, session, _, address⟩ := entries_eq_some.mp here
  obtain ⟨s', session', _, address'⟩ := entries_eq_some.mp there
  exact h.apart session session' (address.trans address'.symm)

theorem entries_new (h : WellLeased text c) {off : UInt32} (free : off ∉ c.ip.used) (id : String)
    (k : κ) : entries keyOf c id ≠ some (k, text.format (c.ip.base + off)) := by
  intro entry
  obtain ⟨s, session, _, address⟩ := entries_eq_some.mp entry
  obtain ⟨off', address', leased⟩ := h.lease_of_session session
  have same : IPAM.offset text c.ip.base (text.format (c.ip.base + off')) =
      IPAM.offset text c.ip.base (text.format (c.ip.base + off)) := by
    rw [← address', address]
  rw [IPAM.offset_format, IPAM.offset_format] at same
  exact free (Option.some.inj same ▸ h.sound.taken id off' leased)

variable [DecidableEq κ] {w : World κ}

theorem peersMirror_iff :
    PeersMirror keyOf w ↔ Mirror.Mirrors (entries keyOf w.ctl) (w.peers.lookup ·) := by
  constructor
  · intro h k ip
    constructor
    · intro found
      obtain ⟨id, s, session, rfl⟩ := h.only k ip found
      have own := h.present id s session
      exact ⟨id, entries_eq_some.mpr ⟨s, session, rfl, Option.some.inj (own.symm.trans found)⟩⟩
    · rintro ⟨id, entry⟩
      obtain ⟨s, session, rfl, rfl⟩ := entries_eq_some.mp entry
      exact h.present id s session
  · intro h
    constructor
    · intro id s session
      exact (h _ _).mpr ⟨id, entries_eq_some.mpr ⟨s, session, rfl, rfl⟩⟩
    · intro k ip found
      obtain ⟨id, entry⟩ := (h k ip).mp found
      obtain ⟨s, session, key, _⟩ := entries_eq_some.mp entry
      exact ⟨id, s, session, key⟩

end mirror

section steps
variable {κ : Type} [DecidableEq κ] {keyOf : String → κ} {text : IPText} {w : World κ}

theorem sets_served {c : Controller} {s : Session} {ip : IPAM} (peers : GoMap κ String) :
    Mirror.Sets (entries keyOf c) (entries keyOf { c with ses := c.ses.enter s, ip })
      (peers.lookup ·) ((peers.insert (keyOf s.clientPubkey) s.assignedIP).lookup ·)
      s.tokenID (keyOf s.clientPubkey) s.assignedIP := by
  constructor
  · simp [entries, enter_byToken]
  · intro id other
    simp only [entries, enter_byToken, if_neg other]
  · exact AList.lookup_insert peers
  · intro k other
    exact AList.lookup_insert_ne other

theorem drops_revoked {c : Controller} {tokenID : String} {s : Session} {ip : IPAM} (now : Time)
    (found : c.ses.byToken.lookup tokenID = some s) (peers : GoMap κ String) :
    Mirror.Drops (entries keyOf c) (entries keyOf
      { c with ses := (revoke now c.ses tokenID).2, ip })
      (peers.lookup ·) ((peers.erase (keyOf s.clientPubkey)).lookup ·) (· = tokenID) := by
  have entry : entries keyOf c tokenID = some (keyOf s.clientPubkey, s.assignedIP) :=
    entries_eq_some.mpr ⟨s, found, rfl, rfl⟩
  constructor
  · rintro id rfl
    simp [entries, revoke_byToken]
  · intro id other
    simp only [entries, revoke_byToken, if_neg other]
  · rintro id k ip' rfl held
    rw [entry] at held
    obtain ⟨rfl, _⟩ := Prod.mk.inj (Option.some.inj held)
    exact AList.lookup_erase _ peers
  · intro k untouched
    have other : k ≠ keyOf s.clientPubkey := by
      rintro rfl
      exact untouched tokenID s.assignedIP rfl entry
    exact AList.lookup_erase_ne other

/-- `SweepOnce` drops the lapsed entries and deletes their keys. -/
theorem drops_swept (c : Controller) (now : Time) (order : RangeOrder) (peers : GoMap κ String) :
    Mirror.Drops (entries keyOf c) (entries keyOf (c.sweepOnce text order now).2.1)
      (peers.lookup ·)
      ((applyPeers keyOf (fun ip => ip) (c.sweepOnce text order now).2.2 peers).lookup ·)
      (fun id => ∃ s, c.ses.byToken.lookup id = some s ∧ s.expired now = true) := by
  have deleted : ∀ k, (applyPeers keyOf (fun ip => ip)
      (c.sweepOnce text order now).2.2 peers).lookup k =
      if k ∈ (sweepOnce order now c.ses).1.map (keyOf ·.clientPubkey) then none
      else peers.lookup k :=
    lookup_applyPeers_expired keyOf (fun ip => ip) c (sweepOnce order now c.ses).1 peers
  constructor
  · intro id lapsed
    have gone : (c.sweepOnce text order now).2.1.ses.byToken.lookup id = none :=
      sweepOnce_lapsed lapsed
    simp [entries, gone]
  · intro id live
    have kept : (c.sweepOnce text order now).2.1.ses.byToken.lookup id = _ := sweepOnce_live live
    simp only [entries, kept]
  · rintro id k ip ⟨s, found, expired⟩ entry
    obtain ⟨s', found', rfl, _⟩ := entries_eq_some.mp entry
    obtain rfl := Option.some.inj (found.symm.trans found')
    have evicted : s ∈ (sweepOnce order now c.ses).1 := mem_sweepOnce.mpr ⟨id, found, expired⟩
    rw [deleted, if_pos (List.mem_map_of_mem evicted)]
  · intro k untouched
    rw [deleted, if_neg]
    intro member
    obtain ⟨s, evicted, rfl⟩ := List.mem_map.mp member
    obtain ⟨id, found, expired⟩ := mem_sweepOnce.mp evicted
    exact untouched id s.assignedIP ⟨s, found, expired⟩
      (entries_eq_some.mpr ⟨s, found, rfl, rfl⟩)

theorem mirror_authorize_iff (h : WellLeased text w.ctl) (holds : PeersMirror keyOf w) (call : Call)
    (clientPubkey endpoint : String) :
    PeersMirror keyOf (step keyOf text w (.authorize call clientPubkey endpoint)) ↔
      KeysApart keyOf text w.ctl (.authorize call clientPubkey endpoint) := by
  have mirrors := peersMirror_iff.mp holds
  have apart : Mirror.Apart (entries keyOf w.ctl) := entries_apart h
  rw [step, World.after]
  rcases w.ctl.authorize_cases text (accepted call) clientPubkey endpoint with
    ⟨e, next, refused, live⟩ | ⟨tok, off, next, s, reaches, lapsed, free, opened, outcome⟩
  · rw [refused]
    refine iff_of_true ⟨holds.present, holds.only⟩ fun tok reaches lapsed => ?_
    obtain ⟨existing, found, unexpired⟩ := live tok reaches
    have expired := lapsed existing found
    rw [show existing.expired call.now = false from unexpired] at expired
    cases expired
  · have token : s.tokenID = tok.id := by rw [opened]; rfl
    have key : s.clientPubkey = clientPubkey := by rw [opened]; rfl
    have address : s.assignedIP = text.format (w.ctl.ip.base + off) := by rw [opened]; rfl
    rw [keysApart_authorize reaches lapsed, peersMirror_iff]
    rcases outcome with ⟨serves, served⟩ | ⟨unserved, e, abandoned⟩
    · rw [served, if_neg serves.1]
      dsimp only
      rw [applyPeers_served, ← key, ← token,
        mirrors.sets_iff apart (address ▸ entries_new h free) (sets_served w.peers)]
      constructor
      · intro unique id s' found
        exact unique id _ _ (entries_eq_some.mpr ⟨s', found, rfl, rfl⟩)
      · intro unique id k ip entry
        obtain ⟨s', found, rfl, _⟩ := entries_eq_some.mp entry
        exact unique id s' found
    · have relay : w.ctl.cfg.nodeType = .relay ∧ tok.scope = scopeExit := by
        by_contra scope
        exact unserved ⟨scope, rfl⟩
      have absent : entries keyOf w.ctl s.tokenID = none ↔
          w.ctl.ses.byToken.lookup s.tokenID = none := entries_eq_none
      rw [abandoned, if_pos relay, ← token, ← absent]
      refine mirrors.vanish_iff apart ?_ ?_
      · simp [entries, revoke_byToken]
      · intro id other
        simp only [entries, revoke_byToken, enter_byToken, if_neg other]

/-- A step keeps the mirror exactly when it meets the condition. -/
theorem mirror_step_iff (h : WellLeased text w.ctl) (holds : PeersMirror keyOf w) (op : Op) :
    PeersMirror keyOf (step keyOf text w op) ↔ KeysApart keyOf text w.ctl op := by
  have mirrors := peersMirror_iff.mp holds
  have apart : Mirror.Apart (entries keyOf w.ctl) := entries_apart h
  cases op with
  | authorize call clientPubkey endpoint =>
    exact mirror_authorize_iff h holds call clientPubkey endpoint
  | revoke now tokenID =>
    rw [step, World.after]
    rcases w.ctl.revoke_cases text now tokenID with ⟨e, refused⟩ | ⟨s, found, revoked⟩
    · rw [refused]
      exact iff_of_true ⟨holds.present, holds.only⟩ trivial
    · rw [revoked, peersMirror_iff]
      dsimp only
      rw [applyPeers_dropped]
      exact iff_of_true (mirrors.drops apart (drops_revoked now found w.peers)) trivial
  | sweep now order =>
    rw [step, World.after, peersMirror_iff]
    exact iff_of_true (mirrors.drops apart (drops_swept w.ctl now order w.peers)) trivial

theorem wellLeased_step (h : WellLeased text w.ctl) (op : Op) :
    WellLeased text (step keyOf text w op).ctl := by
  cases op with
  | authorize call clientPubkey endpoint =>
    exact (AddressLeases.step_spec h (.authorize (accepted call) clientPubkey endpoint)).1
  | revoke now tokenID => exact (AddressLeases.step_spec h (.revoke now tokenID)).1
  | sweep now order => exact (AddressLeases.step_spec h (.sweep now order)).1

end steps

/-- In every run of a new controller over an empty device: in every state the peers mirror the
sessions, exactly when every session is opened with a key that no other token's session has and
that a lapsed session of its own token has, and no relay node drops an exit session that replaced
a lapsed one. -/
theorem peers_mirror_iff {κ : Type} [DecidableEq κ] (keyOf : String → κ) (text : IPText)
    (cfg : Config) (fakeWG db : Bool) (startedAt : Time) (rows : List ClientRow) (c : Controller)
    (started : newController text cfg fakeWG db startedAt rows = .ok c) (ops : List Op) :
    Run.Throughout (step keyOf text) (PeersMirror keyOf) ⟨c, ∅⟩ ops ↔
      Run.Along (step keyOf text) (fun w => KeysApart keyOf text w.ctl) ⟨c, ∅⟩ ops := by
  have empty : PeersMirror keyOf (⟨c, ∅⟩ : World κ) := by
    constructor
    · intro id s found
      rw [AddressLeases.byToken_start started id] at found
      cases found
    · intro k ip found
      cases found
  have premise : Run.Along (step keyOf text) (fun _ _ => True) (⟨c, ∅⟩ : World κ) ops :=
    Run.along_of_forall fun _ _ => trivial
  have preserved : ∀ (w : World κ) (op : Op), True → WellLeased text w.ctl →
      WellLeased text (step keyOf text w op).ctl := fun w op _ h => wellLeased_step h op
  have keeps : ∀ (w : World κ) (op : Op), True → WellLeased text w.ctl → PeersMirror keyOf w →
      (PeersMirror keyOf (step keyOf text w op) ↔ KeysApart keyOf text w.ctl op) :=
    fun w op _ h holds => mirror_step_iff h holds op
  exact Run.throughout_iff_along (AddressLeases.wellLeased_start started) empty preserved keeps
    premise

section sample

/-- A call with the given token, good for an hour. -/
def callWith (id : String) (now : Time) : Call :=
  { precheck := .ok (), countedAt := now, keyParse := .ok (),
    validated := .ok ⟨id, "n", "s", Duration.hour, scopeExit, id ++ ".secret"⟩, now,
    addPeer := .ok (), revokedAt := now, installedAt := now }

/-- Two clients with keys of their own; the first comes back after a sweep. -/
def ownKeys : List Op :=
  [ .authorize (callWith "t1" 0) "key1" "", .authorize (callWith "t2" 0) "key2" "",
    .sweep (2 * Duration.minute) .backward,
      .authorize (callWith "t3" (2 * Duration.minute)) "key1" "",
    .revoke (2 * Duration.minute) "t3" ]

theorem ownKeys_mirror :
    Run.Throughout (step (fun key => key) IPText.dottedQuad) (PeersMirror fun key => key)
      ⟨exitNode, ∅⟩ ownKeys := by
  refine (peers_mirror_iff (fun key => key) IPText.dottedQuad exitConfig true false 0 [] exitNode
    exitNode_started ownKeys).mpr ⟨?_, ?_, trivial, ?_, trivial, trivial⟩
  all_goals
    intro tok reaches _
    obtain rfl := Except.ok.inj reaches.2.2.1
    rw [if_neg (by decide), GoMap.forall_lookup]
    decide

/-- Two tokens with one key; then the second session is revoked. -/
def sharedKey : List Op :=
  [ .authorize (callWith "t1" 0) "key" "", .authorize (callWith "t2" 0) "key" "", .revoke 0 "t2" ]

/-- The session of the first token is left without a peer. -/
theorem sharedKey_loses_peer :
    newController IPText.dottedQuad exitConfig true false 0 [] = .ok exitNode ∧
    ((Run.run (step (fun key => key) IPText.dottedQuad)
      ⟨exitNode, ∅⟩ sharedKey).ctl.ses.byToken.keys = ["t1"]) ∧
    (Run.run (step (fun key => key) IPText.dottedQuad) ⟨exitNode, ∅⟩ sharedKey).peers.keys = [] ∧
    ¬ PeersMirror (fun key => key)
      (Run.run (step (fun key => key) IPText.dottedQuad) ⟨exitNode, ∅⟩ sharedKey) := by
  refine ⟨exitNode_started, by decide, by decide, fun mirror => ?_⟩
  have missing : ∀ e ∈ (Run.run (step (fun key => key) IPText.dottedQuad) ⟨exitNode, ∅⟩
      sharedKey).ctl.ses.byToken.entries, _ := GoMap.forall_lookup.mp mirror.present
  revert missing
  decide

end sample

end VeilNet.Guarantees.PeerTable
