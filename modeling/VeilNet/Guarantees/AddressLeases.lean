import VeilNet.Source.Nodes.Controller
import VeilNet.Lib.Leases
import VeilNet.Lib.Run

/-!
# Address leases of a node

The pool holds the leases, the session manager their owners. One path breaks the lease book:
`Authorize` overwrites a session that has lapsed and was not swept, and nobody returns its
address.
-/
namespace VeilNet.Guarantees.AddressLeases
open Lib Source.Sessions Source.Nodes

/-- The used set is exactly the offsets of the sessions' addresses, and no two
sessions share an address. -/
structure LeasesMatch (text : IPText) (c : Controller) : Prop where
  used_iff : ∀ off, off ∈ c.ip.used ↔
    ∃ s ∈ GoMap.values c.ses.byToken, IPAM.offset text c.ip.base s.assignedIP = some off
  apart : ∀ id id' s s', c.ses.byToken.lookup id = some s → c.ses.byToken.lookup id' = some s' →
    s.assignedIP = s'.assignedIP → id = id'

inductive Op where
  | authorize (call : Call) (clientPubkey endpoint : String)
  | revoke (now : Time) (tokenID : String)
  | sweep (now : Time) (order : RangeOrder)

def Op.now : Op → Time
  | .authorize call .. => call.now
  | .revoke now _ | .sweep now _ => now

def step (text : IPText) (c : Controller) : Op → Controller
  | .authorize call clientPubkey endpoint => (c.authorize text call clientPubkey endpoint).2.1
  | .revoke now tokenID => (c.revoke text now tokenID).2.1
  | .sweep now order => (c.sweepOnce text order now).2.1

/-- A call that gets as far as the session table with an accepted token does not
meet a lapsed session of that token. -/
def FindsNoLapsed (text : IPText) (c : Controller) : Op → Prop
  | .authorize call .. => ∀ tok, c.Reaches text call tok →
    ∀ existing, c.ses.byToken.lookup tok.id = some existing → existing.expired call.now = false
  | .revoke .. | .sweep .. => True

/-- The controller's leases, by token. -/
def book (text : IPText) (c : Controller) : Leases.Book String UInt32 where
  used := { off | off ∈ c.ip.used }
  lease id := (c.ses.byToken.lookup id).bind fun s => IPAM.offset text c.ip.base s.assignedIP

/-- Sessions have addresses of the pool, taken and each with one session. -/
structure WellLeased (text : IPText) (c : Controller) : Prop where
  formed : ∀ id s, c.ses.byToken.lookup id = some s →
    ∃ off, s.assignedIP = text.format (c.ip.base + off)
  sound : Leases.Sound (book text c)

section book
variable {text : IPText} {c : Controller}

theorem lease_eq_some {id : String} {off : UInt32} : (book text c).lease id = some off ↔
    ∃ s, c.ses.byToken.lookup id = some s ∧
      IPAM.offset text c.ip.base s.assignedIP = some off :=
  Option.bind_eq_some_iff

variable (h : WellLeased text c)
include h

theorem WellLeased.lease_of_session {id : String} {s : Session}
    (found : c.ses.byToken.lookup id = some s) :
    ∃ off, s.assignedIP = text.format (c.ip.base + off) ∧ (book text c).lease id = some off := by
  obtain ⟨off, address⟩ := h.formed id s found
  exact ⟨off, address, lease_eq_some.mpr ⟨s, found, by rw [address, IPAM.offset_format]⟩⟩

theorem WellLeased.lease_eq_none_iff {id : String} :
    (book text c).lease id = none ↔ c.ses.byToken.lookup id = none := by
  constructor
  · intro unleased
    cases found : c.ses.byToken.lookup id with
    | none => rfl
    | some s =>
      obtain ⟨off, _, leased⟩ := h.lease_of_session found
      rw [unleased] at leased
      cases leased
  · intro absent
    simp [book, absent]

theorem WellLeased.apart {id id' : String} {s s' : Session}
    (found : c.ses.byToken.lookup id = some s) (found' : c.ses.byToken.lookup id' = some s')
    (same : s.assignedIP = s'.assignedIP) : id = id' := by
  obtain ⟨off, address, leased⟩ := h.lease_of_session found
  have address' : IPAM.offset text c.ip.base s'.assignedIP = some off := by
    rw [← same, address, IPAM.offset_format]
  exact h.sound.apart id id' off leased (lease_eq_some.mpr ⟨s', found', address'⟩)

/-- The leases match the sessions exactly when the book is exact. -/
theorem WellLeased.leasesMatch_iff :
    LeasesMatch text c ↔ Leases.Exact (book text c) := by
  constructor
  · intro holds off taken
    obtain ⟨s, member, address⟩ := (holds.used_iff off).mp taken
    obtain ⟨id, found⟩ := GoMap.mem_values.mp member
    exact ⟨id, lease_eq_some.mpr ⟨s, found, address⟩⟩
  · intro exact
    constructor
    · intro off
      constructor
      · intro taken
        obtain ⟨id, leased⟩ := exact off taken
        obtain ⟨s, found, address⟩ := lease_eq_some.mp leased
        exact ⟨s, GoMap.mem_values.mpr ⟨id, found⟩, address⟩
      · rintro ⟨s, member, address⟩
        obtain ⟨id, found⟩ := GoMap.mem_values.mp member
        exact h.sound.taken id off (lease_eq_some.mpr ⟨s, found, address⟩)
    · intro id id' s s' found found' same
      exact h.apart found found' same

end book

section steps
variable {text : IPText} {c : Controller}

section opened
variable {off : UInt32} {s : Session} (next : UInt32)

theorem overwrites_enter (free : off ∉ c.ip.used)
    (address : s.assignedIP = text.format (c.ip.base + off)) :
    Leases.Overwrites (book text c)
      (book text { c with
        ses := c.ses.enter s
        ip := { c.ip with next, used := insert off c.ip.used } }) s.tokenID (some off) := by
  constructor
  · rintro x ⟨⟩
    exact free
  · intro x
    simp [book, eq_comm]
  · simp [book, enter_byToken, address]
  · intro id other
    simp only [book, enter_byToken, if_neg other]

theorem overwrites_abandon (now : Time) :
    Leases.Overwrites (book text c)
      (book text { c with
        ses := (revoke now (c.ses.enter s) s.tokenID).2
        ip := { c.ip with next } }) s.tokenID none := by
  constructor
  · intro x isNew
    cases isNew
  · intro x
    simp [book]
  · simp [book, revoke_byToken]
  · intro id other
    simp only [book, revoke_byToken, enter_byToken, if_neg other]

theorem WellLeased.enter (h : WellLeased text c) (free : off ∉ c.ip.used)
    (address : s.assignedIP = text.format (c.ip.base + off)) :
    WellLeased text { c with
      ses := c.ses.enter s
      ip := { c.ip with next, used := insert off c.ip.used } } := by
  refine ⟨?_, (overwrites_enter next free address).sound h.sound⟩
  intro id s' found
  rw [enter_byToken] at found
  split at found
  · obtain rfl := Option.some.inj found
    exact ⟨off, address⟩
  · exact h.formed id s' found

theorem WellLeased.abandon (h : WellLeased text c) (now : Time) :
    WellLeased text { c with
      ses := (revoke now (c.ses.enter s) s.tokenID).2
      ip := { c.ip with next } } := by
  refine ⟨?_, (overwrites_abandon next now).sound h.sound⟩
  intro id s' found
  simp only [revoke_byToken, enter_byToken] at found
  split at found
  · cases found
  · exact h.formed id s' found

end opened

theorem returns_revoke (text : IPText) (now : Time) {tokenID : String} {s : Session}
    (found : c.ses.byToken.lookup tokenID = some s) :
    Leases.Returns (book text c)
      (book text { c with
        ses := (revoke now c.ses tokenID).2
        ip := c.ip.release text s.assignedIP }) (· = tokenID) := by
  constructor
  · intro x
    simp [book, IPAM.mem_release, found]
  · rintro id rfl
    simp [book, revoke_byToken]
  · intro id other
    simp only [book, revoke_byToken, if_neg other, IPAM.release_base]

theorem sweepOnce_base (now : Time) (order : RangeOrder) :
    (c.sweepOnce text order now).2.1.ip.base = c.ip.base :=
  IPAM.foldl_release_base _ _

/-- `SweepOnce` returns the addresses of the sessions it evicts. -/
theorem returns_sweepOnce (text : IPText) (c : Controller) (now : Time) (order : RangeOrder) :
    Leases.Returns (book text c) (book text (c.sweepOnce text order now).2.1)
      (fun id => ∃ s, c.ses.byToken.lookup id = some s ∧ s.expired now = true) := by
  constructor
  · intro x
    have released : x ∈ (c.sweepOnce text order now).2.1.ip.used ↔ x ∈ c.ip.used ∧
        ∀ ip ∈ (sweepOnce order now c.ses).1.map (·.assignedIP),
          IPAM.offset text c.ip.base ip ≠ some x := IPAM.mem_foldl_release
    refine released.trans (and_congr_right fun _ => ?_)
    constructor
    · rintro unreturned id ⟨s, found, expired⟩ leased
      obtain ⟨s', found', address⟩ := lease_eq_some.mp leased
      obtain rfl := Option.some.inj (found.symm.trans found')
      have evicted : s ∈ (sweepOnce order now c.ses).1 := mem_sweepOnce.mpr ⟨id, found, expired⟩
      exact unreturned s.assignedIP (List.mem_map_of_mem evicted) address
    · intro unreturned ip member address
      obtain ⟨s, evicted, rfl⟩ := List.mem_map.mp member
      obtain ⟨id, found, expired⟩ := mem_sweepOnce.mp evicted
      exact unreturned id ⟨s, found, expired⟩ (lease_eq_some.mpr ⟨s, found, address⟩)
  · intro id lapsed
    have gone : (c.sweepOnce text order now).2.1.ses.byToken.lookup id = none :=
      sweepOnce_lapsed lapsed
    simp [book, gone]
  · intro id live
    have kept : (c.sweepOnce text order now).2.1.ses.byToken.lookup id = _ := sweepOnce_live live
    simp only [book, kept, sweepOnce_base]

/-- Every step keeps the addresses well leased, and it keeps the book exact
exactly when it meets no lapsed session. -/
theorem step_spec (h : WellLeased text c) (op : Op) :
    WellLeased text (step text c op) ∧
    (Leases.Exact (book text c) →
      (Leases.Exact (book text (step text c op)) ↔ FindsNoLapsed text c op)) := by
  cases op with
  | authorize call clientPubkey endpoint =>
    rcases c.authorize_cases text call clientPubkey endpoint with
      ⟨e, next, refused, live⟩ | ⟨tok, off, next, s, reaches, lapsed, free, opened, outcome⟩
    · rw [step, refused]
      refine ⟨⟨h.formed, h.sound⟩, fun exact => iff_of_true exact ?_⟩
      intro tok reaches existing found
      obtain ⟨other, found', unexpired⟩ := live tok reaches
      rw [Option.some.inj (found.symm.trans found'), unexpired]
    · -- the token's entry is overwritten, so the book stays exact if there was none
      have token : s.tokenID = tok.id := by rw [opened]; rfl
      have address : s.assignedIP = text.format (c.ip.base + off) := by rw [opened]; rfl
      have meets : (book text c).lease s.tokenID = none ↔
          FindsNoLapsed text c (.authorize call clientPubkey endpoint) := by
        rw [h.lease_eq_none_iff, token, absent_iff_unlapsed lapsed]
        constructor
        · intro unlapsed tok' reaches'
          obtain rfl := Except.ok.inj (reaches.2.2.1.symm.trans reaches'.2.2.1)
          exact unlapsed
        · intro meets
          exact meets tok reaches
      rcases outcome with ⟨_, served⟩ | ⟨_, e, abandoned⟩
      · rw [step, served]
        exact ⟨h.enter next free address, fun exact =>
          ((overwrites_enter next free address).exact_iff h.sound exact).trans meets⟩
      · rw [step, abandoned]
        exact ⟨h.abandon next call.revokedAt, fun exact =>
          ((overwrites_abandon next call.revokedAt).exact_iff h.sound exact).trans meets⟩
  | revoke now tokenID =>
    rcases c.revoke_cases text now tokenID with ⟨e, refused⟩ | ⟨s, found, revoked⟩
    · rw [step, refused]
      exact ⟨h, fun exact => iff_of_true exact trivial⟩
    · rw [step, revoked]
      have returned := returns_revoke text now found
      refine ⟨⟨?_, returned.sound h.sound⟩, fun exact => iff_of_true (returned.exact exact) trivial⟩
      intro id s' kept
      simp only [revoke_byToken] at kept
      split at kept
      · cases kept
      · simpa using h.formed id s' kept
  | sweep now order =>
    have returned := returns_sweepOnce text c now order
    refine ⟨⟨?_, returned.sound h.sound⟩, fun exact => iff_of_true (returned.exact exact) trivial⟩
    intro id s kept
    rw [step, sweepOnce_base]
    exact h.formed id s (of_sweepOnce kept).1

end steps

section start
variable {text : IPText} {cfg : Config} {fakeWG db : Bool} {startedAt : Time} {c : Controller}

variable {rows : List ClientRow}

/-- A new controller has no sessions, whatever rows it restores. -/
theorem byToken_start
    (started : newController text cfg fakeWG db startedAt rows = .ok c) (id : String) :
    c.ses.byToken.lookup id = none := by
  unfold newController at started
  split at started
  · cases started
  · obtain rfl := Except.ok.inj started
    rfl

theorem db_start
    (started : newController text cfg fakeWG db startedAt rows = .ok c) : c.db = db := by
  unfold newController at started
  split at started
  · cases started
  · obtain rfl := Except.ok.inj started
    rfl

theorem wellLeased_start
    (started : newController text cfg fakeWG db startedAt rows = .ok c) : WellLeased text c := by
  have empty := byToken_start started
  have unleased : ∀ id, (book text c).lease id = none := by
    intro id
    simp [book, empty id]
  refine ⟨?_, ?_, ?_⟩
  · intro id s found
    rw [empty id] at found
    cases found
  · intro id off leased
    rw [unleased id] at leased
    cases leased
  · intro id id' off leased
    rw [unleased id] at leased
    cases leased

theorem exact_start (started : newController text cfg fakeWG db startedAt [] = .ok c) :
    Leases.Exact (book text c) := by
  unfold newController IPAM.newIPAM at started
  dsimp only at started
  split at started
  · cases started
  · next ip accepted =>
    obtain rfl := Except.ok.inj started
    split at accepted
    · cases accepted
    · obtain rfl := Option.some.inj accepted
      intro off taken
      simp [book, restore] at taken

end start

/-- In every run of a controller without stored rows: in every state the used set is the offsets
of the sessions' addresses, each held once, exactly when no call that gets to the session table
with an accepted token meets a lapsed session of it which was not swept. -/
theorem leases_match_iff (text : IPText) (cfg : Config) (fakeWG db : Bool) (startedAt : Time)
    (c : Controller) (started : newController text cfg fakeWG db startedAt [] = .ok c)
    (ops : List Op) :
    Run.Throughout (step text) (LeasesMatch text) c ops ↔
      Run.Along (step text) (FindsNoLapsed text) c ops := by
  have wellLeased := wellLeased_start started
  have exact := exact_start started
  have keeps : ∀ c op, True → WellLeased text c → LeasesMatch text c →
      (LeasesMatch text (step text c op) ↔ FindsNoLapsed text c op) := by
    intro c op _ h holds
    obtain ⟨next, kept⟩ := step_spec h op
    exact next.leasesMatch_iff.trans (kept (h.leasesMatch_iff.mp holds))
  exact Run.throughout_iff_along wellLeased (wellLeased.leasesMatch_iff.mpr exact)
    (fun c op _ h => (step_spec h op).1) keeps (Run.along_of_forall fun _ _ => trivial)

section sample

/-- An exit node over 100.64.0.0/10 with sessions of at most a minute. -/
def exitConfig : Config :=
  { nodeType := .exit, maxClients := 50, acceptNew := true, emergencyDisable := false,
    maxSessionMinutes := 1, cgnatIP := 0x64400000, cgnatMask := 0xFFC00000 }

def exitNode : Controller :=
  { cfg := exitConfig, fakeWG := true, db := false,
    ip := ⟨0x64400000, 0x400000, 2, ∅, "100.64.0.1"⟩, ses := newManager Duration.minute }

/-- The node starts, whatever its cap and with or without a store. -/
theorem exitNode_starts (maxClients : ℤ) (db : Bool) :
    newController IPText.dottedQuad { exitConfig with maxClients } true db 0 [] =
      .ok { exitNode with cfg := { exitConfig with maxClients }, db } := by
  have pool : IPAM.newIPAM IPText.dottedQuad exitConfig.cgnatIP exitConfig.cgnatMask =
      some exitNode.ip := by decide
  have cap : exitConfig.maxSessionDuration = Duration.minute := by decide
  have sameCap : ({ exitConfig with maxClients } : Config).maxSessionDuration = Duration.minute :=
    cap
  simp only [newController, pool, sameCap, restore, List.foldl_nil]
  rfl

theorem exitNode_started :
    newController IPText.dottedQuad exitConfig true false 0 [] = .ok exitNode :=
  exitNode_starts 50 false

def hourCall (now : Time) (addPeer : Except String Unit) : Call :=
  { precheck := .ok (), countedAt := now, keyParse := .ok (),
    validated := .ok ⟨"t", "n", "s", Duration.hour, scopeExit, "t.secret"⟩, now, addPeer,
    revokedAt := now, installedAt := now }

/-- A session is served and lapses, and a sweep returns its address. -/
theorem sweptSession_leases_match :
    Run.Throughout (step IPText.dottedQuad) (LeasesMatch IPText.dottedQuad) exitNode
      [ .authorize (hourCall 0 (.ok ())) "key" "", .sweep (2 * Duration.minute) .forward,
        .revoke (2 * Duration.minute) "t" ] := by
  refine (leases_match_iff IPText.dottedQuad exitConfig true false 0 exitNode exitNode_started
    _).mpr ⟨?_, trivial, trivial, trivial⟩
  intro tok _ existing found
  simp [exitNode, newManager] at found

/-- The token comes again after its session has lapsed; then everything is swept. -/
def tokenAgain : List Op :=
  [ .authorize (hourCall 0 (.ok ())) "key" "",
    .authorize (hourCall (2 * Duration.minute) (.ok ())) "key" "",
    .sweep (2 * Duration.hour) .forward ]

/-- The first address stays leased when no session is left. -/
theorem reuse_leaks_address :
    newController IPText.dottedQuad exitConfig true false 0 [] = .ok exitNode ∧
    (tokenAgain.map Op.now).Pairwise (· ≤ ·) ∧
    (Run.run (step IPText.dottedQuad) exitNode tokenAgain).ip.used = {2} ∧
    GoMap.values (Run.run (step IPText.dottedQuad) exitNode tokenAgain).ses.byToken = [] ∧
    ¬ LeasesMatch IPText.dottedQuad (Run.run (step IPText.dottedQuad) exitNode tokenAgain) := by
  have leaked : (Run.run (step IPText.dottedQuad) exitNode tokenAgain).ip.used = {2} := by
    decide
  have empty : GoMap.values (Run.run (step IPText.dottedQuad) exitNode tokenAgain).ses.byToken =
      [] := by
    decide
  refine ⟨exitNode_started, by decide, leaked, empty, fun holds => ?_⟩
  obtain ⟨s, member, _⟩ := (holds.used_iff 2).mp (by rw [leaked]; exact Finset.mem_singleton_self 2)
  rw [empty] at member
  cases member

end sample

end VeilNet.Guarantees.AddressLeases
