import VeilNet.Source.Nodes.Device
import VeilNet.Guarantees.AddressLeases

/-!
# Sessions across restarts

The peers of the device and the rows of the store outlive the controller; the sessions do not. A
new one reserves the addresses of the active rows but opens no session, so no sweep removes their
peers. A node that restarts only without sessions, and replaces no lapsed session before it is
swept, keeps what it sells time-limited.
-/
namespace VeilNet.Guarantees.Restarts
open Lib Source.Sessions Source.Nodes
open Guarantees.AddressLeases (WellLeased book FindsNoLapsed)

/-- A controller, the device and the store. `installedFor` records the session for
which the peer of a key was last installed, `opened` every session ever opened. -/
structure World (κ : Type) where
  ctl : Controller
  peers : GoMap κ String
  rows : GoMap String StoredRow
  installedFor : GoMap κ Session
  opened : List Session

inductive Op where
  | control (op : AddressLeases.Op)
  | setEmergencyDisable (disabled : Bool)
  | restart (cfg : Config) (fakeWG : Bool) (now : Time) (order : RangeOrder)

def Op.time : Op → Option Time
  | .control op => some op.now
  | .setEmergencyDisable _ => none
  | .restart _ _ now _ => some now

/-- The session has an expiry, and it has come. -/
def OutOfTime (now : Time) (s : Session) : Prop := s.expiresAt ≠ 0 ∧ s.expiresAt ≤ now

section definitions
variable {κ : Type} [DecidableEq κ] (keyOf : String → κ) (text : IPText)

/-- A first start: nothing on the device, nothing stored. -/
def start (c : Controller) : World κ := ⟨c, ∅, ∅, ∅, []⟩

def World.after (w : World κ) (outcome : Controller × List Effect) : World κ :=
  { w with
    ctl := outcome.1
    peers := applyPeers keyOf (fun ip => ip) outcome.2 w.peers
    rows := applyRows outcome.2 w.rows }

/-- A new controller is given the active rows; a start that is refused changes
neither the device nor the store. -/
def step (w : World κ) : Op → World κ
  | .control (.authorize call clientPubkey endpoint) =>
    match w.ctl.authorize text call clientPubkey endpoint with
    | (.error _, outcome) => w.after keyOf outcome
    | (.ok s, outcome) =>
      { w.after keyOf outcome with
        installedFor := w.installedFor.insert (keyOf clientPubkey) s
        opened := s :: w.opened }
  | .control (.revoke now tokenID) => w.after keyOf (w.ctl.revoke text now tokenID).2
  | .control (.sweep now order) => w.after keyOf (w.ctl.sweepOnce text order now).2
  | .setEmergencyDisable disabled => { w with ctl := w.ctl.setEmergencyDisable disabled }
  | .restart cfg fakeWG now order =>
    match newController text cfg fakeWG w.ctl.db now
        (if w.ctl.db then listActive order w.rows else []) with
    | .error _ => w
    | .ok c => { w with ctl := c }

/-- No peer was installed for a session whose time is up, and the address of every
such session can be allocated again: it is free, or leased to a session that
still has time. -/
structure Cleared (now : Time) (w : World κ) : Prop where
  peers : ∀ k ip s, w.peers.lookup k = some ip → w.installedFor.lookup k = some s →
    ¬ OutOfTime now s
  addresses : ∀ s ∈ w.opened, OutOfTime now s →
    ∀ off, IPAM.offset text w.ctl.ip.base s.assignedIP = some off → off ∉ w.ctl.ip.used ∨
      ∃ id s', w.ctl.ses.byToken.lookup id = some s' ∧ ¬ OutOfTime now s' ∧
        IPAM.offset text w.ctl.ip.base s'.assignedIP = some off

def SweepClears (w : World κ) (op : Op) : Prop :=
  match op with
  | .control (.sweep now _) => Cleared text now (step keyOf text w op)
  | _ => True

/-- No call replaces a lapsed session, and a restart finds no session. -/
def Calm (w : World κ) : Op → Prop
  | .control op => FindsNoLapsed text w.ctl op
  | .setEmergencyDisable _ => True
  | .restart .. => ∀ id, w.ctl.ses.byToken.lookup id = none

/-- How device, store and controller fit together in a calm run: every peer and
every active row belongs to a session, and every leased address too. -/
structure Tidy (w : World κ) : Prop where
  leased : WellLeased text w.ctl
  exact : Leases.Exact (book text w.ctl)
  keyed : ∀ id s, w.ctl.ses.byToken.lookup id = some s → s.tokenID = id
  peers : ∀ k ip, w.peers.lookup k = some ip → ∃ s, w.installedFor.lookup k = some s ∧
    keyOf s.clientPubkey = k ∧ w.ctl.ses.byToken.lookup s.tokenID = some s
  rows : ∀ id r, w.rows.lookup id = some r →
    w.ctl.db = true ∧ (r.revoked = false → (w.ctl.ses.byToken.lookup id).isSome)

end definitions

section steps
variable {κ : Type} [DecidableEq κ] {keyOf : String → κ} {text : IPText} {w : World κ}

variable {c : Controller}

theorem tidy_start {cfg : Config} {fakeWG db : Bool} {startedAt : Time}
    (started : newController text cfg fakeWG db startedAt [] = .ok c) :
    Tidy keyOf text (start c : World κ) := by
  refine ⟨AddressLeases.wellLeased_start started, AddressLeases.exact_start started, ?_, ?_, ?_⟩
  · intro id s found
    rw [start, AddressLeases.byToken_start started id] at found
    cases found
  · intro k ip found
    cases found
  · intro id r found
    cases found

variable (h : Tidy keyOf text w)
include h

theorem leased_step {op : AddressLeases.Op} (calm : Calm text w (.control op)) :
    WellLeased text (AddressLeases.step text w.ctl op) ∧
      Leases.Exact (book text (AddressLeases.step text w.ctl op)) := by
  obtain ⟨leased, exact⟩ := AddressLeases.step_spec h.leased op
  exact ⟨leased, (exact h.exact).mpr calm⟩

theorem Tidy.drop (gone : List Session)
    (leased : WellLeased text c) (exact : Leases.Exact (book text c)) (store : c.db = w.ctl.db)
    (left : ∀ id, c.ses.byToken.lookup id =
      (w.ctl.ses.byToken.lookup id).filter fun s => decide (s ∉ gone)) :
    Tidy keyOf text (w.after keyOf (c, gone.flatMap w.ctl.onSessionExpired)) := by
  have stays : ∀ id s, w.ctl.ses.byToken.lookup id = some s → s ∉ gone →
      c.ses.byToken.lookup id = some s := by
    intro id s found kept
    simp [left, found, Option.filter, kept]
  refine ⟨leased, exact, ?_, ?_, ?_⟩
  · intro id s found
    dsimp only [World.after] at found
    rw [left, Option.filter_eq_some_iff] at found
    exact h.keyed id s found.1
  · intro k ip found
    dsimp only [World.after] at found ⊢
    rw [lookup_applyPeers_expired] at found
    split at found
    · cases found
    · next kept =>
      obtain ⟨s, installed, key, session⟩ := h.peers k ip found
      refine ⟨s, installed, key, stays _ s session fun member => kept ?_⟩
      exact key ▸ List.mem_map_of_mem member
  · intro id r found
    dsimp only [World.after] at found ⊢
    rw [lookup_applyRows_expired, Option.map_eq_some_iff] at found
    obtain ⟨old, stored, rfl⟩ := found
    obtain ⟨hasStore, active⟩ := h.rows id old stored
    refine ⟨store.trans hasStore, fun unrevoked => ?_⟩
    split at unrevoked
    · cases unrevoked
    · next kept =>
      obtain ⟨s, session⟩ := Option.isSome_iff_exists.mp (active unrevoked)
      rw [stays id s session fun member => kept ⟨hasStore, ?_⟩]
      · rfl
      · exact h.keyed id s session ▸ List.mem_map_of_mem member

/-- The sessions stay as they are, and nothing happens outside. -/
theorem Tidy.keep (leased : WellLeased text c)
    (exact : Leases.Exact (book text c)) (store : c.db = w.ctl.db)
    (same : ∀ id, c.ses.byToken.lookup id = w.ctl.ses.byToken.lookup id) :
    Tidy keyOf text { w with ctl := c } := by
  refine h.drop [] leased exact store fun id => ?_
  rw [same]
  cases w.ctl.ses.byToken.lookup id with
  | none => rfl
  | some s => simp [Option.filter]

/-- A session is opened for a token that had none: it gets a peer and a row. -/
theorem Tidy.serve {s : Session} {ip : IPAM} (endpoint : String)
    (now : Time) (absent : w.ctl.ses.byToken.lookup s.tokenID = none)
    (leased : WellLeased text { w.ctl with ses := w.ctl.ses.enter s, ip })
    (exact : Leases.Exact (book text { w.ctl with ses := w.ctl.ses.enter s, ip })) :
    Tidy keyOf text
      { w.after keyOf ({ w.ctl with ses := w.ctl.ses.enter s, ip },
          .addPeer s.clientPubkey s.assignedIP endpoint 25 ::
            w.ctl.stored [.upsertClient (Controller.clientRow s s.clientPubkey s.assignedIP
              endpoint), .bumpSessionsToday now]) with
        installedFor := w.installedFor.insert (keyOf s.clientPubkey) s
        opened := s :: w.opened } := by
  have stays : ∀ {id : String} {s' : Session}, w.ctl.ses.byToken.lookup id = some s' →
      (w.ctl.ses.enter s).byToken.lookup id = some s' := by
    intro id s' found
    rw [enter_byToken, if_neg, found]
    rintro rfl
    rw [absent] at found
    cases found
  refine ⟨leased, exact, ?_, ?_, ?_⟩
  · intro id s' found
    dsimp only [World.after] at found
    rw [enter_byToken] at found
    split at found
    · next same => exact Option.some.inj found ▸ same.symm
    · exact h.keyed id s' found
  · intro k ip found
    dsimp only [World.after] at found ⊢
    rw [applyPeers_served] at found
    rcases GoMap.lookup_insert_cases found with ⟨rfl, _⟩ | ⟨other, old⟩
    · exact ⟨s, AList.lookup_insert _, rfl, by rw [enter_byToken, if_pos rfl]⟩
    · obtain ⟨s', installed, key, session⟩ := h.peers k ip old
      exact ⟨s', by rw [AList.lookup_insert_ne other, installed], key, stays session⟩
  · intro id r found
    dsimp only [World.after, Controller.stored] at found ⊢
    cases store : w.ctl.db with
    | false =>
      -- without a store the rows are untouched, and there are none
      rw [store] at found
      exact absurd ((h.rows id r found).1.symm.trans store) (by decide)
    | true =>
      rw [store] at found
      refine ⟨rfl, fun unrevoked => ?_⟩
      by_cases same : id = s.tokenID
      · rw [enter_byToken, if_pos same]
        rfl
      · have old : w.rows.lookup id = some r := (lookup_upsertClient w.rows _ same).symm.trans found
        obtain ⟨s', session⟩ := Option.isSome_iff_exists.mp ((h.rows id r old).2 unrevoked)
        rw [stays session]
        rfl

theorem tidy_authorize {call : Call} {clientPubkey endpoint : String}
    (calm : Calm text w (.control (.authorize call clientPubkey endpoint))) :
    Tidy keyOf text (step keyOf text w (.control (.authorize call clientPubkey endpoint))) := by
  obtain ⟨leased, exact⟩ := leased_step h calm
  rw [AddressLeases.step] at leased exact
  rw [step]
  rcases w.ctl.authorize_cases text call clientPubkey endpoint with
    ⟨e, next, refused, _⟩ | ⟨tok, off, next, s, reaches, lapsed, free, opened, outcome⟩
  · rw [refused] at leased exact ⊢
    exact h.keep leased exact rfl fun _ => rfl
  · have token : s.tokenID = tok.id := by rw [opened]; rfl
    have key : s.clientPubkey = clientPubkey := by rw [opened]; rfl
    have absent : w.ctl.ses.byToken.lookup s.tokenID = none := by
      rw [token]
      exact (absent_iff_unlapsed lapsed).mpr (calm tok reaches)
    rcases outcome with ⟨_, served⟩ | ⟨_, e, abandoned⟩
    · rw [served] at leased exact ⊢
      rw [← key]
      exact h.serve endpoint call.installedAt absent leased exact
    · rw [abandoned] at leased exact ⊢
      refine h.keep leased exact rfl fun id => ?_
      dsimp only
      rw [revoke_byToken, enter_byToken]
      split
      · next here => rw [here, absent]
      · rfl

variable {now : Time}

theorem tidy_revoke {tokenID : String} (calm : Calm text w (.control (.revoke now tokenID))) :
    Tidy keyOf text (step keyOf text w (.control (.revoke now tokenID))) := by
  obtain ⟨leased, exact⟩ := leased_step h calm
  rw [AddressLeases.step] at leased exact
  rw [step]
  rcases w.ctl.revoke_cases text now tokenID with ⟨e, refused⟩ | ⟨s, found, revoked⟩
  · rw [refused] at leased exact ⊢
    exact h.keep leased exact rfl fun _ => rfl
  · rw [revoked] at leased exact ⊢
    obtain rfl := h.keyed tokenID s found
    have dropped := h.drop [s] leased exact rfl fun id => by
      dsimp only
      rw [revoke_byToken]
      by_cases same : id = s.tokenID
      · rw [if_pos same, same, found]
        simp [Option.filter]
      · rw [if_neg same]
        cases other : w.ctl.ses.byToken.lookup id with
        | none => rfl
        | some s' =>
          have differs : s' ≠ s := by
            rintro rfl
            exact same (h.keyed id s' other).symm
          simp [Option.filter, differs]
    rw [List.flatMap_singleton] at dropped
    exact dropped

variable {order : RangeOrder}

theorem tidy_sweep (calm : Calm text w (.control (.sweep now order))) :
    Tidy keyOf text (step keyOf text w (.control (.sweep now order))) := by
  obtain ⟨leased, exact⟩ := leased_step h calm
  refine h.drop (sweepOnce order now w.ctl.ses).1 leased exact rfl fun id => ?_
  have left := sweepOnce_byToken order now w.ctl.ses id
  refine left.trans ?_
  cases found : w.ctl.ses.byToken.lookup id with
  | none => rfl
  | some s =>
    have evicted : s ∈ (sweepOnce order now w.ctl.ses).1 ↔ s.expired now = true := by
      rw [mem_sweepOnce]
      exact ⟨fun ⟨_, _, expired⟩ => expired, fun expired => ⟨id, found, expired⟩⟩
    simp [Option.filter, evicted]

/-- A restart without sessions finds no active row, so it reserves nothing. -/
theorem tidy_restart {cfg : Config} {fakeWG : Bool}
    (calm : Calm text w (.restart cfg fakeWG now order)) :
    Tidy keyOf text (step keyOf text w (.restart cfg fakeWG now order)) := by
  have noRows : (if w.ctl.db then listActive order w.rows else []) = [] := by
    split
    · rw [List.eq_nil_iff_forall_not_mem]
      intro row member
      obtain ⟨id, found⟩ := mem_listActive.mp member
      have active := (h.rows id _ found).2 rfl
      rw [calm id] at active
      cases active
    · rfl
  rw [step, noRows]
  cases started : newController text cfg fakeWG w.ctl.db now [] with
  | error e => exact h
  | ok c =>
    have empty := AddressLeases.byToken_start started
    refine ⟨AddressLeases.wellLeased_start started, AddressLeases.exact_start started, ?_, ?_, ?_⟩
    · intro id s found
      rw [empty id] at found
      cases found
    · intro k ip found
      obtain ⟨s, _, _, session⟩ := h.peers k ip found
      rw [calm] at session
      cases session
    · intro id r found
      obtain ⟨store, active⟩ := h.rows id r found
      refine ⟨(AddressLeases.db_start started).trans store, fun unrevoked => ?_⟩
      have present := active unrevoked
      rw [calm] at present
      cases present

theorem tidy_step {op : Op} (calm : Calm text w op) :
    Tidy keyOf text (step keyOf text w op) := by
  cases op with
  | control op =>
    cases op with
    | authorize call clientPubkey endpoint => exact tidy_authorize h calm
    | revoke now tokenID => exact tidy_revoke h calm
    | sweep now order => exact tidy_sweep h calm
  | setEmergencyDisable disabled =>
    exact h.keep ⟨h.leased.formed, h.leased.sound⟩ h.exact rfl fun _ => rfl
  | restart cfg fakeWG now order => exact tidy_restart h calm

omit h in
theorem inTime_of_swept {id : String} {s : Session}
    (found : (step keyOf text w (.control (.sweep now order))).ctl.ses.byToken.lookup id = some s) :
    ¬ OutOfTime now s := by
  have live : s.expired now = false := (of_sweepOnce found).2
  intro ⟨limited, due⟩
  have expired : s.expired now = true := by
    unfold Session.expired
    split
    · rfl
    · simpa using due
  rw [expired] at live
  cases live

/-- In a tidy world whatever is left after a sweep belongs to a session with time. -/
theorem cleared_sweep (now : Time) (order : RangeOrder) :
    Cleared text now (step keyOf text w (.control (.sweep now order))) := by
  have tidy : Tidy keyOf text (step keyOf text w (.control (.sweep now order))) :=
    tidy_sweep h trivial
  constructor
  · intro k ip s peer installed
    obtain ⟨s', installed', _, session⟩ := tidy.peers k ip peer
    obtain rfl := Option.some.inj (installed.symm.trans installed')
    exact inTime_of_swept session
  · intro s _ _ off _
    by_cases taken : off ∈ (step keyOf text w (.control (.sweep now order))).ctl.ip.used
    · obtain ⟨id, leased⟩ := tidy.exact off taken
      obtain ⟨s', session, address⟩ := AddressLeases.lease_eq_some.mp leased
      exact .inr ⟨id, s', session, inTime_of_swept session, address⟩
    · exact .inl taken

end steps

/-- In every run from a first start, across any restarts and configurations: if no call replaces a
lapsed session that was not swept and every restart finds an empty session table, then after each
sweep no session whose time is up has a peer or holds an address. -/
theorem sweeps_clear {κ : Type} [DecidableEq κ] (keyOf : String → κ) (text : IPText) (cfg : Config)
    (fakeWG db : Bool) (startedAt : Time) (c : Controller)
    (started : newController text cfg fakeWG db startedAt [] = .ok c) (ops : List Op)
    (calm : Run.Along (step keyOf text) (Calm text) (start c) ops) :
    Run.Along (step keyOf text) (SweepClears keyOf text) (start c) ops := by
  have init : Tidy keyOf text (start c) := tidy_start started
  refine Run.along_of_invariant init (fun w op met h => tidy_step h met) ?_ calm
  intro w op _ h
  cases op with
  | control op =>
    cases op with
    | authorize call clientPubkey endpoint => trivial
    | revoke now tokenID => trivial
    | sweep now order => exact cleared_sweep h now order
  | setEmergencyDisable disabled => trivial
  | restart cfg fakeWG now order => trivial

section sample
open Guarantees.AddressLeases (exitConfig exitNode hourCall)

def storedNode : Controller := { exitNode with db := true }

theorem storedNode_started :
    newController IPText.dottedQuad exitConfig true true 0 [] = .ok storedNode :=
  AddressLeases.exitNode_starts 50 true

/-- A session lapses and is swept, and the node restarts. -/
def sweptFirst : List Op :=
  [ .control (.authorize (hourCall 0 (.ok ())) "key" ""),
    .control (.sweep (2 * Duration.minute) .forward),
    .restart exitConfig true (3 * Duration.minute) .forward,
    .control (.sweep (4 * Duration.minute) .backward) ]

theorem sweptFirst_clears :
    Run.Along (step (fun key => key) IPText.dottedQuad)
      (SweepClears (fun key => key) IPText.dottedQuad) (start storedNode) sweptFirst := by
  refine sweeps_clear (fun key => key) IPText.dottedQuad exitConfig true true 0 storedNode
    storedNode_started sweptFirst ⟨?_, trivial, ?_, trivial, trivial⟩
  · intro tok _ existing found
    simp [start, storedNode, exitNode, newManager] at found
  · intro id
    have empty : (Run.run (step (fun key => key) IPText.dottedQuad) (start storedNode)
        (sweptFirst.take 2)).ctl.ses.byToken = ∅ := AList.ext (by decide)
    exact congrArg (AList.lookup id) empty

/-- The node restarts before the session lapses. -/
def restartedFirst : List Op :=
  [ .control (.authorize (hourCall 0 (.ok ())) "key" ""),
    .restart exitConfig true 30 .forward,
    .control (.sweep (2 * Duration.hour) .forward) ]

/-- The peer of the lapsed session is still installed, and its address is taken by
no session. -/
theorem restartedFirst_keeps_peer :
    newController IPText.dottedQuad exitConfig true true 0 [] = .ok storedNode ∧
    (restartedFirst.filterMap Op.time).Pairwise (· ≤ ·) ∧
    (let w := Run.run (step (fun key => key) IPText.dottedQuad) (start storedNode) restartedFirst
    w.peers.entries = [⟨"key", "100.64.0.2"⟩] ∧
      w.opened.map (fun s => (s.assignedIP, s.expiresAt)) = [("100.64.0.2", Duration.minute)] ∧
      w.ctl.ip.used = {2} ∧ w.ctl.ses.byToken.entries = [] ∧
      ¬ Cleared IPText.dottedQuad (2 * Duration.hour) w) := by
  refine ⟨storedNode_started, by decide, by decide, by decide,
    by decide +kernel, by decide, fun cleared => ?_⟩
  have installed : ((Run.run (step (fun key => key) IPText.dottedQuad) (start storedNode)
      restartedFirst).installedFor.lookup "key").map (·.expiresAt) = some Duration.minute := by
    decide
  obtain ⟨s, found, expiry⟩ := Option.map_eq_some_iff.mp installed
  refine cleared.peers "key" "100.64.0.2" s (by decide) found ?_
  rw [OutOfTime, expiry]
  decide

end sample

end VeilNet.Guarantees.Restarts
