import VeilNet.Source.Nodes.Device
import VeilNet.Guarantees.AddressLeases

/-!
# Active sessions in the store and in memory

The store counts the rows that are neither revoked nor expired, the manager its unexpired
sessions. In a row 0 means no expiry, in a session the zero instant, which is stored as another
number; and the row of a lapsed session stays active when its token comes back and cannot be
served.
-/
namespace VeilNet.Guarantees.ActiveCounts
open Lib Source.Sessions Source.Nodes
open Guarantees.AddressLeases (Op)

structure World where
  ctl : Controller
  rows : GoMap String StoredRow

def start (c : Controller) : World := ⟨c, ∅⟩

def World.after (w : World) (outcome : Controller × List Effect) : World :=
  ⟨outcome.1, applyRows outcome.2 w.rows⟩

def step (text : IPText) (w : World) : Op → World
  | .authorize call clientPubkey endpoint =>
    w.after (w.ctl.authorize text call clientPubkey endpoint).2
  | .revoke now tokenID => w.after (w.ctl.revoke text now tokenID).2
  | .sweep now order => w.after (w.ctl.sweepOnce text order now).2

def Whole (t : ℤ) : Prop := t % 1000000000 = 0

/-- At every whole second, the store and the session manager count alike. -/
def CountsAgree (w : World) : Prop :=
  ∀ now : Time, Whole now → countActive now w.rows = activeCount w.ctl.ses now

/-- A session that the call opens expires at a whole second, if at all. -/
def WholeExpiry (text : IPText) (w : World) : Op → Prop
  | .authorize call .. => ∀ tok, w.ctl.Reaches text call tok →
    Whole (sessionExpiry w.ctl.ses.maxSessionDuration call.now tok)
  | .revoke .. | .sweep .. => True

/-- The instant that is stored as 0. -/
def epoch : ℤ := 62135596800000000000

/-- The call opens a session for this token. -/
def Opens (text : IPText) (c : Controller) (call : Call) (tok : Token) : Prop :=
  c.Reaches text call tok ∧
    ∀ existing, c.ses.byToken.lookup tok.id = some existing → existing.expired call.now = true

/-- A session that is opened and served expires some time, though not at the start of
1970; and one that cannot be served comes in place of no lapsed session. -/
def Countable (text : IPText) (w : World) : Op → Prop
  | .authorize call .. => ∀ tok, Opens text w.ctl call tok →
    (w.ctl.Serves call tok → sessionExpiry w.ctl.ses.maxSessionDuration call.now tok ≠ 0 ∧
      sessionExpiry w.ctl.ses.maxSessionDuration call.now tok ≠ epoch) ∧
    (¬ w.ctl.Serves call tok → w.ctl.ses.byToken.lookup tok.id = none)
  | .revoke .. | .sweep .. => True

section expiries

/-- The expiry of the active row of a token. -/
def rowExpiry (rows : GoMap String StoredRow) (id : String) : Option Time :=
  (rows.lookup id).bind fun r => if r.revoked then none else some r.client.expiresAt

/-- The expiry of the session of a token. -/
def liveExpiry (m : Manager) (id : String) : Option Time := (m.byToken.lookup id).map (·.expiresAt)

/-- An expiry that row and session read alike. -/
structure Ordinary (e : ℤ) : Prop where
  whole : Whole e
  limited : e ≠ 0
  notEpoch : e ≠ epoch

/-- Row and session of a token have the same ordinary expiry, or there is neither. -/
structure Matched (w : World) (id : String) : Prop where
  same : rowExpiry w.rows id = liveExpiry w.ctl.ses id
  ordinary : ∀ e, liveExpiry w.ctl.ses id = some e → Ordinary e

structure Books (w : World) : Prop where
  db : w.ctl.db = true
  keyed : ∀ id s, w.ctl.ses.byToken.lookup id = some s → s.tokenID = id ∧ s.revoked = false
  matched : ∀ id, Matched w id

theorem unixSeconds_eq_zero_iff {e : ℤ} (whole : Whole e) : unixSeconds e = 0 ↔ e = epoch := by
  unfold unixSeconds epoch Whole at *
  omega

variable {now : ℤ}

theorem unixSeconds_lt_iff {e : ℤ} (wholeNow : Whole now) (whole : Whole e) :
    unixSeconds now < unixSeconds e ↔ now < e := by
  unfold unixSeconds Whole at *
  omega

variable {id : String}

theorem mem_keysWhere_counted {rows : GoMap String StoredRow} :
    id ∈ GoMap.keysWhere (StoredRow.counted now) rows ↔
      ∃ e, rowExpiry rows id = some e ∧ (unixSeconds e = 0 ∨ unixSeconds now < unixSeconds e) := by
  rw [GoMap.mem_keysWhere]
  simp only [rowExpiry, Option.bind_eq_some_iff]
  constructor
  · rintro ⟨r, found, counted⟩
    simp only [StoredRow.counted, Bool.and_eq_true, Bool.not_eq_true', Bool.or_eq_true,
      decide_eq_true_eq] at counted
    exact ⟨r.client.expiresAt, ⟨r, found, by simp [counted.1]⟩, counted.2⟩
  · rintro ⟨e, ⟨r, found, active⟩, due⟩
    split at active
    · cases active
    · next unrevoked =>
      cases active
      refine ⟨r, found, ?_⟩
      simp only [StoredRow.counted, Bool.and_eq_true, Bool.not_eq_true', Bool.or_eq_true,
        decide_eq_true_eq]
      exact ⟨by simpa using unrevoked, due⟩

theorem mem_keysWhere_unexpired {m : Manager}
    (unrevoked : ∀ s, m.byToken.lookup id = some s → s.revoked = false) :
    id ∈ GoMap.keysWhere (fun s => !s.expired now) m.byToken ↔
      ∃ e, liveExpiry m id = some e ∧ (e = 0 ∨ now < e) := by
  rw [GoMap.mem_keysWhere]
  simp only [liveExpiry, Option.map_eq_some_iff]
  have unexpired : ∀ s, m.byToken.lookup id = some s →
      ((!s.expired now) = true ↔ s.expiresAt = 0 ∨ now < s.expiresAt) := by
    intro s found
    simp only [Session.expired, unrevoked s found]
    by_cases unlimited : s.expiresAt = 0
    · simp [unlimited]
    · simp [unlimited]
  constructor
  · rintro ⟨s, found, live⟩
    exact ⟨s.expiresAt, ⟨s, found, rfl⟩, (unexpired s found).mp live⟩
  · rintro ⟨_, ⟨s, found, rfl⟩, live⟩
    exact ⟨s, found, (unexpired s found).mpr live⟩

theorem countActive_eq_card (now : Time) (rows : GoMap String StoredRow) :
    countActive now rows = (GoMap.keysWhere (StoredRow.counted now) rows).card :=
  (GoMap.card_keysWhere _ rows).symm

theorem activeCount_eq_card (m : Manager) (now : Time) :
    activeCount m now = (GoMap.keysWhere (fun s => !s.expired now) m.byToken).card := by
  rw [GoMap.card_keysWhere, activeCount, List.countP_eq_length_filter]

theorem Matched.counted_iff {w : World} (matched : Matched w id)
    (unrevoked : ∀ s, w.ctl.ses.byToken.lookup id = some s → s.revoked = false)
    (whole : Whole now) :
    id ∈ GoMap.keysWhere (StoredRow.counted now) w.rows ↔
      id ∈ GoMap.keysWhere (fun s => !s.expired now) w.ctl.ses.byToken := by
  rw [mem_keysWhere_counted, mem_keysWhere_unexpired unrevoked, matched.same]
  refine exists_congr fun e => and_congr_right fun live => ?_
  have ordinary := matched.ordinary e live
  rw [unixSeconds_eq_zero_iff ordinary.whole, unixSeconds_lt_iff whole ordinary.whole,
    or_iff_right ordinary.notEpoch, or_iff_right ordinary.limited]

theorem Books.countsAgree {w : World} (books : Books w) : CountsAgree w := by
  intro now whole
  rw [countActive_eq_card, activeCount_eq_card]
  congr 1
  ext id
  exact (books.matched id).counted_iff (fun s found => (books.keyed id s found).2) whole

/-- If the counts agree and all tokens but one are matched, that one is counted by both
or by neither. -/
theorem counted_iff_of_countsAgree {w : World} (agree : CountsAgree w) {k : String}
    (matched : ∀ id ≠ k, Matched w id)
    (unrevoked : ∀ id s, w.ctl.ses.byToken.lookup id = some s → s.revoked = false)
    (whole : Whole now) :
    (∃ e, rowExpiry w.rows k = some e ∧ (unixSeconds e = 0 ∨ unixSeconds now < unixSeconds e)) ↔
      ∃ e, liveExpiry w.ctl.ses k = some e ∧ (e = 0 ∨ now < e) := by
  have counts := agree now whole
  rw [countActive_eq_card, activeCount_eq_card] at counts
  rw [← mem_keysWhere_counted, ← mem_keysWhere_unexpired (unrevoked k)]
  exact GoMap.mem_iff_of_card_eq (fun id other =>
    (matched id other).counted_iff (unrevoked id) whole) counts

end expiries

section effects
variable {rows : GoMap String StoredRow} {id : String}

theorem wholeSeconds_of_whole {t : ℤ} (whole : Whole t) : wholeSeconds t = t := by
  unfold Whole at whole
  change t / 1000000000 * 1000000000 = t
  omega

theorem rowExpiry_served {c : Controller} (db : c.db = true)
    (clientPubkey assigned endpoint : String) (row : ClientRow) (now : Time) :
    rowExpiry (applyRows (.addPeer clientPubkey assigned endpoint 25 ::
        c.stored [.upsertClient row, .bumpSessionsToday now]) rows) id =
      if id = row.tokenID then some (wholeSeconds row.expiresAt) else rowExpiry rows id := by
  have effects : applyRows (.addPeer clientPubkey assigned endpoint 25 ::
      c.stored [.upsertClient row, .bumpSessionsToday now]) rows =
      applyRow rows (.upsertClient row) := by
    rw [Controller.stored, if_pos db]
    rfl
  rw [effects, rowExpiry]
  by_cases same : id = row.tokenID
  · subst same
    rw [if_pos rfl, applyRow, AList.lookup_insert]
    rfl
  · rw [if_neg same, lookup_upsertClient rows row same, rowExpiry]

theorem rowExpiry_expired (rows : GoMap String StoredRow) (id : String) {c : Controller}
    (db : c.db = true) (gone : List Session) :
    rowExpiry (applyRows (gone.flatMap c.onSessionExpired) rows) id =
      if id ∈ gone.map (·.tokenID) then none else rowExpiry rows id := by
  rw [rowExpiry, lookup_applyRows_expired, rowExpiry]
  by_cases evicted : id ∈ gone.map (·.tokenID)
  · cases found : rows.lookup id with
    | none => simp
    | some r => simp [evicted, db]
  · simp [evicted]

end effects

section steps
variable {text : IPText} {w : World}

theorem books_start {cfg : Config} {fakeWG : Bool} {startedAt : Time} {c : Controller}
    (started : newController text cfg fakeWG true startedAt [] = .ok c) : Books (start c) := by
  have empty := AddressLeases.byToken_start started
  refine ⟨AddressLeases.db_start started, fun id s found => ?_, fun id => ⟨?_, fun e live => ?_⟩⟩
  · rw [start, empty id] at found
    cases found
  · rw [start, liveExpiry, empty id]
    rfl
  · rw [start, liveExpiry, empty id] at live
    cases live

variable {w' : World}

theorem Matched.of_eq {id : String} (matched : Matched w id)
    (row : rowExpiry w'.rows id = rowExpiry w.rows id)
    (live : liveExpiry w'.ctl.ses id = liveExpiry w.ctl.ses id) : Matched w' id := by
  refine ⟨?_, fun e found => matched.ordinary e (live ▸ found)⟩
  rw [row, live]
  exact matched.same

/-- Sessions that leave with their rows leave the rest matched. -/
theorem Books.drop (books : Books w) (left : String → Prop) (db : w'.ctl.db = true)
    (sessions : ∀ id, left id → w'.ctl.ses.byToken.lookup id = w.ctl.ses.byToken.lookup id)
    (kept : ∀ id, left id → rowExpiry w'.rows id = rowExpiry w.rows id)
    (gone : ∀ id, ¬ left id → w'.ctl.ses.byToken.lookup id = none ∧ rowExpiry w'.rows id = none) :
    Books w' := by
  refine ⟨db, fun id s found => ?_, fun id => ?_⟩
  · by_cases stays : left id
    · rw [sessions id stays] at found
      exact books.keyed id s found
    · rw [(gone id stays).1] at found
      cases found
  · by_cases stays : left id
    · have live : liveExpiry w'.ctl.ses id = liveExpiry w.ctl.ses id := by
        rw [liveExpiry, liveExpiry, sessions id stays]
      exact (books.matched id).of_eq (kept id stays) live
    · have live : liveExpiry w'.ctl.ses id = none := by
        rw [liveExpiry, (gone id stays).1]
        rfl
      refine ⟨(gone id stays).2.trans live.symm, fun e found => ?_⟩
      rw [live] at found
      cases found

theorem Books.revoke (books : Books w) (now : Time) (tokenID : String) :
    Books (step text w (.revoke now tokenID)) := by
  rcases w.ctl.revoke_cases text now tokenID with ⟨e, refused⟩ | ⟨s, found, revoked⟩
  · simp only [step, refused]
    exact books
  · simp only [step, revoked]
    have effects : ∀ id, rowExpiry (applyRows
        (.removePeer s.clientPubkey :: w.ctl.stored [.revokeClient tokenID]) w.rows) id =
        if id = tokenID then none else rowExpiry w.rows id := by
      intro id
      have one := rowExpiry_expired w.rows id books.db [s]
      have named := (books.keyed tokenID s found).1
      simpa [Controller.onSessionExpired, named] using one
    refine books.drop (fun id => id ≠ tokenID) books.db ?_ ?_ ?_
    · intro id other
      exact (revoke_byToken now w.ctl.ses tokenID id).trans (if_neg other)
    · intro id other
      exact (effects id).trans (if_neg other)
    · intro id same
      exact ⟨(revoke_byToken now w.ctl.ses tokenID id).trans (if_pos (not_not.mp same)),
        (effects id).trans (if_pos (not_not.mp same))⟩

theorem Books.sweep (books : Books w) (now : Time) (order : RangeOrder) :
    Books (step text w (.sweep now order)) := by
  have gone : ∀ id, id ∈ (sweepOnce order now w.ctl.ses).1.map (·.tokenID) ↔
      ∃ s, w.ctl.ses.byToken.lookup id = some s ∧ s.expired now = true := by
    intro id
    simp only [List.mem_map, mem_sweepOnce]
    constructor
    · rintro ⟨s, ⟨key, found, expired⟩, rfl⟩
      rw [(books.keyed key s found).1]
      exact ⟨s, found, expired⟩
    · rintro ⟨s, found, expired⟩
      exact ⟨s, ⟨id, found, expired⟩, (books.keyed id s found).1⟩
  have rows : ∀ id, rowExpiry (applyRows
      ((sweepOnce order now w.ctl.ses).1.flatMap w.ctl.onSessionExpired) w.rows) id =
      if id ∈ (sweepOnce order now w.ctl.ses).1.map (·.tokenID) then none
      else rowExpiry w.rows id := fun id => rowExpiry_expired w.rows id books.db _
  refine books.drop (fun id => id ∉ (sweepOnce order now w.ctl.ses).1.map (·.tokenID)) books.db
    ?_ ?_ ?_
  · exact fun id stays => sweepOnce_live fun lapsed => stays ((gone id).mpr lapsed)
  · intro id stays
    exact (rows id).trans (if_neg stays)
  · intro id leaves
    exact ⟨sweepOnce_lapsed ((gone id).mp (not_not.mp leaves)),
      (rows id).trans (if_pos (not_not.mp leaves))⟩

/-- What a call that opens a session leaves: other tokens are matched; the token's row and session
are there if the session is served, and else the session is gone and the row as it was. -/
structure Opened (text : IPText) (call : Call) (w w' : World) (tok : Token) : Prop where
  opens : Opens text w.ctl call tok
  db : w'.ctl.db = true
  keyed : ∀ id s, w'.ctl.ses.byToken.lookup id = some s → s.tokenID = id ∧ s.revoked = false
  others : ∀ id ≠ tok.id, Matched w' id
  served : w.ctl.Serves call tok →
    rowExpiry w'.rows tok.id =
      some (wholeSeconds (sessionExpiry w.ctl.ses.maxSessionDuration call.now tok)) ∧
    liveExpiry w'.ctl.ses tok.id = some (sessionExpiry w.ctl.ses.maxSessionDuration call.now tok)
  unserved : ¬ w.ctl.Serves call tok →
    rowExpiry w'.rows tok.id = rowExpiry w.rows tok.id ∧ liveExpiry w'.ctl.ses tok.id = none

/-- A call that opens a session changes one token: its session is then `entry`, if there is one,
and its row holds `row`. -/
theorem Books.opened (books : Books w) {call : Call} {tok : Token} (entry : Option Session)
    (row : Option Time) (opens : Opens text w.ctl call tok) (db : w'.ctl.db = w.ctl.db)
    (sessions : ∀ id, w'.ctl.ses.byToken.lookup id =
      if id = tok.id then entry else w.ctl.ses.byToken.lookup id)
    (rows : ∀ id, rowExpiry w'.rows id = if id = tok.id then row else rowExpiry w.rows id)
    (keyed : ∀ s ∈ entry, s.tokenID = tok.id ∧ s.revoked = false)
    (served : w.ctl.Serves call tok →
      row = some (wholeSeconds (sessionExpiry w.ctl.ses.maxSessionDuration call.now tok)) ∧
      entry.map (·.expiresAt) = some (sessionExpiry w.ctl.ses.maxSessionDuration call.now tok))
    (unserved : ¬ w.ctl.Serves call tok →
      row = rowExpiry w.rows tok.id ∧ entry.map (·.expiresAt) = none) :
    Opened text call w w' tok := by
  have live : ∀ id, liveExpiry w'.ctl.ses id =
      if id = tok.id then entry.map (·.expiresAt) else liveExpiry w.ctl.ses id := by
    intro id
    rw [liveExpiry, sessions, apply_ite (Option.map _)]
    rfl
  constructor
  case opens => exact opens
  case db => exact db.trans books.db
  case keyed =>
    intro id s found
    rw [sessions] at found
    split at found
    · next same =>
      rw [same]
      exact keyed s found
    · exact books.keyed id s found
  case others =>
    intro id other
    exact (books.matched id).of_eq ((rows id).trans (if_neg other)) ((live id).trans (if_neg other))
  all_goals
    rw [rows, live, if_pos rfl, if_pos rfl]
    assumption

theorem Books.authorize_cases (books : Books w) (call : Call) (clientPubkey endpoint : String) :
    (∀ tok, ¬ Opens text w.ctl call tok) ∧
        Books (step text w (.authorize call clientPubkey endpoint)) ∨
      ∃ tok, Opened text call w (step text w (.authorize call clientPubkey endpoint)) tok := by
  rcases w.ctl.authorize_cases text call clientPubkey endpoint with
    ⟨e, next, refused, active⟩ | ⟨tok, off, next, s, reaches, lapsed, free, opened, outcome⟩
  · left
    constructor
    · intro tok opens
      obtain ⟨existing, found, live⟩ := active tok opens.1
      rw [opens.2 existing found] at live
      cases live
    · simp only [step, refused]
      exact ⟨books.db, books.keyed, fun id => (books.matched id).of_eq rfl rfl⟩
  · right
    refine ⟨tok, ?_⟩
    have tokenID : s.tokenID = tok.id := by rw [opened, openSession]
    rcases outcome with ⟨serves, served⟩ | ⟨unserved, e, abandoned⟩
    · simp only [step, served]
      refine books.opened (some s) (some (wholeSeconds s.expiresAt)) ⟨reaches, lapsed⟩ rfl ?_ ?_ ?_
        ?_ fun unserved => absurd serves unserved
      · intro id
        rw [← tokenID]
        exact enter_byToken _ s id
      · intro id
        rw [← tokenID]
        exact rowExpiry_served books.db clientPubkey s.assignedIP endpoint _ call.installedAt
      · rintro _ ⟨⟩
        rw [opened, openSession]
        exact ⟨rfl, rfl⟩
      · intro _
        rw [opened, openSession]
        exact ⟨rfl, rfl⟩
    · simp only [step, abandoned]
      refine books.opened none (rowExpiry w.rows tok.id) ⟨reaches, lapsed⟩ rfl ?_ ?_ ?_
        (fun serves => absurd serves unserved) fun _ => ⟨rfl, rfl⟩
      · intro id
        dsimp only [World.after]
        rw [revoke_byToken, enter_byToken, tokenID]
        split
        · rfl
        · rfl
      · intro id
        split
        · next same => rw [same]; rfl
        · rfl
      · rintro _ ⟨⟩

section opened
variable {call : Call} {w' : World} {tok : Token}

variable (opened : Opened text call w w' tok)
include opened

/-- The call opens at most one session: its token is the one validated. -/
theorem Opened.eq_of_opens {tok' : Token} (opens : Opens text w.ctl call tok') : tok' = tok :=
  Except.ok.inj (opens.1.2.2.1.symm.trans opened.opens.1.2.2.1)

theorem Opened.books (books : Books w)
    (whole : Whole (sessionExpiry w.ctl.ses.maxSessionDuration call.now tok))
    (limited : w.ctl.Serves call tok → sessionExpiry w.ctl.ses.maxSessionDuration call.now tok ≠ 0 ∧
      sessionExpiry w.ctl.ses.maxSessionDuration call.now tok ≠ epoch)
    (fresh : ¬ w.ctl.Serves call tok → w.ctl.ses.byToken.lookup tok.id = none) : Books w' := by
  refine ⟨opened.db, opened.keyed, fun id => ?_⟩
  by_cases same : id = tok.id
  · subst same
    by_cases serves : w.ctl.Serves call tok
    · obtain ⟨row, live⟩ := opened.served serves
      refine ⟨?_, fun e found => ?_⟩
      · rw [row, live, wholeSeconds_of_whole whole]
      · obtain rfl := Option.some.inj (live.symm.trans found)
        exact ⟨whole, (limited serves).1, (limited serves).2⟩
    · obtain ⟨row, live⟩ := opened.unserved serves
      have absent : liveExpiry w.ctl.ses tok.id = none := by
        rw [liveExpiry, fresh serves]
        rfl
      refine ⟨?_, fun e found => ?_⟩
      · rw [row, live, (books.matched tok.id).same, absent]
      · cases live.symm.trans found
  · exact opened.others id same

theorem Opened.counted_iff (agree : CountsAgree w') (now : ℤ) (whole : Whole now) :
    (∃ e, rowExpiry w'.rows tok.id = some e ∧
        (unixSeconds e = 0 ∨ unixSeconds now < unixSeconds e)) ↔
      ∃ e, liveExpiry w'.ctl.ses tok.id = some e ∧ (e = 0 ∨ now < e) :=
  counted_iff_of_countsAgree agree opened.others
    (fun id s found => (opened.keyed id s found).2) whole

/-- A session without expiry is not counted by the store at the zero instant, and one that
expires at the instant stored as 0 is still counted then. -/
theorem Opened.limited (agree : CountsAgree w')
    (whole : Whole (sessionExpiry w.ctl.ses.maxSessionDuration call.now tok))
    (serves : w.ctl.Serves call tok) :
    sessionExpiry w.ctl.ses.maxSessionDuration call.now tok ≠ 0 ∧
      sessionExpiry w.ctl.ses.maxSessionDuration call.now tok ≠ epoch := by
  obtain ⟨row, live⟩ := opened.served serves
  rw [wholeSeconds_of_whole whole] at row
  constructor
  · intro unlimited
    rw [unlimited] at row live
    obtain ⟨e, found, due⟩ := (opened.counted_iff agree 0 rfl).mpr ⟨0, live, .inl rfl⟩
    obtain rfl := Option.some.inj (row.symm.trans found)
    revert due
    decide
  · intro atEpoch
    rw [atEpoch] at row live
    obtain ⟨e, found, due⟩ := (opened.counted_iff agree epoch rfl).mp ⟨epoch, row, .inl rfl⟩
    obtain rfl := Option.some.inj (live.symm.trans found)
    revert due
    decide

/-- The row of a lapsed session that is overwritten and then abandoned is still counted
at the times before it expired. -/
theorem Opened.fresh (books : Books w) (agree : CountsAgree w')
    (unserved : ¬ w.ctl.Serves call tok) : w.ctl.ses.byToken.lookup tok.id = none := by
  obtain ⟨row, gone⟩ := opened.unserved unserved
  cases found : w.ctl.ses.byToken.lookup tok.id with
  | none => rfl
  | some existing =>
    exfalso
    have matched := books.matched tok.id
    have live : liveExpiry w.ctl.ses tok.id = some existing.expiresAt := by
      rw [liveExpiry, found]
      rfl
    have whole := (matched.ordinary _ live).whole
    rw [matched.same, live] at row
    have before : Whole ((existing.expiresAt : ℤ) - 1000000000) := by
      unfold Whole at *
      omega
    obtain ⟨e, still, _⟩ := (opened.counted_iff agree _ before).mp
      ⟨_, row, .inr ((unixSeconds_lt_iff before whole).mpr (by omega))⟩
    cases gone.symm.trans still

end opened

theorem Books.step (books : Books w) {op : Op} (whole : WholeExpiry text w op)
    (countable : Countable text w op) : Books (step text w op) := by
  cases op with
  | authorize call clientPubkey endpoint =>
    rcases books.authorize_cases call clientPubkey endpoint with ⟨_, kept⟩ | ⟨tok, opened⟩
    · exact kept
    · obtain ⟨limited, fresh⟩ := countable tok opened.opens
      exact opened.books books (whole tok opened.opens.1) limited fresh
  | revoke now tokenID => exact books.revoke now tokenID
  | sweep now order => exact books.sweep now order

theorem Books.countable (books : Books w) {op : Op} (whole : WholeExpiry text w op)
    (agree : CountsAgree (ActiveCounts.step text w op)) : Countable text w op := by
  cases op with
  | authorize call clientPubkey endpoint =>
    intro tok opens
    rcases books.authorize_cases call clientPubkey endpoint with ⟨refused, _⟩ | ⟨tok', opened⟩
    · exact absurd opens (refused tok)
    · obtain rfl := opened.eq_of_opens opens
      exact ⟨opened.limited agree (whole tok opens.1), opened.fresh books agree⟩
  | revoke now tokenID => trivial
  | sweep now order => trivial

end steps

/-- In every run over a store that is empty at first, with expiries at whole seconds if at all:
store and manager count the same active sessions at every whole second, in every state, exactly
when every session that is served expires some time, though not at the start of 1970, and none
that cannot be served replaces a lapsed one. -/
theorem counts_agree_iff (text : IPText) (cfg : Config) (fakeWG : Bool) (startedAt : Time)
    (c : Controller) (started : newController text cfg fakeWG true startedAt [] = .ok c)
    (ops : List Op) (whole : Run.Along (step text) (WholeExpiry text) (start c) ops) :
    Run.Throughout (step text) CountsAgree (start c) ops ↔
      Run.Along (step text) (Countable text) (start c) ops :=
  Run.throughout_iff_along_of_stronger (books_start started) (fun _ => Books.countsAgree)
    (fun _ _ whole books countable => books.step whole countable)
    (fun _ _ whole books agree => books.countable whole agree) whole

section sample

/-- The session of a one-minute node is opened, lapses and is swept. -/
theorem sweptSession_counts_agree :
    newController IPText.dottedQuad AddressLeases.exitConfig true true 0 [] =
        .ok { AddressLeases.exitNode with db := true } ∧
      Run.Throughout (step IPText.dottedQuad) CountsAgree
        (start { AddressLeases.exitNode with db := true })
        [ .authorize (AddressLeases.hourCall 0 (.ok ())) "key" "",
          .sweep (2 * Duration.minute) .forward ] := by
  refine ⟨AddressLeases.exitNode_starts 50 true,
    (counts_agree_iff _ _ _ _ _ (AddressLeases.exitNode_starts 50 true) _ ?_).mpr ?_⟩
  · refine ⟨fun tok reaches => ?_, trivial, trivial⟩
    obtain rfl := Except.ok.inj reaches.2.2.1
    rfl
  · refine ⟨fun tok opens => ?_, trivial, trivial⟩
    obtain rfl := Except.ok.inj opens.1.2.2.1
    exact ⟨fun _ => by decide, fun _ => rfl⟩

/-- A node that sets no limit to its sessions. -/
def openConfig : Config := { AddressLeases.exitConfig with maxSessionMinutes := 0 }

def openNode : Controller :=
  { AddressLeases.exitNode with cfg := openConfig, db := true, ses := newManager 0 }

def lastingCall (now : Time) : Call :=
  { AddressLeases.hourCall now (.ok ()) with
    validated := .ok ⟨"t", "n", "s", 0, scopeExit, "t.secret"⟩ }

def today : Time := 63900000000000000000

/-- A session without expiry is counted in memory and not in the store. -/
theorem lastingSession_not_counted :
    newController IPText.dottedQuad openConfig true true 0 [] = .ok openNode ∧
    Run.Along (step IPText.dottedQuad) (WholeExpiry IPText.dottedQuad) (start openNode)
      [ .authorize (lastingCall today) "key" "" ] ∧
    countActive today (step IPText.dottedQuad (start openNode)
      (.authorize (lastingCall today) "key" "")).rows = 0 ∧
    activeCount (step IPText.dottedQuad (start openNode)
      (.authorize (lastingCall today) "key" "")).ctl.ses today = 1 := by
  refine ⟨?_, ⟨fun tok reaches => ?_, trivial⟩, ?_, ?_⟩
  · have pool : IPAM.newIPAM IPText.dottedQuad openConfig.cgnatIP openConfig.cgnatMask =
        some openNode.ip := by decide
    have cap : openConfig.maxSessionDuration = 0 := by decide
    simp only [newController, pool, cap, restore, List.foldl_nil]
    rfl
  · obtain rfl := Except.ok.inj reaches.2.2.1
    rfl
  · decide
  · decide

end sample

end VeilNet.Guarantees.ActiveCounts
