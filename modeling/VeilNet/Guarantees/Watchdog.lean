import VeilNet.Source.Tunnel.Engine
import VeilNet.Lib.Run

/-!
# The accounts of the watchdog

A poll is fresh, failed or neither. The engine counts the failed ones and gives up when there are
too many in a row. Giving up opens a new grace window, in which a probe without a handshake makes
the tunnel connecting again.
-/
namespace VeilNet.Guarantees.Watchdog
open Lib Source.Tunnel

inductive Op where
  | start (call : Starting)
  | stop (now : Time)
  | applyConfiguration (cfg : WireGuardConfig) (applied : Except String Unit)
  | rotateEndpoint (endpoint : String) (now : Time) (applied rebound : Except String Unit)
  | wake
  | wakeDetected
  | watchdog (now : Time) (probed : Probed)

inductive Verdict where
  | fresh | failed | none
  deriving DecidableEq

/-- What a poll shows. It has failed if the probe does, if the handshake is stale, and if
there is no handshake after the grace window. -/
def poll (e : Engine) (now : Time) : Probed → Verdict
  | .error _ => .failed
  | .ok p =>
    if e.Fresh now p then .fresh
    else if p.handshake ≠ 0 ∨ e.staleAfter < now - e.since then .failed
    else .none

section runs
variable {Key Addr Net : Type} (x : Parsers Key Addr Net)

def step (e : Engine) : Op → Engine
  | .start call => (e.start x call).2
  | .stop now => e.stop now
  | .applyConfiguration cfg applied => (e.applyConfiguration x cfg applied).2
  | .rotateEndpoint endpoint now applied rebound =>
    (e.rotateEndpoint endpoint now applied rebound).2
  | .wake => e.wake
  | .wakeDetected => e.onWakeDetected
  | .watchdog now probed => e.step now probed

/-- The operations after which the counter starts again: a `Start` that is let in, a
reconfiguration that succeeds, and a wake of a running tunnel. -/
def resets (e : Engine) : Op → Bool
  | .start call => (checkConfig x call.cfg).isOk && e.backend.isNone
  | .stop _ => false
  | .applyConfiguration cfg applied => (e.applyConfiguration x cfg applied).1.isNone
  | .rotateEndpoint endpoint now applied rebound =>
    (e.rotateEndpoint endpoint now applied rebound).1.isNone
  | .wake | .wakeDetected => e.backend.isSome
  | .watchdog .. => false

/-- The operation is a poll of a running tunnel with this verdict. -/
def polls (verdict : Verdict) (e : Engine) : Op → Bool
  | .watchdog now probed => e.backend.isSome && poll e now probed = verdict
  | .start _ | .stop _ | .applyConfiguration .. | .rotateEndpoint .. | .wake | .wakeDetected =>
    false

/-- The end of a history since its last reset and its last fresh handshake, backwards. -/
def recent (history : List (Engine × Op)) : List (Engine × Op) :=
  history.reverse.takeWhile fun entry =>
    !(resets x entry.1 entry.2 || polls .fresh entry.1 entry.2)

def failures (history : List (Engine × Op)) : ℕ :=
  (recent x history).countP fun entry => polls .failed entry.1 entry.2

end runs

/-- A tunnel that is up has no failure on its account. -/
def Steady (e : Engine) : Prop := e.state = .up → e.retries = 0

/-- Only the counters of the device and the time of the handshake have been noted. -/
structure Noted (e e' : Engine) : Prop where
  state : e'.state = e.state
  since : e'.since = e.since
  retries : e'.retries = e.retries
  maxRetries : e'.maxRetries = e.maxRetries
  rx : e.rx ≤ e'.rx
  tx : e.tx ≤ e'.tx

section failures
variable (e : Engine) (now : Time)

theorem noteFailureLocked_retries : (e.noteFailureLocked now).retries = e.retries + 1 := by
  unfold Engine.noteFailureLocked
  dsimp only
  split <;> split <;> rfl

theorem noteFailureLocked_counters :
    (e.noteFailureLocked now).rx = e.rx ∧ (e.noteFailureLocked now).tx = e.tx ∧
      (e.noteFailureLocked now).maxRetries = e.maxRetries := by
  unfold Engine.noteFailureLocked
  dsimp only
  split <;> split <;> exact ⟨rfl, rfl, rfl⟩

theorem noteFailureLocked_failed_iff :
    (e.noteFailureLocked now).state = .failed ↔ e.maxRetries < e.retries + 1 ∨
      e.state = .failed := by
  unfold Engine.noteFailureLocked
  dsimp only
  split
  · next many =>
    refine iff_of_true ?_ (.inl many)
    split
    · next failed => exact failed
    · rfl
  · next few =>
    split
    · next up => simp [Engine.setLocked, few, up]
    · simp [few]

theorem noteFailureLocked_since (failed : (e.noteFailureLocked now).state = .failed) :
    (e.noteFailureLocked now).since = if e.state = .failed then e.since else now := by
  unfold Engine.noteFailureLocked at failed ⊢
  dsimp only at failed ⊢
  split at failed
  · next many =>
    rw [if_pos many]
    split <;> rfl
  · next few =>
    rw [if_neg few]
    split at failed
    · cases failed
    · next other =>
      rw [if_neg other, if_pos failed]

end failures

section polls
variable {e : Engine} {now : Time} {probed : Probed}

theorem le_max_count (a b : UInt64) : a ≤ max a b := by
  change a ≤ if a ≤ b then b else a
  split
  · next le => exact le
  · exact UInt64.le_refl a

theorem noted_count (e : Engine) (p : Probe) : Noted e (e.count p) :=
  ⟨rfl, rfl, rfl, rfl, le_max_count _ _, le_max_count _ _⟩

theorem update_of_failed (verdict : poll e now probed = .failed) :
    ∃ e', Noted e e' ∧ e.update now probed = e'.noteFailureLocked now := by
  cases probed with
  | error text => exact ⟨e, ⟨rfl, rfl, rfl, rfl, UInt64.le_refl _, UInt64.le_refl _⟩, rfl⟩
  | ok p =>
    have counted := noted_count e p
    simp only [poll] at verdict
    split at verdict
    · cases verdict
    · next notFresh =>
      rw [Engine.update_ok, if_neg notFresh]
      split at verdict
      · next late =>
        by_cases none : p.handshake = 0
        · refine ⟨e.count p, counted, ?_⟩
          rw [if_neg (not_not.mpr none), if_pos (late.resolve_left (not_not.mpr none))]
        · refine ⟨{ e.count p with lastHS := p.handshake },
            ⟨counted.state, counted.since, counted.retries, counted.maxRetries, counted.rx,
              counted.tx⟩, ?_⟩
          rw [if_pos none]
      · cases verdict

theorem update_of_fresh (verdict : poll e now probed = .fresh) :
    ∃ p, probed = .ok p ∧ e.Fresh now p ∧ e.update now probed =
      if p.handshake ≤ e.lastHS ∧ e.state = .up then e.count p
      else { e.count p with lastHS := p.handshake, retries := 0 }.setLocked .up e.since := by
  cases probed with
  | error text => cases verdict
  | ok p =>
    simp only [poll] at verdict
    split at verdict
    · next fresh => exact ⟨p, rfl, fresh, by rw [Engine.update_ok, if_pos fresh]⟩
    · split at verdict <;> cases verdict

theorem update_of_none (verdict : poll e now probed = .none) :
    ∃ p, probed = .ok p ∧ p.handshake = 0 ∧ now - e.since ≤ e.staleAfter ∧ e.update now probed =
      if e.state ≠ .connecting ∧ e.state ≠ .up then (e.count p).setLocked .connecting now
      else e.count p := by
  cases probed with
  | error text => cases verdict
  | ok p =>
    simp only [poll] at verdict
    split at verdict
    · cases verdict
    · next notFresh =>
      split at verdict
      · cases verdict
      · next early =>
        obtain ⟨none, within⟩ := not_or.mp early
        refine ⟨p, rfl, not_not.mp none, not_lt.mp within, ?_⟩
        rw [Engine.update_ok, if_neg notFresh, if_neg none, if_neg within]

theorem update_failed_iff : (e.update now probed).state = .failed ↔
    poll e now probed = .failed ∧ (e.maxRetries < e.retries + 1 ∨ e.state = .failed) := by
  cases verdict : poll e now probed with
  | failed =>
    obtain ⟨e', noted, updated⟩ := update_of_failed verdict
    rw [updated, noteFailureLocked_failed_iff, noted.state, noted.maxRetries, noted.retries]
    exact (and_iff_right rfl).symm
  | fresh =>
    obtain ⟨p, _, _, updated⟩ := update_of_fresh verdict
    rw [updated]
    refine iff_of_false ?_ nofun
    split
    · next unchanged =>
      intro failed
      cases failed.symm.trans unchanged.2
    · exact nofun
  | none =>
    obtain ⟨p, _, _, _, updated⟩ := update_of_none verdict
    rw [updated]
    refine iff_of_false ?_ nofun
    split
    · exact nofun
    · next neither =>
      intro failed
      have same : e.state = .failed := failed
      exact neither (by simp [same])

theorem update_since (failed : (e.update now probed).state = .failed) :
    (e.update now probed).since = if e.state = .failed then e.since else now := by
  obtain ⟨e', noted, updated⟩ := update_of_failed (update_failed_iff.mp failed).1
  rw [updated] at failed ⊢
  rw [noteFailureLocked_since e' now failed, noted.state, noted.since]

end polls

/-- What an operation does to the accounts of an engine. -/
structure Account (e e' : Engine) (retries : Int) : Prop where
  retries : e'.retries = retries
  steady : Steady e'
  maxRetries : e'.maxRetries = e.maxRetries
  rx : e.rx ≤ e'.rx
  tx : e.tx ≤ e'.tx

section accounts
variable {e : Engine}

variable (steady : Steady e)
include steady

theorem Account.refl : Account e e e.retries :=
  ⟨rfl, steady, rfl, UInt64.le_refl _, UInt64.le_refl _⟩

omit steady in
theorem account_of_reset {e' : Engine} (retries : e'.retries = 0)
    (maxRetries : e'.maxRetries = e.maxRetries)
    (rx : e.rx ≤ e'.rx) (tx : e.tx ≤ e'.tx) : Account e e' 0 :=
  ⟨retries, fun _ => retries, maxRetries, rx, tx⟩

theorem account_update (now : Time) (probed : Probed) :
    Account e (e.update now probed) (match poll e now probed with
      | .fresh => 0
      | .failed => e.retries + 1
      | .none => e.retries) := by
  cases verdict : poll e now probed with
  | failed =>
    obtain ⟨e', noted, updated⟩ := update_of_failed verdict
    obtain ⟨rx, tx, maxRetries⟩ := noteFailureLocked_counters e' now
    rw [updated]
    refine ⟨?_, fun up => absurd up (e'.noteFailureLocked_state now),
      maxRetries.trans noted.maxRetries, rx ▸ noted.rx, tx ▸ noted.tx⟩
    rw [noteFailureLocked_retries, noted.retries]
  | fresh =>
    obtain ⟨p, _, _, updated⟩ := update_of_fresh verdict
    have noted := noted_count e p
    rw [updated]
    split
    · next unchanged =>
      -- The handshake is the one that the engine knows; nothing is reset, nor has to be.
      exact account_of_reset (noted.retries.trans (steady unchanged.2)) rfl noted.rx noted.tx
    · exact account_of_reset rfl rfl noted.rx noted.tx
  | none =>
    obtain ⟨p, _, _, _, updated⟩ := update_of_none verdict
    have noted := noted_count e p
    rw [updated]
    split
    · exact ⟨rfl, nofun, rfl, noted.rx, noted.tx⟩
    · exact ⟨rfl, steady, rfl, noted.rx, noted.tx⟩

variable {Key Addr Net : Type} {x : Parsers Key Addr Net}

omit steady in
theorem firstProbe_counters (e : Engine) (probed : Probed) :
    (e.firstProbe probed).retries = e.retries ∧ (e.firstProbe probed).maxRetries = e.maxRetries ∧
      e.rx ≤ (e.firstProbe probed).rx ∧ e.tx ≤ (e.firstProbe probed).tx := by
  cases probed with
  | error text => exact ⟨rfl, rfl, UInt64.le_refl _, UInt64.le_refl _⟩
  | ok p =>
    have noted := noted_count e p
    simp only [Engine.firstProbe]
    split <;> exact ⟨rfl, rfl, noted.rx, noted.tx⟩

theorem account_start (call : Starting) :
    Account e (e.start x call).2
      (if (checkConfig x call.cfg).isOk && e.backend.isNone then 0 else e.retries) := by
  unfold Engine.start
  cases checkConfig x call.cfg with
  | error err => exact .refl steady
  | ok u =>
    unfold Engine.beginStart
    cases e.backend with
    | some be => exact .refl steady
    | none =>
      cases call.created with
      | error text => exact account_of_reset rfl rfl (UInt64.le_refl _) (UInt64.le_refl _)
      | ok be =>
        obtain ⟨retries, maxRetries, rx, tx⟩ := firstProbe_counters
          (((({ e with
            cfg := call.cfg, endpoint := call.cfg.primary e.endpoint,
            retries := 0 }).setLocked .connecting call.now).publish be).register call.stop)
          call.probed
        exact account_of_reset retries maxRetries rx tx

theorem account_applyConfiguration (cfg : WireGuardConfig) (applied : Except String Unit) :
    Account e (e.applyConfiguration x cfg applied).2
      (if (e.applyConfiguration x cfg applied).1.isNone then 0 else e.retries) := by
  unfold Engine.applyConfiguration
  split
  · exact .refl steady
  · split
    · exact .refl steady
    · split
      · exact .refl steady
      · exact account_of_reset rfl rfl (UInt64.le_refl _) (UInt64.le_refl _)

theorem account_rotateEndpoint (endpoint : String) (now : Time)
    (applied rebound : Except String Unit) :
    Account e (e.rotateEndpoint endpoint now applied rebound).2
      (if (e.rotateEndpoint endpoint now applied rebound).1.isNone then 0 else e.retries) := by
  unfold Engine.rotateEndpoint
  split
  · exact .refl steady
  · split
    · exact .refl steady
    · split
      · exact .refl steady
      · dsimp only
        split
        · exact ⟨rfl, steady, rfl, UInt64.le_refl _, UInt64.le_refl _⟩
        · exact ⟨rfl, steady, rfl, UInt64.le_refl _, UInt64.le_refl _⟩
        · dsimp only
          split <;> exact account_of_reset rfl rfl (UInt64.le_refl _) (UInt64.le_refl _)

theorem account_wake :
    Account e e.wake (if e.backend.isSome then 0 else e.retries) := by
  unfold Engine.wake
  split
  · exact account_of_reset rfl rfl (UInt64.le_refl _) (UInt64.le_refl _)
  · exact .refl steady

/-- A reset and a fresh handshake clear the counter, a failed poll adds one to it, and
nothing else changes it. -/
theorem account_step (op : Op) :
    Account e (step x e op)
      (if resets x e op || polls .fresh e op then 0
        else if polls .failed e op then e.retries + 1 else e.retries) := by
  cases op with
  | start call => simpa [step, resets, polls] using account_start (x := x) steady call
  | stop now => exact ⟨rfl, nofun, rfl, UInt64.le_refl _, UInt64.le_refl _⟩
  | applyConfiguration cfg applied =>
    simpa [step, resets, polls] using account_applyConfiguration (x := x) steady cfg applied
  | rotateEndpoint endpoint now applied rebound =>
    simpa [step, resets, polls] using account_rotateEndpoint steady endpoint now applied rebound
  | wake => simpa [step, resets, polls] using account_wake steady
  | wakeDetected => simpa [step, resets, polls, Engine.onWakeDetected] using account_wake steady
  | watchdog now probed =>
    have updated := account_update steady now probed
    by_cases running : e.backend.isSome
    · have here : ∀ verdict,
          polls verdict e (.watchdog now probed) = decide (poll e now probed = verdict) := by
        intro verdict
        simp [polls, running]
      have stepped : step x e (.watchdog now probed) = e.update now probed := if_pos running
      simp only [stepped, here, resets]
      cases verdict : poll e now probed <;> simpa [verdict] using updated
    · have here : ∀ verdict, polls verdict e (.watchdog now probed) = false := by
        intro verdict
        simp [polls, running]
      have stepped : step x e (.watchdog now probed) = e := if_neg running
      simp only [stepped, here, resets]
      exact .refl steady

end accounts

section histories
variable {Key Addr Net : Type} {x : Parsers Key Addr Net} {e : Engine}
  {history : List (Engine × Op)} {op : Op}

theorem failures_snoc (history : List (Engine × Op)) (e : Engine) (op : Op) :
    failures x (history ++ [(e, op)]) =
      if resets x e op || polls .fresh e op then 0
      else if polls .failed e op then failures x history + 1 else failures x history := by
  unfold failures recent
  rw [List.reverse_concat, List.takeWhile_cons]
  cases resets x e op || polls .fresh e op with
  | true => rfl
  | false =>
    rw [Bool.not_false, if_pos rfl, List.countP_cons]
    cases polls .failed e op <;> rfl

/-- The counter of the engine is the number of the polls that have failed. -/
theorem retries_eq_failures (steady : Steady e) (clear : e.retries = 0) (ops : List Op) :
    Steady (Run.run (step x) e ops) ∧ (Run.run (step x) e ops).maxRetries = e.maxRetries ∧
      (Run.run (step x) e ops).retries = failures x (Run.trace (step x) e ops) := by
  induction ops using List.reverseRecOn with
  | nil => exact ⟨steady, rfl, clear⟩
  | append_singleton ops op ih =>
    obtain ⟨steady, maxRetries, counted⟩ := ih
    have account := account_step (x := x) steady op
    rw [Run.run_snoc, Run.trace_snoc, failures_snoc, account.retries, counted]
    refine ⟨account.steady, account.maxRetries.trans maxRetries, ?_⟩
    split
    · rfl
    · split <;> rfl

/-- Only a failed poll makes a tunnel failed, and only one too many. -/
theorem maxRetries_lt_of_failed {now : Time} {probed : Probed} (before : e.state ≠ .failed)
    (failed : (e.step now probed).state = .failed) :
    e.maxRetries < (e.step now probed).retries := by
  unfold Engine.step at failed ⊢
  split at failed
  · next running =>
    obtain ⟨verdict, many⟩ := update_failed_iff.mp failed
    obtain ⟨e', noted, updated⟩ := update_of_failed verdict
    rw [if_pos running, updated, noteFailureLocked_retries, noted.retries]
    exact many.resolve_right before
  · exact absurd failed before

end histories

/-- For every run of an engine: a tunnel that is up has no failure on its account; the watchdog
makes a tunnel failed only after more than `maxRetries` failed polls since the last reset and the
last fresh handshake; and the counters of `Statistics` never go back. -/
theorem watchdog_accounts {Key Addr Net : Type} (x : Parsers Key Addr Net) (now : Time)
    (pollInterval staleAfter : Duration) (maxRetries : Int) (ops : List Op) :
    let begin := newEngine now pollInterval staleAfter maxRetries
    Run.Throughout (step x) Steady begin ops ∧
      (∀ now probed, (Run.run (step x) begin ops).state ≠ .failed →
        ((Run.run (step x) begin ops).step now probed).state = .failed →
        maxRetries < failures x (Run.trace (step x) begin (ops ++ [.watchdog now probed]))) ∧
      Run.Along (step x) (fun e op => e.statistics.1 ≤ (step x e op).statistics.1 ∧
        e.statistics.2 ≤ (step x e op).statistics.2) begin ops := by
  intro begin
  have steady : Steady begin := nofun
  refine ⟨?_, ?_, ?_⟩
  · exact Run.throughout_of_step steady fun _ _ steady => (account_step steady _).steady
  · intro now probed before failed
    obtain ⟨_, maximum, _⟩ := retries_eq_failures (x := x) steady rfl ops
    obtain ⟨_, _, counted⟩ := retries_eq_failures (x := x) steady rfl
        (ops ++ [.watchdog now probed])
    have many := maxRetries_lt_of_failed before failed
    rw [maximum] at many
    rw [← counted, Run.run_snoc]
    exact many
  · exact Run.along_of_invariant steady (fun _ _ _ steady => (account_step steady _).steady)
      (fun _ _ _ steady => ⟨(account_step steady _).rx, (account_step steady _).tx⟩)
      (Run.along_of_forall fun _ _ => trivial)

section failed

/-- The operation gives no reason to leave the failed state: it is no `Start`, `Stop` or
rotation, nor a poll with a fresh handshake. -/
def Unhelpful (e : Engine) : Op → Prop
  | .watchdog now probed => poll e now probed ≠ .fresh
  | .applyConfiguration .. | .wake | .wakeDetected => True
  | .start _ | .stop _ | .rotateEndpoint .. => False

/-- A probe that succeeds and shows no handshake comes later than `staleAfter` after
`failedAt`. -/
def PastGrace (failedAt : Time) (staleAfter : Duration) : Op → Prop
  | .watchdog now (.ok p) => p.handshake = 0 → staleAfter < now - failedAt
  | _ => True

/-- Failed since `failedAt`, with a backend. -/
structure FailedAt (failedAt : Time) (staleAfter : Duration) (e : Engine) : Prop where
  state : e.state = .failed
  since : e.since = failedAt
  staleAfter : e.staleAfter = staleAfter
  running : e.backend.isSome = true

variable {e : Engine} {t : Time} {d : Duration} {now : Time} {probed : Probed}

/-- The step that gives up sets the time from which the grace window is measured. -/
theorem failedAt_of_entered (before : e.state ≠ .failed)
    (entered : (e.step now probed).state = .failed) :
    FailedAt now e.staleAfter (e.step now probed) := by
  unfold Engine.step at entered ⊢
  split at entered
  · next running =>
    rw [if_pos running]
    have frame := e.update_frame now probed
    refine ⟨entered, ?_, frame.staleAfter, frame.backend ▸ running⟩
    rw [update_since entered, if_neg before]
  · exact absurd entered before

variable (failed : FailedAt t d e)
include failed

/-- In the failed state, the polls that are neither fresh nor failed are those within the
grace window that the failure has opened. -/
theorem FailedAt.poll_failed_iff (unhelpful : poll e now probed ≠ .fresh) :
    poll e now probed = .failed ↔ PastGrace t d (.watchdog now probed) := by
  cases probed with
  | error text => exact iff_of_true rfl trivial
  | ok p =>
    unfold poll at unhelpful ⊢
    dsimp only at unhelpful ⊢
    split at unhelpful
    · exact absurd rfl unhelpful
    · next notFresh =>
      rw [if_neg notFresh, failed.since, failed.staleAfter]
      have late : p.handshake ≠ 0 ∨ d < now - t ↔ PastGrace t d (.watchdog now (.ok p)) :=
        imp_iff_not_or.symm
      rw [← late]
      split
      · next past => exact iff_of_true rfl past
      · next within => exact iff_of_false nofun within

variable {Key Addr Net : Type} {x : Parsers Key Addr Net} {op : Op}

theorem FailedAt.watchdog_failed_iff (unhelpful : poll e now probed ≠ .fresh) :
    (e.step now probed).state = .failed ↔ PastGrace t d (.watchdog now probed) := by
  unfold Engine.step
  rw [if_pos failed.running, update_failed_iff, failed.poll_failed_iff unhelpful]
  exact and_iff_left (.inr failed.state)

theorem FailedAt.step (unhelpful : Unhelpful e op) (past : PastGrace t d op) :
    FailedAt t d (step x e op) := by
  cases op with
  | watchdog now probed =>
    have still := (failed.watchdog_failed_iff unhelpful).mpr past
    have updated : e.step now probed = e.update now probed := if_pos failed.running
    have frame := e.update_frame now probed
    change FailedAt t d (e.step now probed)
    rw [updated] at still ⊢
    refine ⟨still, ?_, frame.staleAfter.trans failed.staleAfter, frame.backend ▸ failed.running⟩
    rw [update_since still, if_pos failed.state, failed.since]
  | applyConfiguration cfg applied =>
    change FailedAt t d (e.applyConfiguration x cfg applied).2
    unfold Engine.applyConfiguration
    split
    · exact failed
    · split
      · exact failed
      · split
        · exact failed
        · exact ⟨failed.state, failed.since, failed.staleAfter, failed.running⟩
  | wake =>
    change FailedAt t d e.wake
    unfold Engine.wake
    rw [if_pos failed.running]
    exact ⟨failed.state, failed.since, failed.staleAfter, failed.running⟩
  | wakeDetected =>
    change FailedAt t d e.wake
    unfold Engine.wake
    rw [if_pos failed.running]
    exact ⟨failed.state, failed.since, failed.staleAfter, failed.running⟩
  | start call => exact unhelpful.elim
  | stop now => exact unhelpful.elim
  | rotateEndpoint endpoint now applied rebound => exact unhelpful.elim

theorem FailedAt.pastGrace (unhelpful : Unhelpful e op)
    (still : (Watchdog.step x e op).state = .failed) : PastGrace t d op := by
  cases op with
  | watchdog now probed => exact (failed.watchdog_failed_iff unhelpful).mp still
  | start | stop | applyConfiguration | rotateEndpoint | wake | wakeDetected => trivial

end failed

/-- For every engine that the watchdog has just made failed, and every run without `Start`,
`Stop`, a rotation or a poll with a fresh handshake: it stays failed exactly when each probe that
succeeds without a handshake comes after the grace window that the failure has opened. -/
theorem failed_stays_iff {Key Addr Net : Type} (x : Parsers Key Addr Net) (e : Engine)
    (failedAt : Time)
    (probed : Probed) (before : e.state ≠ .failed)
    (entered : (e.step failedAt probed).state = .failed)
    (ops : List Op) (unhelpful : Run.Along (step x) Unhelpful (e.step failedAt probed) ops) :
    Run.Throughout (step x) (fun e => e.state = .failed) (e.step failedAt probed) ops ↔
      ∀ op ∈ ops, PastGrace failedAt e.staleAfter op := by
  have failed := failedAt_of_entered before entered
  rw [← Run.along_iff_forall_mem]
  exact Run.throughout_iff_along_of_stronger failed (fun _ => FailedAt.state)
    (fun _ _ unhelpful failed past => failed.step unhelpful past)
    (fun _ _ unhelpful failed still => failed.pastGrace unhelpful still) unhelpful

section sample

/-- A tunnel with one peer, and a probe that finds no handshake every ten minutes. -/
def silent (count : ℕ) : List Op :=
  .start ⟨⟨"k", [], [], [⟨"a", "1.2.3.4:1", ["10.0.0.0/8"], 25⟩]⟩, 0, .ok 0, 0, .ok ⟨0, 0, 0⟩⟩ ::
    (List.range count).map fun i => .watchdog ((i + 1) * 10 * Duration.minute) (.ok ⟨0, 0, 0⟩)

/-- The engine before the poll that is one too many. -/
def exhausted : Engine :=
  Run.run (step .verbatim) (newEngine 0 (5000000000) (3 * Duration.minute) 5) (silent 5)

/-- The probes keep away from the grace window, and a wake changes nothing: the tunnel
stays failed. -/
theorem rarePolls_stay_failed :
    Run.Throughout (step .verbatim) (fun e => e.state = .failed)
      (exhausted.step (60 * Duration.minute) (.ok ⟨0, 0, 0⟩))
      [.wake, .watchdog (70 * Duration.minute) (.ok ⟨0, 0, 0⟩)] := by
  refine (failed_stays_iff .verbatim exhausted (60 * Duration.minute) (.ok ⟨0, 0, 0⟩)
    (by decide) (by decide)
    [.wake, .watchdog (70 * Duration.minute) (.ok ⟨0, 0, 0⟩)]
    ⟨trivial, show poll _ _ _ ≠ .fresh by decide, trivial⟩).mpr ?_
  intro op member
  rcases List.mem_cons.mp member with rfl | later
  · trivial
  · obtain rfl := List.mem_singleton.mp later
    intro _
    decide

/-- The sixth failed poll makes the tunnel failed. The next one, five seconds later, finds
no handshake either and makes it connecting. -/
theorem nextPoll_reconnects :
    exhausted.state = .connecting ∧
      (exhausted.step (60 * Duration.minute) (.ok ⟨0, 0, 0⟩)).state = .failed ∧
      ((exhausted.step (60 * Duration.minute) (.ok ⟨0, 0, 0⟩)).step
        (60 * Duration.minute + 5000000000) (.ok ⟨0, 0, 0⟩)).state = .connecting := by
  decide

end sample

end VeilNet.Guarantees.Watchdog
