import VeilNet.Guarantees.Watchdog

/-!
# Up only on a fresh handshake

`Start` takes any handshake of its first probe, however old, and the watchdog leaves a tunnel up
that has lost its handshake within the grace window. On all other paths a tunnel that is up has
just shown a handshake that is not stale.
-/
namespace VeilNet.Guarantees.FreshHandshake
open Lib Source.Tunnel
open Watchdog (Op)

/-- The time of a `Start` or a watchdog step. -/
def judgedAt : Op → Option Time
  | .start call => some call.now
  | .watchdog now _ => some now
  | .stop _ | .applyConfiguration .. | .rotateEndpoint .. | .wake | .wakeDetected => none

/-- The engine, and the last probe of its backend. -/
structure Observed where
  engine : Engine
  probe : Option Probed

def start (now : Time) (pollInterval staleAfter : Duration) (maxRetries : Int) : Observed :=
  ⟨newEngine now pollInterval staleAfter maxRetries, none⟩

section runs
variable {Key Addr Net : Type} (x : Parsers Key Addr Net)

def begins (e : Engine) (call : Starting) : Bool :=
  (checkConfig x call.cfg).isOk && e.backend.isNone && call.created.isOk

def step (s : Observed) (op : Op) : Observed where
  engine := Watchdog.step x s.engine op
  probe :=
    match op with
    | .start call => if begins x s.engine call then some call.probed else s.probe
    | .watchdog _ probed => if s.engine.backend.isSome then some probed else s.probe
    | .stop _ | .applyConfiguration .. | .rotateEndpoint .. | .wake | .wakeDetected => s.probe

variable (s : Observed)

/-- Up means that the last probe succeeded and showed a fresh handshake. -/
def UpIsFresh (now : Time) : Prop :=
  s.engine.state = .up → ∃ p, s.probe = some (.ok p) ∧ s.engine.Fresh now p

def ShownAfter (op : Op) : Prop := ∀ now ∈ judgedAt op, UpIsFresh (step x s op) now

/-- The first probe of a `Start` shows no stale handshake, a `Start` that does not come so far
finds the last probe fresh if the tunnel is up, and a watchdog step finds the tunnel up without a
handshake only after the grace window. -/
def ShownBefore : Op → Prop
  | .start call =>
    if begins x s.engine call then
      ∀ p, call.probed = .ok p → p.handshake ≠ 0 → call.now - p.handshake ≤ s.engine.staleAfter
    else UpIsFresh s call.now
  | .watchdog now probed => s.engine.state = .up →
      ∀ p, probed = .ok p → p.handshake = 0 → s.engine.staleAfter < now - s.engine.since
  | .stop _ | .applyConfiguration .. | .rotateEndpoint .. | .wake | .wakeDetected => True

/-- A tunnel that is up has a backend. -/
def Backed (e : Engine) : Prop := e.state = .up → e.backend.isSome

variable {x}

theorem start_spec (e : Engine) (call : Starting) :
    (begins x e call = true ∧ (e.start x call).2.backend.isSome ∧
      (e.start x call).2.staleAfter = e.staleAfter ∧
      ((e.start x call).2.state = .up ↔ ∃ p, call.probed = .ok p ∧ p.handshake ≠ 0)) ∨
    begins x e call = false ∧
      ((e.start x call).2 = e ∨ (e.start x call).2.state = .failed ∧ e.backend = none) := by
  unfold begins Engine.start
  cases checkConfig x call.cfg with
  | error err => exact .inr ⟨rfl, .inl rfl⟩
  | ok u =>
    simp only [Engine.beginStart]
    cases there : e.backend with
    | some be => simp [Except.isOk, Except.toBool]
    | none =>
      cases call.created with
      | error text => simp [Except.isOk, Except.toBool, Engine.fail, Engine.setLocked]
      | ok be =>
        refine .inl ⟨rfl, ?_⟩
        cases call.probed with
        | error text => simp [Engine.firstProbe, Engine.register, Engine.publish, Engine.setLocked]
        | ok p =>
          by_cases none : p.handshake = 0 <;>
            simp [Engine.firstProbe, Engine.register, Engine.publish, Engine.setLocked,
              Engine.count, none]

theorem backed_step (op : Op) (backed : Backed s.engine) :
    Backed (step x s op).engine := by
  cases op with
  | start call =>
    intro up
    rcases start_spec (x := x) s.engine call with ⟨_, there, _⟩ | ⟨_, same | ⟨failed, _⟩⟩
    · exact there
    · have unchanged : (step x s (.start call)).engine = s.engine := same
      rw [unchanged] at up ⊢
      exact backed up
    · cases up.symm.trans failed
  | stop now => exact nofun
  | applyConfiguration cfg applied =>
    obtain ⟨state, backend⟩ := s.engine.applyConfiguration_frame (x := x) cfg applied
    exact fun up => (congrArg Option.isSome backend).trans (backed (state.symm.trans up))
  | rotateEndpoint endpoint now applied rebound =>
    obtain ⟨state, backend⟩ := s.engine.rotateEndpoint_frame endpoint now applied rebound
    exact fun up => (congrArg Option.isSome backend).trans (backed (state up))
  | wake | wakeDetected =>
    obtain ⟨state, backend⟩ := s.engine.wake_frame
    exact fun up => (congrArg Option.isSome backend).trans (backed (state.symm.trans up))
  | watchdog now probed =>
    intro up
    change (s.engine.step now probed).backend.isSome
    change (s.engine.step now probed).state = .up at up
    unfold Engine.step at up ⊢
    split at up
    · next there =>
      rw [if_pos there, (s.engine.update_frame now probed).backend]
      exact there
    · next absent => exact absurd (backed up) absent

theorem shownAfter_start_iff (call : Starting) (backed : Backed s.engine) :
    UpIsFresh (step x s (.start call)) call.now ↔ ShownBefore x s (.start call) := by
  rcases start_spec (x := x) s.engine call with ⟨comes, _, stale, up⟩ | ⟨refused, unchanged⟩
  · simp only [UpIsFresh, Engine.Fresh, ShownBefore, step, Watchdog.step, comes, if_true, up, stale]
    cases call.probed with
    | error text => simp
    | ok p => by_cases none : p.handshake = 0 <;> simp [none]
  · have probe : (step x s (.start call)).probe = s.probe := by simp [step, refused]
    have before : ShownBefore x s (.start call) ↔ UpIsFresh s call.now := by
      simp [ShownBefore, refused]
    rw [before]
    rcases unchanged with same | ⟨failed, absent⟩
    · have engine : (step x s (.start call)).engine = s.engine := same
      unfold UpIsFresh
      rw [engine, probe]
    · have wasNot : s.engine.state ≠ .up := fun up => by
        have there := backed up
        rw [absent] at there
        cases there
      exact iff_of_true (fun up => by cases up.symm.trans failed) fun up => absurd up wasNot

theorem shownAfter_watchdog_iff (now : Time) (probed : Probed)
    (backed : Backed s.engine) :
    UpIsFresh (step x s (.watchdog now probed)) now ↔ ShownBefore x s (.watchdog now probed) := by
  by_cases there : s.engine.backend.isSome
  · have frame := s.engine.update_frame now probed
    simp only [UpIsFresh, ShownBefore, step, Watchdog.step, Engine.step, there, if_true,
      Engine.update_state_up_iff, Engine.Fresh, frame.staleAfter, Option.some.injEq]
    cases probed with
    | error text => simp
    | ok p =>
      simp only [Except.ok.injEq, exists_eq_left', forall_eq']
      by_cases none : p.handshake = 0
      · simp only [none, ne_eq, not_true_eq_false, false_and, false_or, true_and, imp_false,
          not_and, not_le, forall_const]
      · simp [none]
  · have wasNot : s.engine.state ≠ .up := fun up => there (backed up)
    have unchanged : (step x s (.watchdog now probed)).engine = s.engine := if_neg there
    refine iff_of_true (fun up => ?_) fun up => absurd up wasNot
    rw [unchanged] at up
    exact absurd up wasNot

/-- After a step the tunnel is up on a fresh handshake only, exactly if the step meets
the condition. -/
theorem shownAfter_iff (op : Op) (backed : Backed s.engine) :
    ShownAfter x s op ↔ ShownBefore x s op := by
  cases op with
  | start call =>
    rw [← shownAfter_start_iff s call backed]
    simp [ShownAfter, judgedAt]
  | watchdog now probed =>
    rw [← shownAfter_watchdog_iff s now probed backed]
    simp [ShownAfter, judgedAt]
  | stop now => exact iff_of_true nofun trivial
  | applyConfiguration cfg applied => exact iff_of_true nofun trivial
  | rotateEndpoint endpoint now applied rebound => exact iff_of_true nofun trivial
  | wake | wakeDetected => exact iff_of_true nofun trivial

variable (x)

/-- Over a run of the engine, up means a fresh handshake right after every `Start` and
watchdog step exactly if all of these meet the condition. -/
theorem up_is_fresh_iff (now : Time) (pollInterval staleAfter : Duration) (maxRetries : Int)
    (ops : List Op) :
    Run.Along (step x) (ShownAfter x) (start now pollInterval staleAfter maxRetries) ops ↔
      Run.Along (step x) (ShownBefore x) (start now pollInterval staleAfter maxRetries) ops := by
  have fresh : Backed (start now pollInterval staleAfter maxRetries).engine := nofun
  exact Run.along_iff_along fresh (backed_step (x := x)) shownAfter_iff

end runs

section instances

/-- The tunnel is started, and comes up with its first handshake. -/
def comesUp : List Op :=
  [.start ⟨onePeer, 10 * Duration.minute, .ok 0, 0, .ok ⟨0, 0, 0⟩⟩,
    .watchdog (11 * Duration.minute) (.ok ⟨0, 0, 11 * Duration.minute⟩)]

/-- A minute later a probe succeeds and finds no handshake. -/
def loses : List Op := comesUp ++ [.watchdog (12 * Duration.minute) (.ok ⟨0, 0, 0⟩)]

/-- Up without a handshake, within the grace window of three minutes. -/
theorem up_without_handshake :
    ¬ Run.Along (step .verbatim) (ShownAfter .verbatim)
      (start 0 5000000000 (3 * Duration.minute) 5) loses := by
  intro shown
  have last := shown.2.2.1 (12 * Duration.minute) rfl (by decide)
  obtain ⟨p, probe, here, _⟩ := last
  cases probe
  exact here rfl

end instances

end VeilNet.Guarantees.FreshHandshake
