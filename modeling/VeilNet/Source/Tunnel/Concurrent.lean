import VeilNet.Source.Tunnel.Engine
import VeilNet.Lib.Threads

/-!
`Start`, `Stop` and the watchdog loop of `internal/tunnel` as tasks. Each section under the lock
is one step, and so are `createBackend`, a probe, the start of the watchdog, and the parts of
`Stop` after its section: it closes the stop channel, waits for the watchdogs and closes the
backend. Backends and stop channels are numbered as they are made.
-/
namespace VeilNet.Source.Tunnel
open Lib

/-- A tick of the watchdog: its time and what the probe then answers. `wins` decides
when the stop channel is closed as well and `select` may take either. -/
structure Tick where
  now : Time
  probed : Probed
  wins : Bool

/-- A call of `Start`, with what its watchdog will meet. -/
structure Launch where
  cfg : WireGuardConfig
  startedAt : Time
  created : Except String Unit
  failedAt : Time
  probed : Probed
  launchedAt : Time
  ticks : List Tick

/-- A call of `Stop`, and how the backend closes. -/
structure Halt where
  now : Time
  closed : Except String Unit

/-- Where a watchdog is, with the ticks to come. -/
inductive Watch where
  | select (lastTick : Time) (ticks : List Tick)
  | wakeRead (tick : Tick) (ticks : List Tick)
  | wakeReset (tick : Tick) (ticks : List Tick)
  | read (tick : Tick) (ticks : List Tick)
  | probe (tick : Tick) (ticks : List Tick)
  | update (tick : Tick) (ticks : List Tick)

/-- What is left of a call or a watchdog. -/
inductive Running where
  | start (call : Launch)
  | create (call : Launch)
  | failing (call : Launch) (text : String)
  | publish (call : Launch) (be : Handle)
  | register (call : Launch)
  | spawn (call : Launch) (channel : Handle)
  | firstProbe (call : Launch)
  | settle (call : Launch)
  | stop (call : Halt)
  | cancel (call : Halt) (channel be : Option Handle)
  | wait (call : Halt) (be : Option Handle)
  | close (call : Halt) (be : Option Handle)
  | returned (err : Option EngineError)
  | watch (channel : Handle) (w : Watch)
  | exited

/-- The engine and what its calls have made: the backends and channels below the
counters, those closed again, and the count of the wait group. -/
structure Shared where
  engine : Engine
  backends : ℕ
  closed : List Handle
  channels : ℕ
  cancelled : List Handle
  live : ℕ

/-- Nothing started yet. -/
def newShared (e : Engine) : Shared := ⟨e, 0, [], 0, [], 0⟩

/-- `wakeGap` of the watchdog loop. -/
def Engine.wakeGap (e : Engine) : Duration := 5 * e.pollInterval + Duration.minute

/-- One turn of the watchdog. -/
def Watch.next (s : Shared) (channel : Handle) : Watch → Shared × Running
  | .select lastTick ticks =>
    match ticks with
    | [] => if channel ∈ s.cancelled then ({ s with live := s.live - 1 }, .exited)
      else (s, .watch channel (.select lastTick []))
    | tick :: rest =>
      if channel ∈ s.cancelled ∧ tick.wins = false then ({ s with live := s.live - 1 }, .exited)
      else if s.engine.wakeGap < tick.now - lastTick then (s, .watch channel (.wakeRead tick rest))
      else (s, .watch channel (.read tick rest))
  | .wakeRead tick rest =>
    (s, .watch channel (if s.engine.backend.isSome then .wakeReset tick rest else .read tick rest))
  | .wakeReset tick rest =>
    ({ s with engine := s.engine.resetRetries }, .watch channel (.read tick rest))
  | .read tick rest =>
    (s, .watch channel (if s.engine.backend.isSome then .probe tick rest
      else .select tick.now rest))
  | .probe tick rest => (s, .watch channel (.update tick rest))
  | .update tick rest =>
    ({ s with engine := s.engine.update tick.now tick.probed },
      .watch channel (.select tick.now rest))

section tasks
variable {Key Addr Net : Type} (x : Parsers Key Addr Net)

def Running.next (s : Shared) : Running → Shared × Running × List Running
  | .start call =>
    match checkConfig x call.cfg with
    | .error err => (s, .returned (some err), [])
    | .ok () =>
      match s.engine.beginStart call.cfg call.startedAt with
      | .error err => (s, .returned (some err), [])
      | .ok e => ({ s with engine := e }, .create call, [])
  | .create call =>
    match call.created with
    | .error text => (s, .failing call text, [])
    | .ok () => ({ s with backends := s.backends + 1 }, .publish call s.backends, [])
  | .failing call text =>
    ({ s with engine := s.engine.fail call.failedAt }, .returned (some (.backend text)), [])
  | .publish call be => ({ s with engine := s.engine.publish be }, .register call, [])
  | .register call =>
    ({ s with engine := s.engine.register s.channels, channels := s.channels + 1 },
      .spawn call s.channels, [])
  | .spawn call channel =>
    ({ s with live := s.live + 1 }, .firstProbe call,
      [.watch channel (.select call.launchedAt call.ticks)])
  | .firstProbe call => (s, .settle call, [])
  | .settle call =>
    ({ s with engine := s.engine.firstProbe call.probed }, .returned none, [])
  | .stop call =>
    ({ s with engine := s.engine.clear call.now }, .cancel call s.engine.cancel s.engine.backend,
      [])
  | .cancel call channel be =>
    ({ s with cancelled := channel.toList ++ s.cancelled }, .wait call be, [])
  | .wait call be => if s.live = 0 then (s, .close call be, []) else (s, .wait call be, [])
  | .close call be =>
    match be with
    | none => (s, .returned none, [])
    | some be =>
      ({ s with closed := be :: s.closed },
        .returned (match call.closed with
          | .ok () => none
          | .error text => some (.backend text)), [])
  | .returned err => (s, .returned err, [])
  | .watch channel w => ((w.next s channel).1, (w.next s channel).2, [])
  | .exited => (s, .exited, [])

abbrev Pool := Threads.Pool Shared Running

def pass : Pool → ℕ → Pool := Threads.fork (Running.next x)

/-- The call as the sequential `Start` sees it. -/
def Launch.starting (call : Launch) (s : Shared) : Starting :=
  ⟨call.cfg, call.startedAt, call.created.map fun _ => s.backends, s.channels, call.probed⟩

/-- `Start` with nothing between its sections is the sequential one. -/
theorem solo_start (s : Shared) (call : Launch) (clock : call.failedAt = call.startedAt) :
    (Run.run (pass x) ⟨s, [.start call]⟩ [0, 0, 0, 0, 0, 0, 0]).shared.engine =
      (s.engine.start x (call.starting s)).2 := by
  unfold Engine.start
  cases checked : checkConfig x call.cfg with
  | error err => simp [pass, Threads.fork, Running.next, Launch.starting, checked]
  | ok u =>
    cases began : s.engine.beginStart call.cfg call.startedAt with
    | error err => simp [pass, Threads.fork, Running.next, Launch.starting, checked, began]
    | ok e =>
      cases created : call.created with
      | error text =>
        simp [pass, Threads.fork, Running.next, Launch.starting, checked, began, created,
          Except.map, clock]
      | ok u =>
        simp [pass, Threads.fork, Running.next, Launch.starting, checked, began, created,
          Except.map]

end tasks

section watchdog
variable (s : Shared) (channel : Handle)

/-- A turn of the watchdog goes on and leaves everything but the engine's own records, or
it finds its channel closed and exits. -/
theorem Watch.next_cases (w : Watch) :
    (∃ e w', (w.next s channel).1 = { s with engine := e } ∧
      (w.next s channel).2 = .watch channel w' ∧ s.engine.Frame e) ∨
    channel ∈ s.cancelled ∧ (w.next s channel).1 = { s with live := s.live - 1 } ∧
      (w.next s channel).2 = .exited := by
  have same : s.engine.Frame s.engine := ⟨rfl, rfl, rfl, rfl, rfl⟩
  cases w with
  | select lastTick ticks =>
    cases ticks with
    | nil =>
      by_cases closed : channel ∈ s.cancelled
      · exact .inr ⟨closed, by simp [Watch.next, closed], by simp [Watch.next, closed]⟩
      · exact .inl ⟨s.engine, .select lastTick [], by simp [Watch.next, closed],
          by simp [Watch.next, closed], same⟩
    | cons tick rest =>
      by_cases ends : channel ∈ s.cancelled ∧ tick.wins = false
      · exact .inr ⟨ends.1, by rw [Watch.next, if_pos ends], by rw [Watch.next, if_pos ends]⟩
      · rw [Watch.next, if_neg ends]
        split
        · exact .inl ⟨s.engine, _, rfl, rfl, same⟩
        · exact .inl ⟨s.engine, _, rfl, rfl, same⟩
  | wakeRead tick rest => exact .inl ⟨s.engine, _, rfl, rfl, same⟩
  | wakeReset tick rest => exact .inl ⟨_, _, rfl, rfl, rfl, rfl, rfl, rfl, rfl⟩
  | read tick rest => exact .inl ⟨s.engine, _, rfl, rfl, same⟩
  | probe tick rest => exact .inl ⟨s.engine, _, rfl, rfl, same⟩
  | update tick rest => exact .inl ⟨_, _, rfl, rfl, s.engine.update_frame tick.now tick.probed⟩

theorem Watch.next_state (w : Watch) (quiet : ∀ tick rest, w ≠ .update tick rest) :
    (w.next s channel).1.engine.state = s.engine.state := by
  cases w with
  | select lastTick ticks =>
    cases ticks with
    | nil =>
      rw [Watch.next]
      split <;> rfl
    | cons tick rest =>
      rw [Watch.next]
      split
      · rfl
      · split <;> rfl
  | update tick rest => exact absurd rfl (quiet tick rest)
  | _ => rfl

end watchdog

end VeilNet.Source.Tunnel
