import VeilNet.Source.Tunnel.Config
import VeilNet.Lib.GoTime

/-!
The tunnel engine: `internal/tunnel/engine.go` and the watchdog step of `monitor.go`, cut at the
sections under its lock so that sequential and interleaved calls share their parts. A call carries
the clock and the answers of the backend. A `Handle` is the identity of a backend or of a stop
channel. What only passes through is left out: the interface name, the ports, the factories, the
backend report and the wake hook.

`retries` is unbounded, since an `int` overflows after 2^63 polls only. Times are subtracted
exactly: the saturating `Sub` compares differently only if `staleAfter` is the largest duration.
-/
namespace VeilNet.Source.Tunnel
open Lib Lib.Outcome

inductive State where
  | down | connecting | up | failed
  deriving DecidableEq

abbrev Handle := ℕ

/-- What `probe` returns; a handshake at the zero time is none. -/
structure Probe where
  rx : UInt64
  tx : UInt64
  handshake : Time

abbrev Probed := Except String Probe

inductive EngineError where
  | config (cause : ConfigError)
  | alreadyStarted | notStarted
  | emptyEndpoint | noPeersToRotate
  | backend (text : String)
  | rebind (text : String)
  deriving DecidableEq

structure Engine where
  state : State
  since : Time
  cfg : WireGuardConfig
  endpoint : String
  lastHS : Time
  rx : UInt64
  tx : UInt64
  pollInterval : Duration
  staleAfter : Duration
  maxRetries : Int
  backend : Option Handle
  cancel : Option Handle
  retries : Int

/-- `New`, with the options that the state machine reads. -/
def newEngine (now : Time) (pollInterval staleAfter : Duration) (maxRetries : Int) : Engine :=
  { state := .down, since := now, cfg := ⟨"", [], [], []⟩, endpoint := "", lastHS := 0, rx := 0,
    tx := 0, pollInterval, staleAfter, maxRetries, backend := none, cancel := none, retries := 0 }

/-- `if len(cfg.Peers) > 0 { e.endpoint = cfg.Peers[0].Endpoint }`. -/
def WireGuardConfig.primary (cfg : WireGuardConfig) (endpoint : String) : String :=
  match cfg.peers with
  | [] => endpoint
  | p :: _ => p.endpoint

/-- `cfg.Peers[0].Endpoint = endpoint`. -/
def WireGuardConfig.redirect (cfg : WireGuardConfig) (endpoint : String) : WireGuardConfig :=
  { cfg with peers := match cfg.peers with
      | [] => []
      | p :: rest => { p with endpoint } :: rest }

namespace Engine

variable (e : Engine)

def setLocked (s : State) (t : Time) : Engine := { e with state := s, since := t }

/-- The first section of `Start`. -/
def beginStart (cfg : WireGuardConfig) (now : Time) : Except EngineError Engine :=
  if e.backend.isSome then .error .alreadyStarted
  else .ok ({ e with cfg, endpoint := cfg.primary e.endpoint, retries := 0 }.setLocked .connecting
    now)

def fail (now : Time) : Engine := e.setLocked .failed now

def publish (be : Handle) : Engine := { e with backend := some be }

def register (stop : Handle) : Engine := { e with cancel := some stop }

/-- Counters never go back. -/
def count (p : Probe) : Engine := { e with rx := max e.rx p.rx, tx := max e.tx p.tx }

/-- The last section of `Start`. -/
def firstProbe : Probed → Engine
  | .error _ => e
  | .ok p =>
    if p.handshake = 0 then e.count p
    else { e.count p with lastHS := p.handshake }.setLocked .up e.since

/-- The section of `Stop`. -/
def clear (now : Time) : Engine :=
  { e with cancel := none, backend := none }.setLocked .down now

def noteFailureLocked (now : Time) : Engine :=
  let e := { e with retries := e.retries + 1 }
  if e.maxRetries < e.retries then
    if e.state = .failed then e else e.setLocked .failed now
  else if e.state = .up then e.setLocked .connecting now
  else e

/-- The outcome of the rebind is ignored. -/
def recoverLocked (now : Time) : Engine := e.noteFailureLocked now

/-- The locked part of the watchdog's `step`. -/
def update (now : Time) : Probed → Engine
  | .error _ => e.noteFailureLocked now
  | .ok p =>
    let e := e.count p
    if p.handshake ≠ 0 ∧ now - p.handshake ≤ e.staleAfter then
      if p.handshake ≤ e.lastHS ∧ e.state = .up then e
      else { e with lastHS := p.handshake, retries := 0 }.setLocked .up e.since
    else if p.handshake ≠ 0 then { e with lastHS := p.handshake }.recoverLocked now
    else if e.staleAfter < now - e.since then e.recoverLocked now
    else if e.state ≠ .connecting ∧ e.state ≠ .up then e.setLocked .connecting now
    else e

/-- The locked part of `Wake`, and of the watchdog on a jump of the clock. -/
def resetRetries : Engine := { e with retries := 0 }

end Engine

/-- A call of `Start`: its argument, the clock, what `createBackend` answers, the channel
it makes and the first probe. -/
structure Starting where
  cfg : WireGuardConfig
  now : Time
  created : Except String Handle
  stop : Handle
  probed : Probed

section calls
variable {Key Addr Net : Type} (x : Parsers Key Addr Net)

/-- The check of a configuration that `Start` and `ApplyConfiguration` begin with. -/
def checkConfig (cfg : WireGuardConfig) : Except EngineError Unit :=
  (validate x (toWireguard cfg 0)).mapError .config

namespace Engine

variable (e : Engine)

/-- `Start` without interruption. -/
def start (call : Starting) : Option EngineError × Engine :=
  match checkConfig x call.cfg with
  | .error err => (some err, e)
  | .ok () =>
    match e.beginStart call.cfg call.now with
    | .error err => (some err, e)
    | .ok e =>
      match call.created with
      | .error text => (some (.backend text), e.fail call.now)
      | .ok be => (none, ((e.publish be).register call.stop).firstProbe call.probed)

def stop (now : Time) : Engine := e.clear now

def step (now : Time) (probed : Probed) : Engine :=
  if e.backend.isSome then e.update now probed else e

def applyConfiguration (cfg : WireGuardConfig) (applied : Except String Unit) :
    Option EngineError × Engine :=
  match checkConfig x cfg with
  | .error err => (some err, e)
  | .ok () =>
    if e.backend.isNone then (some .notStarted, e)
    else
      match applied with
      | .error text => (some (.backend text), e)
      | .ok () => (none, { e with cfg, endpoint := cfg.primary e.endpoint, retries := 0 })

/-- The peers of `e.cfg` are edited in place, so the new endpoint stands there even when
the backend refuses it. -/
def rotateEndpoint (endpoint : String) (now : Time) (applied rebound : Except String Unit) :
    Option EngineError × Engine :=
  if endpoint = "" then (some .emptyEndpoint, e)
  else if e.backend.isNone then (some .notStarted, e)
  else if e.cfg.peers = [] then (some .noPeersToRotate, e)
  else
    let e := { e with cfg := e.cfg.redirect endpoint }
    match applied, rebound with
    | .error text, _ => (some (.backend text), e)
    | .ok (), .error text => (some (.rebind text), e)
    | .ok (), .ok () =>
      let e := { e with endpoint, retries := 0 }
      (none, if e.state = .failed then e.setLocked .connecting now else e)

def wake : Engine := if e.backend.isSome then e.resetRetries else e

/-- The watchdog on a jump of the clock, with the body of `Wake`. -/
def onWakeDetected : Engine := e.wake

def statistics : UInt64 × UInt64 := (e.rx, e.tx)

end Engine

end calls

namespace Engine

/-- The parts that the watchdog never changes. -/
structure Frame (e e' : Engine) : Prop where
  cfg : e'.cfg = e.cfg
  endpoint : e'.endpoint = e.endpoint
  staleAfter : e'.staleAfter = e.staleAfter
  backend : e'.backend = e.backend
  cancel : e'.cancel = e.cancel

variable (e : Engine)

theorem noteFailureLocked_frame (now : Time) : Frame e (e.noteFailureLocked now) := by
  unfold noteFailureLocked
  dsimp only
  split <;> split <;> exact ⟨rfl, rfl, rfl, rfl, rfl⟩

/-- A tunnel that was up is so no longer once a failure is noted. -/
theorem noteFailureLocked_state (now : Time) : (e.noteFailureLocked now).state ≠ .up := by
  unfold noteFailureLocked
  dsimp only
  split
  · split
    · next failed => simp [failed]
    · simp [setLocked]
  · split
    · simp [setLocked]
    · next other => exact other

theorem update_frame (now : Time) (probed : Probed) : Frame e (e.update now probed) := by
  cases probed with
  | error text => exact noteFailureLocked_frame e now
  | ok p =>
    simp only [update, recoverLocked]
    split
    · split <;> exact ⟨rfl, rfl, rfl, rfl, rfl⟩
    · split
      · obtain ⟨cfg, endpoint, staleAfter, backend, cancel⟩ :=
          noteFailureLocked_frame { e.count p with lastHS := p.handshake } now
        exact ⟨cfg, endpoint, staleAfter, backend, cancel⟩
      · split
        · obtain ⟨cfg, endpoint, staleAfter, backend, cancel⟩ :=
            noteFailureLocked_frame (e.count p) now
          exact ⟨cfg, endpoint, staleAfter, backend, cancel⟩
        · split <;> exact ⟨rfl, rfl, rfl, rfl, rfl⟩

/-- The handshake of a probe is there and not stale. -/
def Fresh (now : Time) (p : Probe) : Prop :=
  p.handshake ≠ 0 ∧ now - p.handshake ≤ e.staleAfter

instance (e : Engine) (now : Time) (p : Probe) : Decidable (e.Fresh now p) :=
  inferInstanceAs (Decidable (_ ∧ _))

theorem update_ok (now : Time) (p : Probe) : e.update now (.ok p) =
    if e.Fresh now p then
      if p.handshake ≤ e.lastHS ∧ e.state = .up then e.count p
      else { e.count p with lastHS := p.handshake, retries := 0 }.setLocked .up e.since
    else if p.handshake ≠ 0 then { e.count p with lastHS := p.handshake }.noteFailureLocked now
    else if e.staleAfter < now - e.since then (e.count p).noteFailureLocked now
    else if e.state ≠ .connecting ∧ e.state ≠ .up then (e.count p).setLocked .connecting now
    else e.count p :=
  rfl

/-- After the update the tunnel is up on a fresh handshake, and when it was up and has
lost its handshake within the grace window. -/
theorem update_state_up_iff (now : Time) (probed : Probed) :
    (e.update now probed).state = .up ↔ ∃ p, probed = .ok p ∧
      (e.Fresh now p ∨ p.handshake = 0 ∧ e.state = .up ∧ now - e.since ≤ e.staleAfter) := by
  cases probed with
  | error text => simp [update, noteFailureLocked_state]
  | ok p =>
    have counted : (e.count p).staleAfter = e.staleAfter ∧ (e.count p).since = e.since ∧
      (e.count p).state = e.state := ⟨rfl, rfl, rfl⟩
    simp only [update, recoverLocked, Except.ok.injEq, exists_eq_left', Fresh, counted]
    by_cases none : p.handshake = 0
    · by_cases late : e.staleAfter < now - e.since
      · have past : ¬ now - e.since ≤ e.staleAfter := not_le.mpr late
        simp [none, late, past, noteFailureLocked_state]
      · have within : now - e.since ≤ e.staleAfter := not_lt.mp late
        cases state : e.state <;> simp [none, late, within, state, counted, setLocked]
    · by_cases fresh : now - p.handshake ≤ e.staleAfter
      · have here : p.handshake ≠ 0 ∧ now - p.handshake ≤ e.staleAfter := ⟨none, fresh⟩
        rw [if_pos here]
        split
        · next steady => exact iff_of_true (counted.2.2.trans steady.2) (.inl here)
        · exact iff_of_true rfl (.inl here)
      · simp [none, fresh, noteFailureLocked_state]

theorem applyConfiguration_frame {Key Addr Net : Type} {x : Parsers Key Addr Net}
    (cfg : WireGuardConfig) (applied : Except String Unit) :
    (e.applyConfiguration x cfg applied).2.state = e.state ∧
      (e.applyConfiguration x cfg applied).2.backend = e.backend := by
  unfold applyConfiguration
  split
  · exact ⟨rfl, rfl⟩
  · split
    · exact ⟨rfl, rfl⟩
    · split <;> exact ⟨rfl, rfl⟩

theorem rotateEndpoint_frame (endpoint : String) (now : Time)
    (applied rebound : Except String Unit) :
    ((e.rotateEndpoint endpoint now applied rebound).2.state = .up → e.state = .up) ∧
      (e.rotateEndpoint endpoint now applied rebound).2.backend = e.backend := by
  unfold rotateEndpoint
  split
  · exact ⟨id, rfl⟩
  · split
    · exact ⟨id, rfl⟩
    · split
      · exact ⟨id, rfl⟩
      · dsimp only
        split
        · exact ⟨id, rfl⟩
        · exact ⟨id, rfl⟩
        · split
          · exact ⟨nofun, rfl⟩
          · exact ⟨id, rfl⟩

/-- After a successful `Start` the engine runs the configuration. -/
theorem of_start {Key Addr Net : Type} {x : Parsers Key Addr Net} {e e' : Engine} {call : Starting}
    (started : e.start x call = (none, e')) : e'.backend.isSome = true ∧ e'.cfg = call.cfg := by
  have probed : ∀ (e : Engine) (p : Probed),
      (e.firstProbe p).backend = e.backend ∧ (e.firstProbe p).cfg = e.cfg := by
    intro e p
    cases p with
    | error text => exact ⟨rfl, rfl⟩
    | ok p =>
      simp only [firstProbe]
      split <;> exact ⟨rfl, rfl⟩
  have begun : ∀ b, e.beginStart call.cfg call.now = .ok b → b.cfg = call.cfg := by
    intro b begun
    unfold beginStart at begun
    split at begun
    · cases begun
    · cases begun
      rfl
  unfold start at started
  split at started
  · cases started
  · split at started
    · cases started
    · next b first =>
      split at started
      · cases started
      · next be created =>
        cases started
        obtain ⟨backend, cfg⟩ := probed ((b.publish be).register call.stop) call.probed
        rw [backend, cfg]
        exact ⟨rfl, begun b first⟩

/-- A rotation succeeds when there is a backend with a peer to move and the backend does
what it is told. -/
theorem rotateEndpoint_eq {e : Engine} {endpoint : String} {p : Peer} {rest : List Peer}
    (now : Time)
    (given : endpoint ≠ "") (running : e.backend.isSome = true) (peers : e.cfg.peers = p :: rest) :
    ∃ e', e.rotateEndpoint endpoint now (.ok ()) (.ok ()) = (none, e') ∧
      e'.backend.isSome = true ∧ e'.cfg.peers = { p with endpoint } :: rest := by
  have stays : ¬ e.backend.isNone = true := by simpa [Option.isSome_iff_ne_none] using running
  have any : ¬ p :: rest = [] := List.cons_ne_nil p rest
  simp only [rotateEndpoint, if_neg given, if_neg stays, WireGuardConfig.redirect, peers,
    if_neg any]
  refine ⟨_, rfl, ?_, ?_⟩
  · split <;> exact running
  · split <;> rfl

theorem wake_frame : e.wake.state = e.state ∧ e.wake.backend = e.backend := by
  unfold wake
  split <;> exact ⟨rfl, rfl⟩

end Engine

end VeilNet.Source.Tunnel
