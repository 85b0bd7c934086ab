import VeilNet.Source.Tunnel.Engine
import VeilNet.Lib.GoSlice

/-!
The tunnel engine over shared memory, with the peers of a configuration as a slice: the engine,
the local variables of its methods and the callers hold windows on the same peers. Lists that are
never written stay lists.

`Engine` is what one sees of it: each call here is the call there on the peers that the memory
has.
-/
namespace VeilNet.Source.Tunnel
open Lib Lib.GoSlice

/-- `WireGuardConfig`, with the slice of its peers. -/
structure SharedConfig where
  privateKey : String
  addresses : List String
  dns : List String
  peers : Slice
  deriving DecidableEq

/-- The configuration that one reads. -/
def SharedConfig.deref (cfg : SharedConfig) (memory : Memory Peer) : WireGuardConfig :=
  ⟨cfg.privateKey, cfg.addresses, cfg.dns, memory.read cfg.peers⟩

/-- The index of the first peer of a slice that has one. -/
def first {s : Slice} (any : s.length ≠ 0) : Fin s.length := ⟨0, Nat.pos_of_ne_zero any⟩

/-- `peers[0].Endpoint = endpoint`. -/
def redirectFirst (memory : Memory Peer) (peers : Slice) (any : peers.length ≠ 0)
    (endpoint : String) : Memory Peer :=
  memory.set peers (first any) { memory.get peers (first any) with endpoint }

/-- The peers in memory, `e.cfg`, and the other fields of the engine: the configuration
inside `fields` is not read. -/
structure SharedEngine where
  memory : Memory Peer
  cfg : SharedConfig
  fields : Engine

/-- The engine with another configuration. -/
def Engine.holding (e : Engine) (cfg : WireGuardConfig) : Engine := { e with cfg }

namespace SharedEngine

def engine (w : SharedEngine) : Engine := w.fields.holding (w.cfg.deref w.memory)

section calls
variable {Key Addr Net : Type} (x : Parsers Key Addr Net)

/-- `Start` keeps the slice of its caller. -/
def start (w : SharedEngine) (cfg : SharedConfig) (now : Time) (created : Except String Handle)
    (stop : Handle) (probed : Probed) : Option EngineError × SharedEngine :=
  match checkConfig x (cfg.deref w.memory) with
  | .error err => (some err, w)
  | .ok () =>
    match w.fields.beginStart (cfg.deref w.memory) now with
    | .error err => (some err, w)
    | .ok fields =>
      match created with
      | .error text => (some (.backend text), { w with cfg, fields := fields.fail now })
      | .ok be =>
        (none, { w with cfg, fields := ((fields.publish be).register stop).firstProbe probed })

def stop (w : SharedEngine) (now : Time) : SharedEngine := { w with fields := w.fields.stop now }

def step (w : SharedEngine) (now : Time) (probed : Probed) : SharedEngine :=
  { w with fields := w.fields.step now probed }

def wake (w : SharedEngine) : SharedEngine := { w with fields := w.fields.wake }

/-- `ApplyConfiguration` keeps the slice of its caller. -/
def applyConfiguration (w : SharedEngine) (cfg : SharedConfig) (applied : Except String Unit) :
    Option EngineError × SharedEngine :=
  match checkConfig x (cfg.deref w.memory) with
  | .error err => (some err, w)
  | .ok () =>
    if w.fields.backend.isNone then (some .notStarted, w)
    else
      match applied with
      | .error text => (some (.backend text), w)
      | .ok () => (none, { w with cfg, fields := { w.fields with
          endpoint := (cfg.deref w.memory).primary w.fields.endpoint, retries := 0 } })

/-- The write comes before the calls of the backend. -/
def rotateEndpoint (w : SharedEngine) (endpoint : String) (now : Time)
    (applied rebound : Except String Unit) :
    Option EngineError × SharedEngine :=
  if endpoint = "" then (some .emptyEndpoint, w)
  else
    let cfg := w.cfg
    if w.fields.backend.isNone then (some .notStarted, w)
    else if empty : cfg.peers.length = 0 then (some .noPeersToRotate, w)
    else
      let w := { w with memory := redirectFirst w.memory cfg.peers empty endpoint }
      match applied, rebound with
      | .error text, _ => (some (.backend text), w)
      | .ok (), .error text => (some (.rebind text), w)
      | .ok (), .ok () =>
        let fields := { w.fields with endpoint, retries := 0 }
        (none, { w with
          cfg
          fields := if fields.state = .failed then fields.setLocked .connecting now else fields })

end calls

section views

theorem read_eq_cons (m : Memory Peer) {s : Slice} (any : s.length ≠ 0) :
    ∃ rest, m.read s = m.get s (first any) :: rest := by
  obtain ⟨array, offset, length⟩ := s
  cases length with
  | zero => exact absurd rfl any
  | succ n => exact ⟨_, List.ofFn_succ⟩

/-- The write is seen as the redirection of the whole configuration. -/
theorem deref_redirectFirst (cfg : SharedConfig) (m : Memory Peer) (any : cfg.peers.length ≠ 0)
    (endpoint : String) :
    cfg.deref (redirectFirst m cfg.peers any endpoint) = (cfg.deref m).redirect endpoint := by
  obtain ⟨rest, peers⟩ := read_eq_cons m any
  unfold SharedConfig.deref WireGuardConfig.redirect redirectFirst
  dsimp only
  rw [Memory.read_set, peers]
  rfl

theorem firstProbe_holding (e : Engine) (cfg : WireGuardConfig) (probed : Probed) :
    (e.holding cfg).firstProbe probed = (e.firstProbe probed).holding cfg := by
  cases probed with
  | error text => rfl
  | ok p =>
    simp only [Engine.firstProbe, apply_ite (Engine.holding · cfg)]
    exact if_congr Iff.rfl rfl rfl

theorem noteFailureLocked_holding (e : Engine) (cfg : WireGuardConfig) (now : Time) :
    (e.holding cfg).noteFailureLocked now = (e.noteFailureLocked now).holding cfg := by
  unfold Engine.noteFailureLocked
  simp only [apply_ite (Engine.holding · cfg)]
  exact if_congr Iff.rfl (if_congr Iff.rfl rfl rfl) (if_congr Iff.rfl rfl rfl)

theorem update_holding (e : Engine) (cfg : WireGuardConfig) (now : Time) (probed : Probed) :
    (e.holding cfg).update now probed = (e.update now probed).holding cfg := by
  cases probed with
  | error text => exact noteFailureLocked_holding e cfg now
  | ok p =>
    have stale := noteFailureLocked_holding { e.count p with lastHS := p.handshake } cfg now
    have missing := noteFailureLocked_holding (e.count p) cfg now
    simp only [Engine.update_ok, apply_ite (Engine.holding · cfg)]
    exact if_congr Iff.rfl (if_congr Iff.rfl rfl rfl) (if_congr Iff.rfl stale
      (if_congr Iff.rfl missing (if_congr Iff.rfl rfl rfl)))

theorem step_holding (e : Engine) (cfg : WireGuardConfig) (now : Time) (probed : Probed) :
    (e.holding cfg).step now probed = (e.step now probed).holding cfg := by
  have polled : (e.holding cfg).step now probed =
      if e.backend.isSome then (e.update now probed).holding cfg else e.holding cfg :=
    if_congr Iff.rfl (update_holding e cfg now probed) rfl
  rw [polled, ← apply_ite (Engine.holding · cfg)]
  rfl

theorem wake_holding (e : Engine) (cfg : WireGuardConfig) :
    (e.holding cfg).wake = e.wake.holding cfg := by
  have reset : (e.holding cfg).wake =
      if e.backend.isSome then e.resetRetries.holding cfg else e.holding cfg := rfl
  rw [reset, ← apply_ite (Engine.holding · cfg)]
  rfl

variable {Key Addr Net : Type} {x : Parsers Key Addr Net} (w : SharedEngine)

/-- What is seen of a call: its error, and the engine after it. -/
def seen (result : Option EngineError × SharedEngine) : Option EngineError × Engine :=
  (result.1, result.2.engine)

theorem engine_stop (now : Time) : (w.stop now).engine = w.engine.stop now := rfl

theorem engine_step (now : Time) (probed : Probed) :
    (w.step now probed).engine = w.engine.step now probed :=
  (step_holding ..).symm

theorem engine_wake : w.wake.engine = w.engine.wake := (wake_holding ..).symm

theorem seen_start (cfg : SharedConfig) (now : Time) (created : Except String Handle)
    (stop : Handle) (probed : Probed) : seen (w.start x cfg now created stop probed) =
      w.engine.start x ⟨cfg.deref w.memory, now, created, stop, probed⟩ := by
  unfold start Engine.start
  cases checkConfig x (cfg.deref w.memory) with
  | error err => rfl
  | ok u =>
    by_cases running : w.fields.backend.isSome
    · have refused : w.fields.beginStart (cfg.deref w.memory) now = .error .alreadyStarted :=
        if_pos running
      have refusedToo : w.engine.beginStart (cfg.deref w.memory) now = .error .alreadyStarted :=
        if_pos running
      simp only [refused, refusedToo]
      rfl
    · have begun : w.fields.beginStart (cfg.deref w.memory) now = .ok _ := if_neg running
      have begunToo : w.engine.beginStart (cfg.deref w.memory) now = .ok _ := if_neg running
      simp only [begun, begunToo]
      cases created with
      | error text => rfl
      | ok be => exact congrArg (Prod.mk none) (firstProbe_holding ..).symm

theorem seen_applyConfiguration (cfg : SharedConfig) (applied : Except String Unit) :
    seen (w.applyConfiguration x cfg applied) =
      w.engine.applyConfiguration x (cfg.deref w.memory) applied := by
  unfold applyConfiguration Engine.applyConfiguration
  cases checkConfig x (cfg.deref w.memory) with
  | error err => rfl
  | ok u =>
    simp only [apply_ite seen]
    refine if_congr Iff.rfl rfl ?_
    cases applied <;> rfl

theorem seen_rotateEndpoint (endpoint : String) (now : Time)
    (applied rebound : Except String Unit) :
    seen (w.rotateEndpoint endpoint now applied rebound) =
      w.engine.rotateEndpoint endpoint now applied rebound := by
  unfold rotateEndpoint Engine.rotateEndpoint
  simp only [apply_ite seen]
  refine if_congr Iff.rfl rfl (if_congr Iff.rfl rfl ?_)
  have length : w.engine.cfg.peers.length = w.cfg.peers.length := Memory.length_read
  by_cases empty : w.cfg.peers.length = 0
  · have none : w.engine.cfg.peers = [] := List.length_eq_zero_iff.mp (length.trans empty)
    rw [dif_pos empty, if_pos none]
    rfl
  · have some : w.engine.cfg.peers ≠ [] := by
      intro none
      rw [none] at length
      exact empty length.symm
    have moved := deref_redirectFirst w.cfg w.memory empty endpoint
    rw [dif_neg empty, if_neg some]
    cases applied with
    | error text => exact congrArg (fun cfg => (_, w.fields.holding cfg)) moved
    | ok u =>
      cases rebound with
      | error text => exact congrArg (fun cfg => (_, w.fields.holding cfg)) moved
      | ok u =>
        refine congrArg (Prod.mk none) ?_
        dsimp only [engine]
        rw [moved, apply_ite (Engine.holding · _)]
        rfl

end views

end SharedEngine

end VeilNet.Source.Tunnel
