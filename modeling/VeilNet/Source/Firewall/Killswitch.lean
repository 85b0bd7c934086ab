import VeilNet.Source.Firewall.Backend

/-!
The kill-switch manager, `internal/firewall/killswitch.go`. A sentinel is what its JSON decodes
to; published events and the making of the directory are left out.
-/
namespace VeilNet.Source.Firewall
open Lib

structure Manager where
  dir : StateDir
  lanAllowed : Bool
  mode : Mode
  active : Bool

/-- `New`: an idle manager. -/
def Manager.new (dir : StateDir) (lanAllowed : Bool) : Manager := ⟨dir, lanAllowed, .off, false⟩

namespace Manager
variable (backend : Backend) (m : Manager)

def sentinelPaths : List Place := m.dir.paths

/-- The zero record when no file can be read and parsed. -/
def readSentinel : Fw Sentinel := do
  let found ← file (.load m.sentinelPaths)
  pure (found.getD ⟨[], "", "", .off⟩)

/-- The first path, if there is one. -/
def writeSentinel (s : Sentinel) : Fw Unit :=
  match m.sentinelPaths with
  | [] => pure ()
  | place :: _ => file (.write place s)

def removeFiles : List Place → Fw Unit
  | [] => pure ()
  | place :: rest => do
    file (.remove place)
    removeFiles rest

def removeStale : Fw Unit := do
  let s ← m.readSentinel
  if s.rules = [] then pure ()
  else
    let _ ← backend.remove s.rules
    removeFiles m.sentinelPaths

/-- The rules that `Disable` removes: those of the sentinel or, without one, all that
there can be. -/
def disableRules (s : Sentinel) : Fw Unit :=
  if s.rules ≠ [] then do
    let _ ← backend.remove s.rules
    pure ()
  else if m.active then do
    let _ ← backend.remove (backend.ruleNames ⟨"", 0, "", true⟩)
    pure ()
  else pure ()

def disablePolicy (s : Sentinel) : Fw Unit :=
  if s.policy ≠ "" then do
    let _ ← backend.restore s.policy
    pure ()
  else pure ()

def disable : Fw (Except String Unit × Manager) := do
  let s ← m.readSentinel
  m.disableRules backend s
  disablePolicy backend s
  removeFiles m.sentinelPaths
  pure (.ok (), { m with active := false, mode := .off })

/-- The checks that `Enable` makes of its arguments. -/
def checkArgs (endpointIP : String) (endpointPort : ℤ) (tunAddr : String) : Except String Unit :=
  if GoText.trimSpace endpointIP = "" ∨ endpointPort ≤ 0 ∨ endpointPort > 65535 then
    .error ("firewall: bad handshake endpoint " ++ endpointIP ++ ":" ++ toString endpointPort)
  else if GoText.trimSpace tunAddr = "" then .error "firewall: empty tunnel address"
  else .ok ()

/-- The rules and the block, with what is removed again on an error. -/
def engage (spec : Spec) : Fw (Except String Unit) := do
  match ← backend.enable spec with
  | .error err =>
    let _ ← backend.remove (backend.ruleNames spec)
    pure (.error ("firewall: apply rules: " ++ err))
  | .ok () =>
    match ← backend.setBlock with
    | .error err =>
      let _ ← backend.remove (backend.ruleNames spec)
      pure (.error ("firewall: block outbound: " ++ err))
    | .ok () => pure (.ok ())

def enableChecked (mode : Mode) (endpointIP : String) (endpointPort : ℤ) (tunAddr : String) :
    Fw (Except String Unit × Manager) := do
  m.removeStale backend
  match ← backend.currentPolicy with
  | .error err => pure (.error ("firewall: snapshot policy: " ++ err), m)
  | .ok policy =>
    let spec := ⟨endpointIP, endpointPort, tunAddr, m.lanAllowed⟩
    match ← engage backend spec with
    | .error err => pure (.error err, m)
    | .ok () =>
      m.writeSentinel ⟨backend.ruleNames spec, policy,
        endpointIP ++ ":" ++ toString endpointPort, mode⟩
      pure (.ok (), { m with mode, active := true })

def enable (mode : Mode) (endpointIP : String) (endpointPort : ℤ) (tunAddr : String) :
    Fw (Except String Unit × Manager) :=
  if mode = .off then m.disable backend
  else
    match checkArgs endpointIP endpointPort tunAddr with
    | .error err => pure (.error err, m)
    | .ok () => m.enableChecked backend mode endpointIP endpointPort tunAddr

def failClosed : Fw (Except String Unit) :=
  if m.active then backend.setBlock else pure (.error "firewall: kill switch not active")

end Manager

inductive Call where
  | enable (mode : Mode) (endpointIP : String) (endpointPort : ℤ) (tunAddr : String)
  | failClosed
  | disable

def someEnable : Call := .enable .alwaysOn "203.0.113.7" 51820 "10.89.0.2"

/-- The machine with the manager of the running process. -/
structure State where
  host : Host
  manager : Manager

/-- The result of the call and the manager it leaves. -/
def Call.script (backend : Backend) (m : Manager) : Call → Fw (Except String Unit × Manager)
  | .enable mode endpointIP endpointPort tunAddr =>
    m.enable backend mode endpointIP endpointPort tunAddr
  | .failClosed => do
    let res ← m.failClosed backend
    pure (res, m)
  | .disable => m.disable backend

/-- An `Enable` that is not refused for its arguments. -/
def Call.engages : Call → Bool
  | .enable mode endpointIP endpointPort tunAddr =>
    mode ≠ .off && (Manager.checkArgs endpointIP endpointPort tunAddr).isOk
  | .failClosed | .disable => false

/-- A `Disable`, also as `Enable(OFF)`. -/
def Call.disables : Call → Bool
  | .enable mode .. => mode = .off
  | .failClosed => false
  | .disable => true

end VeilNet.Source.Firewall
