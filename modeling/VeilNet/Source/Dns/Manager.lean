import VeilNet.Source.StateFile
import VeilNet.Lib.GoText

/-!
The DNS manager, `internal/dns/manager.go`, over the Linux backend of `resolved.go`. The
machine is one without systemd-resolved: every `resolvectl` fails and `/etc/resolv.conf`
holds the resolvers. Published events are left out.
-/
namespace VeilNet.Source.Dns
open Lib

inductive Mode where
  | veilnet | custom | doh | system
  | unknown (name : String)
  deriving DecidableEq

def Mode.text : Mode → String
  | .veilnet => "VEILNET"
  | .custom => "CUSTOM"
  | .doh => "DOH"
  | .system => "SYSTEM"
  | .unknown name => name

/-- The record from before the first change. -/
structure Snapshot where
  iface : String
  servers : List String
  mode : Mode
  nrptNames : List String
  deriving DecidableEq

def nrptCatchAll : String := "VeilNet-CatchAll"

/-- The servers with a template in `dohTemplates`. -/
def dohServers : List String := ["1.1.1.1", "1.0.0.1", "8.8.8.8", "8.8.4.4", "9.9.9.9"]

/-! The text of `resolv.conf`. -/

/-- One part of `parseIPv4`: up to three digits, at most 255. -/
def isOctet (part : String) : Bool :=
  part.toList ≠ [] && part.toList.length ≤ 3 && part.toList.all Char.isDigit &&
    part.toList.foldl (fun v c => v * 10 + (c.toNat - '0'.toNat)) 0 ≤ 255

def isIP (s : String) : Bool :=
  (GoText.split s '.').length = 4 && (GoText.split s '.').all isOctet

/-- The server that a line names. -/
def parseLine (line : String) : Option String :=
  match GoText.fields (GoText.trimSpace line) with
  | [key, server] => if key = "nameserver" && isIP server then some server else none
  | _ => none

def parseResolvConf (raw : String) : List String := (GoText.split raw '\n').filterMap parseLine

/-- The addresses in the output of `resolvectl`, each once. -/
def parseIPs (out : String) : List String :=
  (((out.toList.splitOnP fun c => c ∈ ['\n', '\r', ' ', ',', ':', '(', ')']).map
    String.ofList).filter isIP).foldl (fun seen s => if s ∈ seen then seen else seen ++ [s]) []

def resolvHeader : String := "# VeilNet managed (fallback: systemd-resolved absent)\n"

def resolvConfManaged (raw : String) : Bool := GoText.contains raw "VeilNet managed"

def resolvText (servers : List String) : String :=
  resolvHeader ++ String.join (servers.map fun s => "nameserver " ++ s ++ "\n")

/-! The machine. -/

/-- `resolv.conf`, if it is there, and the snapshot files. -/
structure Resolver where
  conf : Option String
  snapshot : Files Snapshot
  deriving DecidableEq

/-- What `Effective` finds. -/
def Resolver.effective (r : Resolver) : List String := r.conf.elim [] parseResolvConf

inductive Command where
  | resolvectl (args : List String)
  | readConf
  | makeDir
  | writeConf (text : String)
  | file (op : FileOp Snapshot)

abbrev Command.Reply : Command → Type
  | .resolvectl _ => Except String String
  | .readConf => Option String
  | .makeDir | .writeConf _ => Except String Unit
  | .file op => op.Reply

/-- What becomes of the file that is written. -/
def Resolver.written (r : Resolver) (text : String) : Fate → Resolver
  | .works => { r with conf := some text }
  | .fails _ none => r
  | .fails _ (some left) => { r with conf := some left }

def Fate.result : Fate → Except String Unit
  | .works => .ok ()
  | .fails err _ => .error err

def Command.act (fate : Fate) : Machine Command.Reply Resolver
  | .resolvectl _, r => (.error "executable file not found in $PATH", r)
  | .readConf, r => (r.conf, r)
  | .makeDir, r => (Fate.result fate, r)
  | .writeConf text, r => (Fate.result fate, r.written text fate)
  | .file op, r => ((op.act fate r.snapshot).1, { r with snapshot := (op.act fate r.snapshot).2 })

/-- Code that runs DNS commands. -/
abbrev Dn := Script Command.Reply

def run (args : List String) : Dn (Except String String) := Script.perform (Command.resolvectl args)

def file (op : FileOp Snapshot) : Dn op.Reply := Script.perform (Command.file op)

def readFile : Dn (Option String) := Script.perform Command.readConf

def mkdirAll : Dn (Except String Unit) := Script.perform Command.makeDir

def writeFile (text : String) : Dn (Except String Unit) := Script.perform (Command.writeConf text)

/-! The backend. -/

namespace Linux

def hasResolved : Dn Bool := do
  let res ← run ["--version"]
  pure res.isOk

def current (iface : String) : Dn (List String) := do
  if ← hasResolved then
    match ← run ["dns", iface] with
    | .error _ => pure []
    | .ok out => pure (parseIPs out)
  else
    let raw ← readFile
    pure (raw.elim [] parseResolvConf)

/-- The file is read when `resolvectl` lists nothing. -/
def effective (iface : String) : Dn (List String) := do
  let listed ← if ← hasResolved then
      match ← run ["dns", iface] with
      | .error _ => pure []
      | .ok out => pure (parseIPs out)
    else pure []
  if listed = [] then
    let raw ← readFile
    pure (raw.elim [] parseResolvConf)
  else pure listed

def writeResolvConf (servers : List String) : Dn (Except String Unit) := do
  match ← mkdirAll with
  | .error err => pure (.error ("dns: resolv.conf dir: " ++ err))
  | .ok () =>
    match ← writeFile (resolvText servers) with
    | .error err => pure (.error ("dns: write resolv.conf: " ++ err))
    | .ok () => pure (.ok ())

def set (iface : String) (servers : List String) : Dn (Except String Unit) := do
  if ← hasResolved then
    match ← run (["dns", iface] ++ servers) with
    | .error err => pure (.error ("dns: resolvectl dns: " ++ err))
    | .ok _ =>
      match ← run ["domain", iface, "~."] with
      | .error err => pure (.error ("dns: resolvectl domain: " ++ err))
      | .ok _ => pure (.ok ())
  else writeResolvConf servers

/-- There is no DNS over HTTPS on Linux. -/
def registerDOH (servers : List String) : Except String Unit :=
  match servers.find? (· ∉ dohServers) with
  | some s => .error ("dns: no known DoH template for " ++ s ++ " (refusing silent downgrade)")
  | none => .error ("dns: DoH registration needs Windows 11 (netsh dns encryption); " ++
      toString servers.length ++ " server(s) not registered on linux (use VEILNET/CUSTOM)")

/-- With systemd-resolved, the file is restored if it is there and managed. -/
def restore (iface : String) (prior : List String) : Dn (Except String Unit) := do
  if ← hasResolved then
    match ← run ["revert", iface] with
    | .error err => pure (.error ("dns: resolvectl revert: " ++ err))
    | .ok _ =>
      let raw ← readFile
      if raw.any resolvConfManaged then writeResolvConf prior else pure (.ok ())
  else writeResolvConf prior

end Linux

/-! The manager. -/

inductive LeakRoute where
  | tunnel | system | unknown
  deriving DecidableEq

structure LeakState where
  resolvers : List String
  route : LeakRoute
  leaking : Bool

structure Manager where
  dir : StateDir
  iface : String
  mode : Mode
  servers : List String

def Manager.new (dir : StateDir) (iface : String) : Manager := ⟨dir, iface, .system, []⟩

namespace Manager
variable (m : Manager)

def snapshotPaths : List Place := m.dir.paths

/-- The zero record when no file can be read and parsed. -/
def readSnapshot : Dn Snapshot := do
  let found ← file (.load m.snapshotPaths)
  pure (found.getD ⟨"", [], .unknown "", []⟩)

def writeSnapshot (s : Snapshot) : Dn Unit :=
  match m.snapshotPaths with
  | [] => pure ()
  | place :: _ => file (.write place s)

/-- A file in either place, even an unreadable one, is left alone. -/
def ensureSnapshot : Dn Unit := do
  if ← file (.stat m.snapshotPaths) then pure ()
  else
    let servers ← Linux.current m.iface
    m.writeSnapshot ⟨m.iface, servers, m.mode, [nrptCatchAll]⟩

def removeFiles : List Place → Dn Unit
  | [] => pure ()
  | place :: rest => do
    file (.remove place)
    removeFiles rest

/-- The files are removed whether or not the resolvers are back. -/
def restore : Dn (Except String Unit × Manager) := do
  let s ← m.readSnapshot
  let first ← Linux.restore m.iface s.servers
  removeFiles m.snapshotPaths
  pure (first, { m with mode := .system, servers := [] })

/-- The end of `Apply`: the servers are set on the interface and remembered. -/
def setServers (mode : Mode) (servers : List String) : Dn (Except String Unit × Manager) := do
  match ← Linux.set m.iface servers with
  | .error err => pure (.error err, m)
  | .ok () => pure (.ok (), { m with mode, servers })

def apply (mode : Mode) (servers : List String) : Dn (Except String Unit × Manager) :=
  match mode with
  | .veilnet | .custom =>
    if servers = [] then
      pure (.error ("dns: " ++ mode.text ++ " requires at least one resolver"), m)
    else do
      m.ensureSnapshot
      m.setServers mode servers
  | .doh =>
    if servers = [] then pure (.error "dns: DOH requires at least one resolver", m)
    else
      match servers.find? (· ∉ dohServers) with
      | some s =>
        pure (.error ("dns: no known DoH template for " ++ s ++ " (refusing silent downgrade)"), m)
      | none => do
        m.ensureSnapshot
        match Linux.registerDOH servers with
        | .error err => pure (.error err, m)
        | .ok () => m.setServers mode servers
  -- `Restore` has set the mode and the servers as they are set again here.
  | .system => m.restore
  | .unknown name => pure (.error ("dns: unknown mode \"" ++ name ++ "\""), m)

/-- What `LeakState` makes of the resolvers it finds. -/
def judge (got : List String) : LeakState :=
  if got = [] then ⟨got, .unknown, false⟩
  else if m.mode = .system then ⟨got, .system, true⟩
  else if got.all (· ∈ m.servers) then ⟨got, .tunnel, false⟩
  else ⟨got, .system, true⟩

def leakState : Dn LeakState := do
  let got ← Linux.effective m.iface
  pure (m.judge got)

end Manager

end VeilNet.Source.Dns
