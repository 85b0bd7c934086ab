import VeilNet.Source.StateFile
import Mathlib.Data.Finset.Basic

/-!
The route manager, `internal/routing/route.go`, with the IPv6 block of the Linux backend in
`iproute.go`. The routes of the machine are a set, and commands on it succeed unless their
fate is to fail. Interface metrics are left out.
-/
namespace VeilNet.Source.Routing
open Lib

structure Route where
  dest : String
  gateway : String
  iface : String
  metric : ℤ
  deriving DecidableEq

/-- The routes, the IPv6 blackhole and the state files. The model also keeps which routes
were added and not deleted since. -/
structure Table where
  routes : Finset Route
  owned : Finset Route
  blackhole : Bool
  files : Files (List Route)
  deriving DecidableEq

inductive OsCommand where
  /-- `ip route add .. via .. dev .. metric ..` -/
  | add (r : Route)
  /-- `ip route del .. via .. dev ..` -/
  | delete (r : Route)
  /-- `ip -6 route add blackhole ::/0` -/
  | blockIPv6
  /-- `ip -6 route del blackhole ::/0` -/
  | restoreIPv6

inductive Command where
  | os (c : OsCommand)
  | file (op : FileOp (List Route))

abbrev Command.Reply : Command → Type
  | .os _ => Except String Unit
  | .file op => op.Reply

/-- The command, carried out. A second blackhole is refused, and so is the removal of none. -/
def OsCommand.run (t : Table) : OsCommand → Except String Unit × Table
  | .add r => (.ok (), { t with routes := insert r t.routes, owned := insert r t.owned })
  | .delete r => (.ok (), { t with routes := t.routes.erase r, owned := t.owned.erase r })
  | .blockIPv6 =>
    if t.blackhole then (.error "exit status 2", t) else (.ok (), { t with blackhole := true })
  | .restoreIPv6 =>
    if t.blackhole then (.ok (), { t with blackhole := false }) else (.error "exit status 2", t)

def Command.act (fate : Fate) : Machine Command.Reply Table
  | .os c, t =>
    match fate with
    | .works => c.run t
    | .fails err _ => (.error err, t)
  | .file op, t => ((op.act fate t.files).1, { t with files := (op.act fate t.files).2 })

/-- Code that runs route commands. -/
abbrev Rt := Script Command.Reply

def run (c : OsCommand) : Rt (Except String Unit) := Script.perform (Command.os c)

def file (op : FileOp (List Route)) : Rt op.Reply := Script.perform (Command.file op)

structure Manager where
  dir : StateDir
  added : List Route
  ipv6Off : Bool

/-- Every route is tried; the first error is returned. -/
def deleteAll : List Route → Rt (Except String Unit)
  | [] => pure (.ok ())
  | r :: rest => do
    let here ← run (.delete r)
    let later ← deleteAll rest
    pure (here.bind fun _ => later)

def removeFiles : List Place → Rt Unit
  | [] => pure ()
  | place :: rest => do
    file (.remove place)
    removeFiles rest

/-- `recover`: the first file that can be read, and nothing when it does not parse. -/
def reconcile (paths : List Place) : Rt Unit := do
  match ← file (.read paths) with
  | none | some .garbled => pure ()
  | some (.record routes) =>
    let _ ← deleteAll routes
    removeFiles paths

def Manager.new (dir : StateDir) : Rt Manager := do
  reconcile dir.paths
  pure ⟨dir, [], false⟩

namespace Manager
variable (m : Manager)

def statePaths : List Place := m.dir.paths

def save : Rt Unit :=
  match m.statePaths with
  | [] => pure ()
  | place :: _ => file (.write place m.added)

/-- The common body of the two functions that add a route. -/
def ensure (r : Route) : Rt (Except String Unit × Manager) := do
  match ← run (.add r) with
  | .error err => pure (.error err, m)
  | .ok () =>
    let m' := { m with added := m.added ++ [r] }
    m'.save
    pure (.ok (), m')

def ensureDefaultViaTunnel (iface tunGateway : String) (metric : ℤ) :
    Rt (Except String Unit × Manager) :=
  m.ensure ⟨"0.0.0.0/0", tunGateway, iface, metric⟩

def ensurePeerBypass (peerIP origIface origGateway : String) (metric : ℤ) :
    Rt (Except String Unit × Manager) :=
  m.ensure ⟨peerIP ++ "/32", origGateway, origIface, metric⟩

def blockIPv6 : Rt (Except String Unit × Manager) := do
  match ← run .blockIPv6 with
  | .error err => pure (.error err, m)
  | .ok () => pure (.ok (), { m with ipv6Off := true })

def restoreIPv6 : Rt (Except String Unit × Manager) := do
  let res ← run .restoreIPv6
  pure (res, { m with ipv6Off := false })

/-- The end of `RemoveAll`. -/
def removeIPv6 : Rt (Except String Unit × Manager) :=
  if m.ipv6Off then m.restoreIPv6 else pure (.ok (), m)

/-- In reverse order; the first error is returned. -/
def removeAll : Rt (Except String Unit × Manager) := do
  let routes ← deleteAll m.added.reverse
  let (ipv6, m') ← { m with added := [] }.removeIPv6
  removeFiles m.statePaths
  pure (routes.bind fun _ => ipv6, m')

end Manager

inductive Call where
  | ensureDefaultViaTunnel (iface tunGateway : String) (metric : ℤ)
  | ensurePeerBypass (peerIP origIface origGateway : String) (metric : ℤ)
  | removeAll

def Call.script (m : Manager) : Call → Rt (Except String Unit × Manager)
  | .ensureDefaultViaTunnel iface tunGateway metric =>
    m.ensureDefaultViaTunnel iface tunGateway metric
  | .ensurePeerBypass peerIP origIface origGateway metric =>
    m.ensurePeerBypass peerIP origIface origGateway metric
  | .removeAll => m.removeAll

end VeilNet.Source.Routing
