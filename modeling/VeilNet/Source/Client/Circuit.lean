import VeilNet.Source.Client.Nodes
import VeilNet.Source.Enforcer

/-!
The client's session and circuit: `Connect` and `Disconnect` of `internal/app/app.go` and
`internal/app/circuit.go`, with the engine of `internal/tunnel` behind the adapter of
`cmd/veilnet-service/engine_adapter.go`, which copies field by field.

Functions are cut at their sections under `a.mu`, so that sequential and interleaved calls share
their parts. A call carries the clock, what the store knows at each listing, and the answers of
the backend. Events, the session and the connection record are left out. `rotations`, an `int`,
is unbounded: it goes up by one with a call.
-/
namespace VeilNet.Source.Client
open Lib Lib.Outcome Source

structure Circuit (F : Type) where
  active : Bool
  entryID : String
  middleID : String
  exitID : String
  hops : List String
  countries : List String
  prices : List F
  guardPinned : Bool
  guardSince : Time
  builtAt : Time
  rotations : ℤ

def Circuit.zero {F : Type} : Circuit F := ⟨false, "", "", "", [], [], [], false, 0, 0, 0⟩

/-- The settings that the functions here read. -/
structure Settings where
  selectPolicy : SelectPolicy
  region : String
  entryRegion : String
  multihopEnabled : Bool
  rotateMinutes : ℤ
  protection : Config

structure App (F : Type) where
  cfg : Settings
  nodes : Provider F
  engine : Option Tunnel.Engine
  node : Option (NodeInfo F)
  circuit : Circuit F

def newApp {F : Type} (cfg : Settings) (nodes : Provider F) (engine : Option Tunnel.Engine) :
    App F :=
  ⟨cfg, nodes, engine, none, .zero⟩

/-- The functions of the Go library that the client calls. -/
structure Library (F Key Addr Net : Type) where
  codec : Multihop.Codec
  parsers : Tunnel.Parsers Key Addr Net
  sorter : Sorter (NodeInfo F × F)

/-- Every text is readable and stands for itself, and sorting changes nothing. -/
def Library.plain (F : Type) : Library F String String String where
  codec := ⟨some, id, id⟩
  parsers := .verbatim
  sorter := ⟨fun _ l => l, fun _ _ => .refl _⟩

/-- The two readings of the clock in `setCircuit`. -/
structure Clock where
  builtAt : Time
  guardSince : Time

structure Building (F : Type) where
  ids : List String
  look : ℕ → String → Observed F
  clock : Clock

structure AutoBuilding (F : Type) where
  hops : ℤ
  look : ℕ → String → Observed F
  clock : Clock

/-- `applied` and `rebound` are the answers of the backend. -/
structure Rotating (F : Type) where
  look : ℕ → String → Observed F
  now : Time
  applied : Except String Unit
  rebound : Except String Unit

/-- `probed` is what `ProbeLatency` gives in milliseconds, if it succeeds. -/
structure Connecting (F : Type) where
  nodeID : String
  look : String → Observed F
  probed : Option ℤ
  priv : Except String String
  now : Time
  created : Except String Tunnel.Handle
  stop : Tunnel.Handle
  handshake : Tunnel.Probed
  stopped : Time

/-- `closed` is what the backend answers to `close`. -/
structure Disconnecting where
  now : Time
  closed : Except String Unit

section circuits
variable {F : Type} [GoFloatDiff F] (codec : Multihop.Codec)

/-- `BuildRoute`; the route is dropped, and with it its ID and time. -/
def checkRoute (path : List (NodeInfo F)) : Except (Error F) Unit :=
  match Multihop.buildRoute codec ⟨none, 0, 0⟩ (path.map mhNode) .zero with
  | .error cause => .error (.route cause)
  | .ok _ => .ok ()

/-- The part of `setCircuit` before the lock. -/
def Circuit.ofNodes (nodes : List (NodeInfo F)) (clock : Clock) : Circuit F where
  active := true
  entryID := (nodes.head?.map NodeInfo.nodeID).getD ""
  middleID := if nodes.length = 3 then ((nodes.drop 1).head?.map NodeInfo.nodeID).getD "" else ""
  exitID := (nodes.getLast?.map NodeInfo.nodeID).getD ""
  hops := nodes.map NodeInfo.nodeID
  countries := nodes.map NodeInfo.country
  prices := nodes.map NodeInfo.pricePerHourDero
  guardPinned := !nodes.isEmpty
  guardSince := if nodes.isEmpty then 0 else clock.guardSince
  builtAt := clock.builtAt
  rotations := 0

/-- The part of `setCircuit` under the lock: a guard that stays keeps its time. -/
def Circuit.succeed (old c : Circuit F) : Circuit F :=
  let c := { c with rotations := old.rotations }
  if old.active ∧ old.hops ≠ [] ∧ old.hops.head? = c.hops.head? then
    { c with guardSince := if old.guardSince = 0 then c.builtAt else old.guardSince }
  else c

/-- What `BuildCircuitHops` does between its sections. -/
def planHops (provider : Provider F) (call : Building F) : Except (Error F) (List (NodeInfo F)) :=
  do
  refuseIf (call.ids.length = 0 ∨ call.ids.length > 3) .wrongCount
  let path ← findNodes provider call.look 0 call.ids
  checkRoute codec path
  .ok path

/-- The loop that puts `k` more nodes in front of the path. -/
def growPath (policy : SelectPolicy) (nodes : List (NodeInfo F)) (wantEntry : String) :
    ℕ → List String → List (NodeInfo F) → List (NodeInfo F)
  | 0, _, path => path
  | k + 1, exclude, path =>
    match bestExcept policy nodes exclude (if path.length = 1 then wantEntry else "") with
    | .error _ => path
    | .ok next => growPath policy nodes wantEntry k (next.nodeID :: exclude) (next :: path)

/-- The loop that drops the second node of `first :: rest` until the path is accepted. -/
def separate (first : NodeInfo F) : List (NodeInfo F) → Except (Error F) (List (NodeInfo F))
  | [] =>
    match checkRoute codec [first] with
    | .ok () => .ok [first]
    | .error _ => .error .notSeparated
  | second :: rest =>
    match checkRoute codec (first :: second :: rest) with
    | .ok () => .ok (first :: second :: rest)
    | .error _ => separate first rest

/-- The number of hops as `AutoCircuitHops` reads it. -/
def hopCount (n : ℤ) : ℕ := if n ≤ 0 then 2 else if n > 3 then 3 else n.toNat

/-- What `AutoCircuitHops` does between its sections. -/
def planAuto (cfg : Settings) (provider : Provider F) (exitID : String) (call : AutoBuilding F) :
    Except (Error F) (List (NodeInfo F)) := do
  refuseIf (exitID = "") .notLive
  let exit ← findNode provider (call.look 0) exitID
  let nodes ← listNodes provider (call.look 1)
  let path := growPath cfg.selectPolicy nodes cfg.entryRegion (hopCount call.hops - 1) [exitID]
      [exit]
  refuseIf (path.length < 2 ∧ hopCount call.hops > 1) .noSecondHop
  match path with
  | [] => .error .notSeparated
  | first :: rest => separate codec first rest

/-- What `RotateCircuit` does between reading the circuit and moving the engine: the fresh
exit, checked with the hops that stay. -/
def planRotation (cfg : Settings) (provider : Provider F) (hops : List String) (connected : Bool)
    (look : ℕ → String → Observed F) : Except (Error F) (NodeInfo F) := do
  let nodes ← listNodes provider (look 0)
  refuseIf (connected = false ∧ hops = []) .notLive
  let next ← (bestExcept cfg.selectPolicy nodes hops "").mapError fun _ => .noFreshExit
  -- Of a path of at most one hop nothing stays.
  let kept ← findNodes provider look 1 hops.dropLast
  checkRoute codec (kept ++ [next])
  .ok next

/-- The last section of `RotateCircuit`, on the circuit. -/
def Circuit.rotate (c : Circuit F) (next : NodeInfo F) (now : Time) : Circuit F :=
  let c :=
    if c.hops.length > 1 then
      { c with
        hops := c.hops.dropLast ++ [next.nodeID]
        countries := c.countries.dropLast ++ [next.country]
        prices := c.prices.dropLast ++ [next.pricePerHourDero]
        exitID := next.nodeID }
    else
      { c with
        hops := [next.nodeID], countries := [next.country], prices := [next.pricePerHourDero]
        entryID := next.nodeID, exitID := next.nodeID, guardPinned := false }
  { c with
    active := true, builtAt := if c.builtAt = 0 then now else c.builtAt,
    rotations := c.rotations + 1 }

namespace App

variable (a : App F)

def setCircuit (nodes : List (NodeInfo F)) (clock : Clock) : App F :=
  { a with circuit := a.circuit.succeed (.ofNodes nodes clock) }

def buildCircuitHops (call : Building F) : Option (Error F) × App F :=
  if a.node.isNone then (some .notLive, a)
  else
    match planHops codec a.nodes call with
    | .error err => (some err, a)
    | .ok path => (none, a.setCircuit path call.clock)

/-- The ID of the current node, empty without one. -/
def currentID : String := (a.node.map NodeInfo.nodeID).getD ""

def autoCircuitHops (call : AutoBuilding F) : Option (Error F) × App F :=
  match planAuto codec a.cfg a.nodes a.currentID call with
  | .error err => (some err, a)
  | .ok path => (none, a.setCircuit path call.clock)

/-- The last section of `RotateCircuit`. -/
def commitRotation (next : NodeInfo F) (now : Time) : App F :=
  { a with circuit := a.circuit.rotate next now, node := a.node.map fun _ => next }

/-- The plan of a rotation on the app as it is. -/
def nextExit (look : ℕ → String → Observed F) : Except (Error F) (NodeInfo F) :=
  planRotation codec a.cfg a.nodes a.circuit.hops a.node.isSome look

def rotateCircuit (call : Rotating F) : Option (Error F) × App F :=
  match a.engine with
  | none => (some .noEngine, a)
  | some e =>
    match a.nextExit codec call.look with
    | .error err => (some err, a)
    | .ok next =>
      match e.rotateEndpoint next.endpoint call.now call.applied call.rebound with
      | (some err, e) => (some (.engine err), { a with engine := some e })
      | (none, e) => (none, { a with engine := some e }.commitRotation next call.now)

def resetGuard : App F :=
  { a with circuit := { a.circuit with guardPinned := false, guardSince := 0 } }

/-- The interval has passed since the circuit was built. -/
def rotationDue (now : Time) : Bool :=
  a.cfg.multihopEnabled && a.circuit.active && a.cfg.rotateMinutes > 0 &&
    !(Time.sub now a.circuit.builtAt < Duration.times a.cfg.rotateMinutes Duration.minute)

def maybeAutoRotate (now : Time) (call : Rotating F) : Option (Error F) × App F :=
  if a.rotationDue now then a.rotateCircuit codec call else (none, a)

end App

end circuits

namespace App
variable {F : Type} [GoFloatDiff F] {Key Addr Net : Type} (lib : Library F Key Addr Net)

variable (a : App F)

/-- The named node, or `AutoSelect` without a name. -/
def pick (call : Connecting F) : Except (Error F) (NodeInfo F) :=
  if call.nodeID = "" then do
    let nodes ← listNodes a.nodes call.look
    select lib.sorter a.cfg.selectPolicy a.cfg.region nodes
  else findNode a.nodes call.look call.nodeID

/-- The node that `Connect` dials, with the latency of the probe. -/
def target (call : Connecting F) : Except (Error F) (NodeInfo F) := do
  let node ← a.pick lib call
  .ok (match call.probed with
    | some latency => { node with latencyMs := latency }
    | none => node)

def tunAddr : String := "10.89.0.2/32"

def wgConfig (node : NodeInfo F) (priv : String) : Tunnel.WireGuardConfig where
  privateKey := priv
  addresses := [tunAddr]
  dns := if a.cfg.protection.dnsMode = .veilnet ∨
    a.cfg.protection.dnsServers = [] then ["10.89.0.1"]
    else a.cfg.protection.dnsServers
  peers := [⟨node.wgPubkey, node.endpoint, ["0.0.0.0/0"], 25⟩]

/-- `Connect` up to and with the start of the engine: the node, and the app with the engine
running. -/
def raise (call : Connecting F) : Except (Error F × App F) (NodeInfo F × App F) :=
  if a.node.isSome then .error (.alreadyConnected, a)
  else
    match a.engine with
    | none => .error (.noEngine, a)
    | some e =>
      match a.target lib call with
      | .error err => .error (err, a)
      | .ok node =>
        match call.priv with
        | .error text => .error (.privateKey text, a)
        | .ok priv =>
          match e.start lib.parsers
            ⟨a.wgConfig node priv, call.now, call.created, call.stop, call.handshake⟩ with
          | (some err, e) => .error (.engine err, { a with engine := some e })
          | (none, e) => .ok (node, { a with engine := some e })

/-- `Connect` after leak protection: without it the tunnel is torn down again. -/
def settle (node : NodeInfo F) (stopped : Time) (enforced : Except String Unit) :
    Option (Error F) × App F :=
  match enforced with
  | .error text => (some (.enforcement text), { a with engine := a.engine.map (·.stop stopped) })
  | .ok () => (none, { a with node := some node })

/-- `enforced` is what `applyEnforcement` gives. -/
def connect (call : Connecting F) (enforced : Except String Unit) :
    Option (Error F) × App F :=
  match a.raise lib call with
  | .error (err, a) => (some err, a)
  | .ok (node, a) => a.settle node call.stopped enforced

/-- `engine.Stop`, with the error of `close` when there is a backend to close. -/
def stopEngine (call : Disconnecting) : Except String Unit × App F :=
  match a.engine with
  | none => (.ok (), a)
  | some e => (if e.backend.isSome then call.closed else .ok (),
      { a with engine := some (e.stop call.now) })

def disconnect (call : Disconnecting) : Option (Error F) × App F :=
  if a.node.isNone then (some .notConnected, a)
  else
    match a.stopEngine call with
    | (.error text, a) => (some (.stop text), a)
    | (.ok (), a) => (none, { a with node := none, circuit := .zero })

end App

/-- A call of the client. -/
inductive Op (F : Type) where
  | connect (call : Connecting F) (enforced : Except String Unit)
  | build (call : Building F)
  | auto (call : AutoBuilding F)
  | rotate (call : Rotating F)
  | maybeAutoRotate (now : Time) (call : Rotating F)
  | resetGuard
  | disconnect (call : Disconnecting)

section runs
variable {F : Type} [GoFloatDiff F] {Key Addr Net : Type} (lib : Library F Key Addr Net)

/-- The error of the call, if any, and the app after it. -/
def Op.run (a : App F) : Op F → Option (Error F) × App F
  | .connect call enforced => a.connect lib call enforced
  | .build call => a.buildCircuitHops lib.codec call
  | .auto call => a.autoCircuitHops lib.codec call
  | .rotate call => a.rotateCircuit lib.codec call
  | .maybeAutoRotate now call => a.maybeAutoRotate lib.codec now call
  | .resetGuard => (none, a.resetGuard)
  | .disconnect call => a.disconnect call

def step (a : App F) (op : Op F) : App F := (op.run lib a).2

end runs

/-! A client over plain nodes and calls in which everything works. -/

def nodeAt (name host : String) : NodeInfo ℚ :=
  ⟨name, "key-" ++ name, "eu", "DE", host ++ ":51820", 1, 0, "active", 0, -1, 0, 0⟩

def someNode (name : String) : NodeInfo ℚ := nodeAt name (name ++ ".example")

def unobserved : String → Observed ℚ := fun _ => ⟨none, none⟩

def someSettings : Settings :=
  ⟨.fastest, "", "", true, 10, ⟨some .alwaysOn, .veilnet, [], false⟩⟩

def someEngine : Tunnel.Engine := Tunnel.newEngine 1 5 180 3

def someApp (names : List String) : App ℚ :=
  newApp someSettings (.ok (names.map someNode)) (some someEngine)

def dialling (nodeID : String) : Connecting ℚ :=
  ⟨nodeID, unobserved, none, .ok "priv", 2, .ok 1, 1, .error "no device", 3⟩

def rotatingAt (now : Time) : Rotating ℚ := ⟨fun _ => unobserved, now, .ok (), .ok ()⟩

def someConnect (nodeID : String) : Op ℚ := .connect (dialling nodeID) (.ok ())

end VeilNet.Source.Client
