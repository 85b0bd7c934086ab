import VeilNet.Source.Firewall.Killswitch
import VeilNet.Source.Dns.Manager
import VeilNet.Source.Routing

/-!
Leak protection as one unit: `osEnforcer` of `cmd/veilnet-service/enforce.go`, and its users in
`internal/app/app.go` and `enforce.go`. DNS and IPv6 are behind a `NetSide`, with the Linux one at
the end. Fields that only `Status` reads are left out.
-/
namespace VeilNet.Source
open Lib

/-- `EnforcePlan`; the kill switch is none when the text is empty. -/
structure Plan where
  killSwitch : Option Firewall.Mode
  endpointIP : String
  endpointPort : ℤ
  tunAddr : String
  tunIface : String
  dnsMode : Dns.Mode
  dnsServers : List String
  routeIPv6 : Bool
  deriving DecidableEq

/-- The DNS manager and the IPv6 half of the route manager of a platform. -/
structure NetSide where
  Cmd : Type
  Reply : Cmd → Type
  DnsManager : Type
  RouteManager : Type
  newDns : String → DnsManager
  applyDns : DnsManager → Dns.Mode → List String → Script Reply (Except String Unit × DnsManager)
  restoreDns : DnsManager → Script Reply (Except String Unit × DnsManager)
  blockIPv6 : RouteManager → Script Reply (Except String Unit × RouteManager)
  restoreIPv6 : RouteManager → Script Reply (Except String Unit × RouteManager)

inductive Ipv6 where
  | unknown | routed | blocked
  deriving DecidableEq

structure Enforcer (net : NetSide) where
  kill : Firewall.Manager
  route : net.RouteManager
  dnsMgr : Option net.DnsManager
  applied : Bool
  ipv6 : Ipv6

inductive Undo where
  | kill | dns | ipv6

namespace Enforcer
variable {net : NetSide}

/-- Commands of the kill switch and of the net side. -/
abbrev Code (net : NetSide) := Script (Sum.elim Firewall.Command.Reply net.Reply)

variable (backend : Firewall.Backend) (e : Enforcer net)

/-- `newEnforcer`, with the route manager that `routing.New` gives. -/
def new (dir : StateDir) (route : net.RouteManager) : Enforcer net :=
  ⟨Firewall.Manager.new dir false, route, none, false, .unknown⟩

def disableKill : Code net (Except String Unit × Enforcer net) := do
  let (res, kill) ← (e.kill.disable backend).left
  pure (res, { e with kill })

def restoreDns : Code net (Except String Unit × Enforcer net) :=
  match e.dnsMgr with
  | none => pure (.ok (), e)
  | some m => do
    let (res, m') ← (net.restoreDns m).right
    pure (res, { e with dnsMgr := some m' })

def restoreIPv6 : Code net (Except String Unit × Enforcer net) := do
  let (res, route) ← (net.restoreIPv6 e.route).right
  pure (res, { e with route })

/-- The first step of `clearLocked`. -/
def clearIPv6 : Code net (Except String Unit × Enforcer net) :=
  if e.ipv6 = .blocked then e.restoreIPv6 else pure (.ok (), e)

/-- The problem of a step, in the words of the report. -/
def problem (what : String) : Except String Unit → List String
  | .error err => [what ++ err]
  | .ok () => []

/-- Every step is tried and every failure reported. -/
def clear : Code net (Except String Unit × Enforcer net) := do
  let (ipv6, e) ← e.clearIPv6
  let (dns, e) ← e.restoreDns
  let (kill, e) ← e.disableKill backend
  let problems := problem "ipv6 restore: " ipv6 ++ problem "dns restore: " dns ++
    problem "kill switch: " kill
  pure (if problems = [] then .ok () else .error
    ("enforcement cleanup: " ++ "; ".intercalate problems),
    { e with applied := false, ipv6 := .unknown })

/-- The kill switch, with what there is to undo; `OFF` is no failure. -/
def applyKill (p : Plan) : Code net (Except String (List Undo) × Enforcer net) :=
  match p.killSwitch with
  | none | some .off => pure (.ok [], e)
  | some mode => do
    let (res, kill) ← (e.kill.enable backend mode p.endpointIP p.endpointPort p.tunAddr).left
    pure (res.map fun _ => [.kill], { e with kill })

/-- The manager is a new one, which stays when it fails. -/
def applyDns (p : Plan) : Code net (Except String Unit × Enforcer net) := do
  let (res, m) ← (net.applyDns (net.newDns p.tunIface) p.dnsMode p.dnsServers).right
  pure (res, { e with dnsMgr := some m })

def applyIPv6 (p : Plan) : Code net (Except String Unit × Enforcer net) :=
  if p.routeIPv6 then pure (.ok (), { e with ipv6 := .routed })
  else do
    let (res, route) ← (net.blockIPv6 e.route).right
    match res with
    | .error err => pure (.error err, { e with route })
    | .ok () => pure (.ok (), { e with route, ipv6 := .blocked })

/-- The steps of `Apply`, with what has been done when one fails. -/
def attempt (p : Plan) : Code net (Except String Unit × List Undo × Enforcer net) := do
  let (kill, e) ← e.applyKill backend p
  match kill with
  | .error err => pure (.error err, [], e)
  | .ok undo =>
    let (dns, e) ← e.applyDns p
    match dns with
    | .error err => pure (.error err, undo, e)
    | .ok () =>
      let (ipv6, e) ← e.applyIPv6 p
      match ipv6 with
      | .error err => pure (.error err, undo ++ [.dns], e)
      | .ok () => pure (.ok (), undo ++ [.dns] ++ if p.routeIPv6 then [] else [.ipv6], e)

/-- One undo, its error ignored. -/
def undo : Undo → Code net (Enforcer net)
  | .kill => do
    let (_, e) ← e.disableKill backend
    pure e
  | .dns => do
    let (_, e) ← e.restoreDns
    pure e
  | .ipv6 => do
    let (_, e) ← e.restoreIPv6
    pure e

/-- `rollback`: the undos in reverse order. -/
def rollback (e : Enforcer net) : List Undo → Code net (Enforcer net)
  | [] => pure e
  | u :: rest => do
    let e ← rollback e rest
    e.undo backend u

/-- The end of `Apply`. -/
def settle (res : Except String Unit) (undos : List Undo) :
    Code net (Except String Unit × Enforcer net) :=
  match res with
  | .error err => do
    let e ← rollback backend e undos
    pure (.error err, e)
  | .ok () => pure (.ok (), { e with applied := true })

/-- A posture that is applied is cleared first. -/
def clearApplied : Code net (Enforcer net) :=
  if e.applied then do
    let (_, e) ← e.clear backend
    pure e
  else pure e

def apply (p : Plan) : Code net (Except String Unit × Enforcer net) := do
  let e ← e.clearApplied backend
  let (res, undos, e) ← e.attempt backend p
  e.settle backend res undos

def failClosed : Code net (Except String Unit) :=
  if e.applied then (e.kill.failClosed backend).left else pure (.error "enforcement not active")

end Enforcer

/-! The orchestrator. -/

/-- What the client configuration says on leak protection. -/
structure Config where
  killSwitch : Option Firewall.Mode
  dnsMode : Dns.Mode
  dnsServers : List String
  ipv6Upstream : Bool

def stripMask (addr : String) : String := String.ofList (addr.toList.takeWhile (· ≠ '/'))

def veilnetResolver : String := "10.89.0.1"

def tunnelIfaceName : String := "veilnet"

/-- `resolved` is what `resolveEndpoint` gives. -/
def buildEnforcePlan (cfg : Config) (resolved : Except String (String × ℤ)) (tunAddrCIDR : String) :
    Except String Plan :=
  match resolved with
  | .error err => .error err
  | .ok (ip, port) =>
    let servers := if cfg.dnsMode = .veilnet ∨ cfg.dnsServers = [] then [veilnetResolver]
      else cfg.dnsServers
    .ok ⟨cfg.killSwitch, ip, port, stripMask tunAddrCIDR, tunnelIfaceName, cfg.dnsMode, servers,
      cfg.ipv6Upstream⟩

structure App (net : NetSide) where
  connected : Bool
  enforcer : Enforcer net

/-- What the other parts give `Connect`: the node and the key, the engine, and the plan. -/
structure Dial where
  ready : Except String Unit
  started : Except String Unit
  plan : Except String Plan

namespace App
variable {net : NetSide} (backend : Firewall.Backend) (a : App net)

def clearEnforcement : Enforcer.Code net (Except String Unit × App net) := do
  let (res, enforcer) ← a.enforcer.clear backend
  pure (res, { a with enforcer })

/-- `Connect` when leak protection has failed: the tunnel is torn down. -/
def refuse (err : String) : Enforcer.Code net (Except String Unit × App net) := do
  let (_, a) ← a.clearEnforcement backend
  pure (.error err, a)

/-- `Connect` once the tunnel is up. -/
def protect (p : Plan) : Enforcer.Code net (Except String Unit × App net) := do
  let (res, enforcer) ← a.enforcer.apply backend p
  match res with
  | .error err =>
    refuse backend { a with enforcer } ("leak protection failed, tunnel refused: " ++ err)
  | .ok () => pure (.ok (), { connected := true, enforcer })

def connect (d : Dial) : Enforcer.Code net (Except String Unit × App net) :=
  if a.connected then pure (.error "already connected; disconnect first", a)
  else
    match d.ready with
    | .error err => pure (.error err, a)
    | .ok () =>
      match d.started with
      | .error err => pure (.error err, a)
      | .ok () =>
        match d.plan with
        | .error err => a.refuse backend err
        | .ok p => a.protect backend p

/-- `stopped` is what `engine.Stop` gives. -/
def disconnect (stopped : Except String Unit) : Enforcer.Code net (Except String Unit × App net) :=
  if a.connected then
    match stopped with
    | .error err => pure (.error err, a)
    | .ok () => do
      let (_, a) ← a.clearEnforcement backend
      pure (.ok (), { a with connected := false })
  else pure (.error "not connected", a)

/-- `RotateCircuit` moves the engine to another node and leaves the enforcer alone. -/
def rotateCircuit (rotated : Except String Unit) :
    Enforcer.Code net (Except String Unit × App net) :=
  pure (rotated, a)

def failClosed : Enforcer.Code net (Except String Unit × App net) := do
  let res ← a.enforcer.failClosed backend
  pure (res, a)

end App

/-! The net side of Linux. -/

/-- The managers of `internal/dns` and `internal/routing` in the state directory. -/
@[reducible] def linuxNet (dir : StateDir) : NetSide where
  Cmd := Dns.Command ⊕ Routing.Command
  Reply := Sum.elim Dns.Command.Reply Routing.Command.Reply
  DnsManager := Dns.Manager
  RouteManager := Routing.Manager
  newDns := Dns.Manager.new dir
  applyDns m mode servers := (m.apply mode servers).left
  restoreDns m := m.restore.left
  blockIPv6 m := m.blockIPv6.right
  restoreIPv6 m := m.restoreIPv6.right

/-- The Linux machine on which every command works. -/
def calm : Machine (Sum.elim Firewall.Command.Reply
    (Sum.elim Dns.Command.Reply Routing.Command.Reply))
    (Firewall.Host × Dns.Resolver × Routing.Table) :=
  Script.both (Firewall.Command.act .works)
    (Script.both (Dns.Command.act .works) (Routing.Command.act .works))

/-- Its net side alone. -/
def linuxAct : Machine (linuxNet .single).Reply (Dns.Resolver × Routing.Table) :=
  Script.both (Dns.Command.act .works) (Routing.Command.act .works)

/-- One resolver in `resolv.conf`, no routes and no files. -/
def oneResolver : Dns.Resolver × Routing.Table :=
  (⟨some "nameserver 192.168.1.1\n", Files.empty⟩, ⟨∅, ∅, false, Files.empty⟩)

def bareMachine : Firewall.Host × Dns.Resolver × Routing.Table := (.bare, oneResolver)

def somePlan : Plan where
  killSwitch := some .onWhileConnected
  endpointIP := "203.0.113.7"
  endpointPort := 51820
  tunAddr := "10.89.0.2"
  tunIface := "veilnet"
  dnsMode := .veilnet
  dnsServers := ["10.89.0.1"]
  routeIPv6 := false

end VeilNet.Source
