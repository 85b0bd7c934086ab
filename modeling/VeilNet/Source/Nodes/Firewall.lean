import Mathlib.Data.Int.Notation
import VeilNet.Lib.FirstMatch

/-!
The forwarding and NAT setup of `internal/nodes/firewall.go`. A command is what it asks of the
host, and `Command.line` the text that `FirewallCommands` shows. What `iptables` takes as an
interface or a source, and what a failing command reports, are parameters; a port outside 0..65535
is refused.
-/
namespace VeilNet.Source.Nodes.Firewall
open Lib

/-- The fields of the node configuration that are read here. -/
structure Config where
  wgInterface : String
  wgListenPort : ℤ
  cgnat : String
  allowedPorts : List ℤ
  deniedPorts : List ℤ
  defaultAllow : Bool

inductive GOOS where
  | windows | darwin | linux | other
  deriving DecidableEq

inductive Target where
  | accept | reject
  deriving DecidableEq

def Target.word : Target → String
  | .accept => "ACCEPT"
  | .reject => "REJECT"

/-- A rule of the FORWARD chain; `tcpDport` stands for `-p tcp --dport`. -/
structure Rule where
  inIface : Option String
  outIface : Option String
  tcpDport : Option ℤ
  target : Target
  deriving DecidableEq

def Rule.words (r : Rule) : List String :=
  (match r.inIface with | some name => ["-i", name] | none => []) ++
  (match r.outIface with | some name => ["-o", name] | none => []) ++
  (match r.tcpDport with | some p => ["-p", "tcp", "--dport", toString p] | none => []) ++
  ["-j", r.target.word]

inductive Command where
  | enableForwarding
  | ensureForward (r : Rule)
  | ensureMasquerade (source : String)
  | appendForward (r : Rule) (comment : String)
  | insertForward (r : Rule) (comment : String)

def joined (words : List String) : String := " ".intercalate words

def Command.line : Command → String
  | .enableForwarding => "sysctl -w net.ipv4.ip_forward=1"
  | .ensureForward r =>
    "iptables -C FORWARD " ++ joined r.words ++ " 2>/dev/null || iptables -A FORWARD " ++
      joined r.words
  | .ensureMasquerade source =>
    "iptables -t nat -C POSTROUTING -s " ++ source ++
      " -j MASQUERADE 2>/dev/null || iptables -t nat -A POSTROUTING -s " ++ source ++
      " -j MASQUERADE"
  | .appendForward r comment => "iptables -A FORWARD " ++ joined r.words ++ "  # " ++ comment
  | .insertForward r comment => "iptables -I FORWARD " ++ joined r.words ++ "  # " ++ comment

namespace Config

variable (cfg : Config)

def fromTunnel (target : Target) : Rule := ⟨some cfg.wgInterface, none, none, target⟩

def toTunnel : Rule := ⟨none, some cfg.wgInterface, none, .accept⟩

def fromTunnelTo (p : ℤ) (target : Target) : Rule :=
  ⟨some cfg.wgInterface, none, some p, target⟩

def policyCommands : List Command :=
  cfg.deniedPorts.map (fun p => .appendForward (cfg.fromTunnelTo p .reject) "operator deny") ++
  if !cfg.defaultAllow then
    .appendForward (cfg.fromTunnel .reject) "default-deny egress" ::
      cfg.allowedPorts.map (fun p => .insertForward (cfg.fromTunnelTo p .accept) "operator allow")
  else []

def linuxCommands : List Command :=
  [ .enableForwarding, .ensureForward (cfg.fromTunnel .accept), .ensureForward cfg.toTunnel,
    .ensureMasquerade cfg.cgnat ] ++ cfg.policyCommands

def firewallCommands (goos : GOOS) (cfg : Config) : List String :=
  match goos with
  | .windows =>
    [ "netsh interface portproxy reset",
      "netsh advfirewall firewall add rule name=\"veilnet-" ++ cfg.wgInterface ++
        "-in\" dir=in action=allow protocol=UDP localport=" ++ toString cfg.wgListenPort,
      "# Enable IP forwarding: Set-ItemProperty " ++
        "HKLM:\\SYSTEM\\CurrentControlSet\\Services\\Tcpip\\Parameters IPEnableRouter 1",
      "# NAT via Internet Connection Sharing or New-NetNat -Name veilnet " ++
        "-InternalIPInterfaceAddressPrefix " ++ cfg.cgnat ]
  | .darwin =>
    [ "# sysctl -w net.inet.ip.forwarding=1",
      "# echo \"nat on en0 from " ++ cfg.cgnat ++ " to any -> (en0)\" | sudo pfctl -ef -" ]
  | .linux | .other => cfg.linuxCommands.map Command.line

end Config

/-- What the commands change on the host: forwarding, the FORWARD chain, and the
masqueraded sources of the POSTROUTING chain. -/
structure Host where
  ipForward : Bool
  forward : List Rule
  postrouting : List String

structure Failure where
  err : String
  output : String

/-- `report` is what a failing command says, its output trimmed. -/
structure Iptables where
  interfaceOK : String → Bool
  sourceOK : String → Bool
  report : List String → Failure

variable (ipt : Iptables)

def Iptables.takes (r : Rule) : Bool :=
  r.inIface.all ipt.interfaceOK && r.outIface.all ipt.interfaceOK &&
    r.tcpDport.all fun p => 0 ≤ p && p ≤ 65535

/-- An edit of the FORWARD chain; nothing happens when the rule is refused. -/
def Host.editForward (h : Host) (r : Rule) (e : FirstMatch.Edit Rule) : Host :=
  if ipt.takes r then { h with forward := FirstMatch.edit h.forward e } else h

def Host.masquerade (h : Host) (source : String) : Host :=
  if ipt.sourceOK source then
    { h with postrouting := FirstMatch.edit h.postrouting (.ensure source) }
  else h

/-- What a line of `FirewallCommands` does when it is executed. -/
def Host.exec (h : Host) : Command → Host
  | .enableForwarding => { h with ipForward := true }
  | .ensureForward r => h.editForward ipt r (.ensure r)
  | .ensureMasquerade source => h.masquerade ipt source
  | .appendForward r _ => h.editForward ipt r (.append r)
  | .insertForward r _ => h.editForward ipt r (.insert r)

def warning (words : List String) (f : Failure) : String :=
  joined words ++ ": " ++ f.err ++ " (" ++ f.output ++ ")"

/-- The local `iptables` of `ApplyFirewall`, for the FORWARD chain. -/
def ensureForward (h : Host) (r : Rule) : Host × List String :=
  let words := "iptables" :: "-A" :: "FORWARD" :: r.words
  (h.editForward ipt r (.ensure r), if ipt.takes r then [] else [warning words (ipt.report words)])

def ensureMasquerade (h : Host) (source : String) : Host × List String :=
  let words := ["iptables", "-t", "nat", "-A", "POSTROUTING", "-s", source, "-j", "MASQUERADE"]
  (h.masquerade ipt source, if ipt.sourceOK source then [] else [warning words (ipt.report words)])

/-- `firewallWarning`: no error without warnings. -/
def firewallWarning (warnings : List String) : Option String :=
  if warnings.length = 0 then none
  else some ("nodes: firewall warnings: " ++ "; ".intercalate warnings)

/-- `sysctl` is how the first command ends, `found` whether there is an `iptables`. -/
def applyFirewall (goos : GOOS) (sysctl : Except Failure Unit) (found : Bool)
    (cfg : Config) (h : Host) : Host × List String × Option String :=
  let cmds := cfg.firewallCommands goos
  if goos ≠ .linux then (h, cmds, none)
  else
    let (h, warnings) : Host × List String := match sysctl with
      | .error f => (h, [warning ["sysctl", "-w", "net.ipv4.ip_forward=1"] f])
      | .ok () => ({ h with ipForward := true }, [])
    if !found then
      (h, cmds, firewallWarning (warnings ++
        ["iptables not found; skipping NAT setup (see docs/NODE_OPERATOR.md)"]))
    else
      let (h, first) := ensureForward ipt h (cfg.fromTunnel .accept)
      let (h, second) := ensureForward ipt h cfg.toTunnel
      let (h, third) := ensureMasquerade ipt h cfg.cgnat
      (h, cmds, firewallWarning (warnings ++ first ++ second ++ third))

/-- A forwarded TCP packet. -/
structure Packet where
  inIface : String
  outIface : String
  dport : UInt16

/-- A name that ends in `+` stands for every interface that starts with the rest;
the empty name stands for all. -/
def ifaceMatches (pattern name : String) : Bool :=
  if pattern = "" then true
  else if pattern.toList.getLast? = some '+' then
    pattern.toList.dropLast.isPrefixOf name.toList
  else pattern = name

def Rule.hits (r : Rule) (pkt : Packet) : Bool :=
  r.inIface.all (ifaceMatches · pkt.inIface) && r.outIface.all (ifaceMatches · pkt.outIface) &&
    r.tcpDport.all fun p : ℤ => p = pkt.dport.toNat

/-- The chain's policy is ACCEPT. -/
def Host.verdict (h : Host) (pkt : Packet) : Target :=
  FirstMatch.verdict Rule.hits Rule.target .accept h.forward pkt

theorem ifaceMatches_self (name : String) : ifaceMatches name name = true := by
  unfold ifaceMatches
  split
  · rfl
  · split
    · exact List.isPrefixOf_iff_prefix.mpr (List.dropLast_prefix name.toList)
    · exact decide_eq_true rfl

end VeilNet.Source.Nodes.Firewall
