import VeilNet.Source.Firewall.Host

/-!
The kill-switch backends for Linux and Windows, `internal/firewall/nft.go` and `netsh.go`, and the
rules of the pf anchor of `pf.go`. `CurrentPolicy` of `netsh.go` lowers the case of the output,
which is ASCII. Of pf only the text of the anchor is here.
-/
namespace VeilNet.Source.Firewall
open Lib

/-- Code that runs firewall commands. -/
abbrev Fw := Script Command.Reply

def run (c : OsCommand) : Fw (Except String String) := Script.perform (Command.os c)

def file (op : FileOp Sentinel) : Fw op.Reply := Script.perform (Command.file op)

structure Spec where
  endpointIP : String
  endpointPort : ℤ
  tunAddr : String
  lanAllowed : Bool

structure Backend where
  ruleNames : Spec → List String
  enable : Spec → Fw (Except String Unit)
  remove : List String → Fw (Except String Unit)
  setBlock : Fw (Except String Unit)
  restore : String → Fw (Except String Unit)
  currentPolicy : Fw (Except String String)

/-- A loop over commands that returns the first error. -/
def runSteps : List OsCommand → Fw (Except String Unit)
  | [] => pure (.ok ())
  | c :: rest => do
    match ← run c with
    | .error err => pure (.error err)
    | .ok _ => runSteps rest

/-- A loop over commands whose errors are ignored. -/
def runAll : List OsCommand → Fw Unit
  | [] => pure ()
  | c :: rest => do
    let _ ← run c
    runAll rest

namespace Linux

variable (spec : Spec)

def ruleNames : List String :=
  ["veilnet-ks-endpoint", "veilnet-ks-tunnel", "veilnet-ks-dhcp"] ++
    if spec.lanAllowed then ["veilnet-ks-lan"] else []

def currentPolicy : Fw (Except String String) := do
  match ← run .nftList with
  | .error _ => pure (.ok "accept")
  | .ok out =>
    if GoText.contains out "veilnet-ks-" then pure (.ok "veilnet-drop") else pure (.ok "accept")

def nftSteps : List OsCommand :=
  [.nftAddTable, .nftAddChain .output, .nftAddChain .input,
    .nftAddRule .output ["udp", "dport", toString spec.endpointPort, "ip", "daddr", spec.endpointIP,
      "accept", "comment", "\"veilnet-ks-endpoint\""],
    .nftAddRule .output ["ip", "saddr", spec.tunAddr, "accept", "comment",
      "\"veilnet-ks-tunnel\""],
    .nftAddRule .input ["ip", "daddr", spec.tunAddr, "accept", "comment",
      "\"veilnet-ks-tunnel\""],
    .nftAddRule .output ["udp", "dport", "67", "ip", "daddr", "255.255.255.255", "accept",
      "comment", "\"veilnet-ks-dhcp\""],
    .nftAddRule .input ["udp", "sport", "68", "accept", "comment", "\"veilnet-ks-dhcp\""]] ++
    if spec.lanAllowed then
      [.nftAddRule .output ["ip", "daddr", "10.0.0.0/8,172.16.0.0/12,192.168.0.0/16", "accept",
        "comment", "\"veilnet-ks-lan\""]]
    else []

def enableNft : Fw (Except String Unit) := runSteps (nftSteps spec)

/-- A rule of the fallback with its comment. -/
def commented (hook : Hook) (rule : List String) : OsCommand :=
  .iptablesInsert hook
    (rule ++ ["-m", "comment", "--comment", "veilnet-ks-fallback", "-j", "ACCEPT"])

def iptablesSteps : List OsCommand :=
  [.iptablesPolicy .output .drop, .iptablesPolicy .input .drop,
    .iptablesInsert .output ["-p", "udp", "-d", spec.endpointIP, "--dport",
      toString spec.endpointPort, "-m", "comment", "--comment", "veilnet-ks-endpoint", "-j",
      "ACCEPT"],
    commented .output ["-s", spec.tunAddr], commented .input ["-d", spec.tunAddr],
    .iptablesInsert .output ["-p", "udp", "-d", "255.255.255.255", "--dport", "67",
      "-m", "comment", "--comment", "veilnet-ks-dhcp", "-j", "ACCEPT"],
    .iptablesInsert .input ["-p", "udp", "--sport", "68",
      "-m", "comment", "--comment", "veilnet-ks-dhcp", "-j", "ACCEPT"]] ++
    if spec.lanAllowed then
      ["10.0.0.0/8", "172.16.0.0/12", "192.168.0.0/16"].map fun cidr =>
        commented .output ["-d", cidr]
    else []

def enableIptables : Fw (Except String Unit) := runSteps (iptablesSteps spec)

def enable : Fw (Except String Unit) := do
  match ← enableNft spec with
  | .ok () => pure (.ok ())
  | .error err =>
    match ← enableIptables spec with
    | .ok () => pure (.ok ())
    | .error ierr =>
      pure (.error ("firewall: nftables (" ++ err ++ ") and iptables (" ++ ierr ++ ") both failed"))

/-- The rule with nothing but a comment, which is none of those inserted. -/
def deleteCommented (name : String) : List OsCommand :=
  [.iptablesDelete .output ["-m", "comment", "--comment", name, "-j", "ACCEPT"],
    .iptablesDelete .input ["-m", "comment", "--comment", name, "-j", "ACCEPT"]]

def remove (names : List String) : Fw (Except String Unit) := do
  let nftErr ← run .nftDelete
  runAll (names.flatMap deleteCommented ++ deleteCommented "veilnet-ks-fallback")
  pure (nftErr.map fun _ => ())

/-- The loop of `SetBlock`, with what it does on an error. -/
def setBlockFrom : List OsCommand → Fw (Except String Unit)
  | [] => pure (.ok ())
  | c :: rest => do
    match ← run c with
    | .error err =>
      let _ ← run (.iptablesPolicy .output .drop)
      let _ ← run (.iptablesPolicy .input .drop)
      pure (.error err)
    | .ok _ => setBlockFrom rest

def setBlock : Fw (Except String Unit) :=
  setBlockFrom [.nftAddTable, .nftAddChain .output, .nftAddChain .input]

def restore (policy : String) : Fw (Except String Unit) :=
  if policy = "veilnet-drop" then pure (.ok ())
  else do
    let err ← run .nftDelete
    let _ ← run (.iptablesPolicy .output .accept)
    let _ ← run (.iptablesPolicy .input .accept)
    pure (err.map fun _ => ())

end Linux

def linuxBackend : Backend :=
  ⟨Linux.ruleNames, Linux.enable, Linux.remove, Linux.setBlock, Linux.restore, Linux.currentPolicy⟩

namespace Windows

def allowRules (spec : Spec) : List (List String) :=
  let base := ["group=\"VeilNet Kill Switch\"", "enable=yes"]
  [base ++ ["name=VeilNet-KS-Allow-Endpoint", "dir=out", "action=allow", "protocol=UDP",
      "remoteip=" ++ spec.endpointIP, "remoteport=" ++ toString spec.endpointPort],
    base ++ ["name=VeilNet-KS-Allow-Tunnel-Out", "dir=out", "action=allow",
      "localip=" ++ spec.tunAddr],
    base ++ ["name=VeilNet-KS-Allow-Tunnel-In", "dir=in", "action=allow",
      "remoteip=" ++ spec.tunAddr],
    base ++ ["name=VeilNet-KS-Allow-DHCP-Out", "dir=out", "action=allow", "protocol=UDP",
      "remoteip=255.255.255.255", "remoteport=67"],
    base ++ ["name=VeilNet-KS-Allow-DHCP-In", "dir=in", "action=allow", "protocol=UDP",
      "localport=68"]] ++
    if spec.lanAllowed then
      [base ++ ["name=VeilNet-KS-Allow-LAN", "dir=out", "action=allow",
        "remoteip=10.0.0.0/8,172.16.0.0/12,192.168.0.0/16"]]
    else []

/-- The names in the rules: what follows `name=`. -/
def ruleNames (spec : Spec) : List String :=
  (allowRules spec).flatMap fun rule => rule.filterMap fun tok =>
    if "name=".toList.isPrefixOf tok.toList then some (String.ofList (tok.toList.drop 5)) else none

/-- The error of the first rule that cannot be added. -/
def enable (spec : Spec) : Fw (Except String Unit) := do
  match ← runSteps ((allowRules spec).map .netshAdd) with
  | .ok () => pure (.ok ())
  | .error err => pure (.error ("firewall: add rule: " ++ err))

/-- Every rule is tried; the first error is returned. -/
def remove : List String → Fw (Except String Unit)
  | [] => pure (.ok ())
  | name :: rest => do
    let here ← run (.netshDelete name)
    let later ← remove rest
    pure (here.bind fun _ => later)

def setBlock : Fw (Except String Unit) := do
  let res ← run (.netshPolicy "blockinbound,blockoutbound")
  pure (res.map fun _ => ())

def restore (policy : String) : Fw (Except String Unit) := do
  let res ← run (.netshPolicy policy)
  pure (res.map fun _ => ())

/-- The line is the policy of a profile that blocks outbound traffic. -/
def blocksOutbound (line : String) : Bool :=
  let l := GoText.toLower (GoText.trimSpace line)
  GoText.contains l "firewall policy" && GoText.contains l "blockoutbound"

/-- The loop over the lines: any profile that blocks decides. -/
def readPolicy (lines : List String) : String :=
  if lines.any blocksOutbound then "blockinbound,blockoutbound" else "blockinbound,allowoutbound"

def currentPolicy : Fw (Except String String) := do
  match ← run .netshShow with
  | .error err => pure (.error err)
  | .ok out => pure (.ok (readPolicy (GoText.split out '\n')))

end Windows

def windowsBackend : Backend :=
  ⟨Windows.ruleNames, Windows.enable, Windows.remove, Windows.setBlock, Windows.restore,
    Windows.currentPolicy⟩

namespace Darwin

def pfAnchor : String := "com.veilnet.killswitch"

/-- The text that `pfctl` loads into the anchor. -/
def anchorRules (spec : Spec) : String :=
  "# " ++ pfAnchor ++ " (VeilNet kill switch: fail-closed allow-list)\n" ++
    "pass out proto udp to " ++ spec.endpointIP ++ " port " ++ toString spec.endpointPort ++
      " # veilnet-ks-endpoint\n" ++
    "pass out inet from " ++ spec.tunAddr ++ " to any # veilnet-ks-tunnel\n" ++
    "pass in inet from " ++ spec.tunAddr ++ " to any # veilnet-ks-tunnel\n" ++
    "pass out proto udp to 255.255.255.255 port 67 # veilnet-ks-dhcp\n" ++
    "pass in proto udp from any port 67 to any port 68 # veilnet-ks-dhcp\n" ++
    (if spec.lanAllowed then
      "pass out inet to 10.0.0.0/8 # veilnet-ks-lan\n" ++
        "pass out inet to 172.16.0.0/12 # veilnet-ks-lan\n" ++
        "pass out inet to 192.168.0.0/16 # veilnet-ks-lan\n"
    else "") ++
    "block out all # veilnet-ks-default-deny\n"

end Darwin

end VeilNet.Source.Firewall
