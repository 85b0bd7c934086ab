import VeilNet.Source.StateFile
import VeilNet.Lib.GoText

/-!
The firewall and the commands that `internal/firewall` runs on it: the table `inet veilnet` of
nftables, the OUTPUT and INPUT chains of iptables, the Windows firewall, and the sentinel file. A
rule is the list of its arguments. A command fails when its fate says so or when it cannot be
carried out; then it changes nothing. Other tables and chains are left out.
-/
namespace VeilNet.Source.Firewall
open Lib

inductive Mode where
  | off | onWhileConnected | alwaysOn
  deriving DecidableEq

/-- The crash-recovery record. -/
structure Sentinel where
  rules : List String
  policy : String
  endpoint : String
  mode : Mode
  deriving DecidableEq

inductive Hook where
  | output | input
  deriving DecidableEq

inductive Policy where
  | accept | drop
  deriving DecidableEq

structure Chain where
  policy : Policy
  rules : List (List String)
  deriving DecidableEq

/-- The chains `out` and `in` of the table `inet veilnet`. -/
structure Table where
  output : Option Chain
  input : Option Chain
  deriving DecidableEq

/-- The chains OUTPUT and INPUT of iptables, which always exist. -/
structure Filter where
  output : Chain
  input : Chain
  deriving DecidableEq

inductive Inbound where
  | block | blockAlways | allow
  deriving DecidableEq

inductive Outbound where
  | allow | block
  deriving DecidableEq

structure ProfilePolicy where
  inbound : Inbound
  outbound : Outbound
  deriving DecidableEq

structure Profiles where
  domainProfile : ProfilePolicy
  privateProfile : ProfilePolicy
  publicProfile : ProfilePolicy
  deriving DecidableEq

structure Host where
  nft : Option Table
  iptables : Filter
  profiles : Profiles
  netshRules : List (List String)
  sentinel : Files Sentinel

/-- The firewall of a machine on which nothing has been set up. -/
def Host.bare : Host :=
  ⟨none, ⟨⟨.accept, []⟩, ⟨.accept, []⟩⟩, ⟨⟨.block, .allow⟩, ⟨.block, .allow⟩, ⟨.block, .allow⟩⟩, [],
    Files.empty⟩

/-- What `Run` is called with: the arguments that vary. -/
inductive OsCommand where
  /-- `nft list table inet veilnet` -/
  | nftList
  /-- `nft add table inet veilnet` -/
  | nftAddTable
  /-- `nft add chain inet veilnet out|in { type filter hook .. priority 0 ; policy drop ; }` -/
  | nftAddChain (hook : Hook)
  /-- `nft add rule inet veilnet out|in ..` -/
  | nftAddRule (hook : Hook) (rule : List String)
  /-- `nft delete table inet veilnet` -/
  | nftDelete
  /-- `iptables -P OUTPUT|INPUT ..` -/
  | iptablesPolicy (hook : Hook) (policy : Policy)
  /-- `iptables -I OUTPUT|INPUT 1 ..` -/
  | iptablesInsert (hook : Hook) (rule : List String)
  /-- `iptables -D OUTPUT|INPUT ..` -/
  | iptablesDelete (hook : Hook) (rule : List String)
  /-- `netsh advfirewall firewall add rule ..` -/
  | netshAdd (rule : List String)
  /-- `netsh advfirewall firewall delete rule name=..` -/
  | netshDelete (name : String)
  /-- `netsh advfirewall set allprofiles firewallpolicy ..` -/
  | netshPolicy (policy : String)
  /-- `netsh advfirewall show allprofiles` -/
  | netshShow

inductive Command where
  | os (c : OsCommand)
  | file (op : FileOp Sentinel)

/-- `Run` returns the output or an error. -/
abbrev Command.Reply : Command → Type
  | .os _ => Except String String
  | .file op => op.Reply

def Chain.listing (name hook : String) (c : Chain) : String :=
  "\tchain " ++ name ++ " \x7b\n\t\ttype filter hook " ++ hook ++ " priority filter; policy " ++
    (match c.policy with | .accept => "accept" | .drop => "drop") ++ ";\n" ++
    String.join (c.rules.map fun rule => "\t\t" ++ " ".intercalate rule ++ "\n") ++ "\t\x7d\n"

def Table.listing (t : Table) : String :=
  "table inet veilnet \x7b\n" ++ (t.output.elim "" (Chain.listing "out" "output")) ++
    (t.input.elim "" (Chain.listing "in" "input")) ++ "\x7d\n"

def Table.addChain (t : Table) : Hook → Table
  | .output => { t with output := some ⟨.drop, (t.output.elim [] Chain.rules)⟩ }
  | .input => { t with input := some ⟨.drop, (t.input.elim [] Chain.rules)⟩ }

/-- A rule goes to the end of its chain. -/
def Table.addRule (t : Table) (rule : List String) : Hook → Option Table
  | .output => t.output.map fun c => { t with output := some { c with rules := c.rules ++ [rule] } }
  | .input => t.input.map fun c => { t with input := some { c with rules := c.rules ++ [rule] } }

def Filter.chain (f : Filter) : Hook → Chain
  | .output => f.output
  | .input => f.input

def Filter.set (f : Filter) (c : Chain) : Hook → Filter
  | .output => { f with output := c }
  | .input => { f with input := c }

def ProfilePolicy.text (p : ProfilePolicy) : String :=
  (match p.inbound with
    | .block => "BlockInbound" | .blockAlways => "BlockInboundAlways" | .allow => "AllowInbound") ++
    (match p.outbound with | .allow => ",AllowOutbound" | .block => ",BlockOutbound")

/-- The policies that are set by the text. -/
def ProfilePolicy.ofText (text : String) : Option ProfilePolicy :=
  if text = "blockinbound,allowoutbound" then some ⟨.block, .allow⟩
  else if text = "blockinbound,blockoutbound" then some ⟨.block, .block⟩
  else if text = "blockinboundalways,allowoutbound" then some ⟨.blockAlways, .allow⟩
  else if text = "blockinboundalways,blockoutbound" then some ⟨.blockAlways, .block⟩
  else if text = "allowinbound,allowoutbound" then some ⟨.allow, .allow⟩
  else if text = "allowinbound,blockoutbound" then some ⟨.allow, .block⟩
  else none

/-- The lines of the output of `netsh advfirewall show allprofiles`, without those on other
settings. -/
def Profiles.report (p : Profiles) : List String :=
  ["Domain Profile Settings: ", "Firewall Policy                       " ++ p.domainProfile.text,
    "Private Profile Settings: ", "Firewall Policy                       " ++ p.privateProfile.text,
    "Public Profile Settings: ", "Firewall Policy                       " ++ p.publicProfile.text,
    "Ok.", ""]

def exitStatus : String := "exit status 1"

def OsCommand.run (h : Host) : OsCommand → Except String String × Host
  | .nftList =>
    match h.nft with
    | none => (.error exitStatus, h)
    | some t => (.ok t.listing, h)
  | .nftAddTable => (.ok "", { h with nft := some (h.nft.getD ⟨none, none⟩) })
  | .nftAddChain hook =>
    match h.nft with
    | none => (.error exitStatus, h)
    | some t => (.ok "", { h with nft := some (t.addChain hook) })
  | .nftAddRule hook rule =>
    match h.nft.bind fun t => t.addRule rule hook with
    | none => (.error exitStatus, h)
    | some t => (.ok "", { h with nft := some t })
  | .nftDelete =>
    match h.nft with
    | none => (.error exitStatus, h)
    | some _ => (.ok "", { h with nft := none })
  | .iptablesPolicy hook policy =>
    (.ok "", { h with iptables := h.iptables.set { h.iptables.chain hook with policy } hook })
  | .iptablesInsert hook rule =>
    let c := h.iptables.chain hook
    (.ok "", { h with iptables := h.iptables.set { c with rules := rule :: c.rules } hook })
  | .iptablesDelete hook rule =>
    let c := h.iptables.chain hook
    if rule ∈ c.rules then
      (.ok "", { h with iptables := h.iptables.set { c with rules := c.rules.erase rule } hook })
    else (.error exitStatus, h)
  | .netshAdd rule => (.ok "Ok.", { h with netshRules := h.netshRules ++ [rule] })
  | .netshDelete name =>
    if h.netshRules.any (·.contains ("name=" ++ name)) then
      (.ok "Ok.", { h with
        netshRules := h.netshRules.filter fun rule => !rule.contains ("name=" ++ name) })
    else (.error exitStatus, h)
  | .netshPolicy policy =>
    match ProfilePolicy.ofText policy with
    | none => (.error exitStatus, h)
    | some p => (.ok "Ok.", { h with profiles := ⟨p, p, p⟩ })
  | .netshShow => (.ok ("\n".intercalate h.profiles.report), h)

/-- The command as its fate has it. -/
def Command.act (fate : Fate) : Machine Command.Reply Host
  | .os c, h =>
    match fate with
    | .works => c.run h
    | .fails err _ => (.error err, h)
  | .file op, h =>
    ((op.act fate h.sentinel).1, { h with sentinel := (op.act fate h.sentinel).2 })

end VeilNet.Source.Firewall
