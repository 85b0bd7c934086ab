import VeilNet.Source.Firewall.Host
import VeilNet.Lib.FirstMatch
import VeilNet.Lib.GoNet

/-!
Outbound packets, and what nft, iptables and pf make of the rules. nft and iptables let the first
rule that matches decide, then the policy of the chain; pf the last, and what no rule matches
passes. iptables sees only IPv4. A list of networks with commas is their union. Inbound packets
and connection tracking are left out.
-/
namespace VeilNet.Source.Firewall
open Lib

inductive Transport where
  | udp (sport dport : UInt16)
  | tcp (sport dport : UInt16)
  | other (protocol : UInt8)

inductive Packet where
  | v4 (src dst : UInt32) (transport : Transport)
  | v6 (src dst : BitVec 128) (transport : Transport)

/-- An address, or a network as address and prefix length. -/
def readNet (text : String) : Option (UInt32 × ℕ) :=
  match GoText.cut text '/' with
  | none => (IPText.parseQuad text).map fun base => (base, 32)
  | some (base, length) => do
    return (← IPText.parseQuad base, (← IPText.parseOctet length).toNat)

def inNet (net : UInt32 × ℕ) (a : UInt32) : Bool :=
  a.toNat / 2 ^ (32 - net.2) = net.1.toNat / 2 ^ (32 - net.2)

/-- The address is in one of the networks. -/
def covers (nets : String) (a : UInt32) : Bool :=
  (GoText.split nets ',').any fun net => (readNet net).any (inNet · a)

namespace Packet

def isV4 : Packet → Bool
  | .v4 .. => true
  | .v6 .. => false

def transport : Packet → Transport
  | .v4 _ _ transport | .v6 _ _ transport => transport

def isUdp (p : Packet) : Bool :=
  match p.transport with
  | .udp .. => true
  | .tcp .. | .other _ => false

/-- The port as the rules write it. -/
def sportIs (port : String) (p : Packet) : Bool :=
  match p.transport with
  | .udp sport _ | .tcp sport _ => port = toString sport.toNat
  | .other _ => false

def dportIs (port : String) (p : Packet) : Bool :=
  match p.transport with
  | .udp _ dport | .tcp _ dport => port = toString dport.toNat
  | .other _ => false

def srcIn (nets : String) : Packet → Bool
  | .v4 src _ _ => covers nets src
  | .v6 .. => false

def dstIn (nets : String) : Packet → Bool
  | .v4 _ dst _ => covers nets dst
  | .v6 .. => false

end Packet

namespace Nft

def hits : List String → Packet → Bool
  | "udp" :: "dport" :: port :: rest, p => p.isUdp && p.dportIs port && hits rest p
  | "udp" :: "sport" :: port :: rest, p => p.isUdp && p.sportIs port && hits rest p
  | "ip" :: "daddr" :: nets :: rest, p => p.dstIn nets && hits rest p
  | "ip" :: "saddr" :: nets :: rest, p => p.srcIn nets && hits rest p
  | "accept" :: _, _ => true
  | _, _ => false

/-- Without a chain, the packet passes. -/
def verdict (h : Host) (p : Packet) : Policy :=
  match h.nft.bind Table.output with
  | none => .accept
  | some chain => FirstMatch.verdict hits (fun _ => .accept) chain.policy chain.rules p

end Nft

namespace Iptables

def hits : List String → Packet → Bool
  | "-p" :: "udp" :: rest, p => p.isUdp && hits rest p
  | "-s" :: net :: rest, p => p.srcIn net && hits rest p
  | "-d" :: net :: rest, p => p.dstIn net && hits rest p
  | "--sport" :: port :: rest, p => p.sportIs port && hits rest p
  | "--dport" :: port :: rest, p => p.dportIs port && hits rest p
  | "-m" :: "comment" :: "--comment" :: _ :: rest, p => hits rest p
  | "-j" :: "ACCEPT" :: _, _ => true
  | _, _ => false

def verdict (h : Host) (p : Packet) : Policy :=
  if p.isV4 then
    FirstMatch.verdict hits (fun _ => .accept) h.iptables.output.policy h.iptables.output.rules p
  else .accept

end Iptables

namespace Pf

def srcIs (host : String) (p : Packet) : Bool := host = "any" || p.srcIn host

def dstIs (host : String) (p : Packet) : Bool := host = "any" || p.dstIn host

def criteria : List String → Packet → Bool
  | [], _ => true
  | "all" :: rest, p => criteria rest p
  | "inet" :: rest, p => p.isV4 && criteria rest p
  | "proto" :: "udp" :: rest, p => p.isUdp && criteria rest p
  | "from" :: host :: "port" :: port :: rest, p => srcIs host p && p.sportIs port && criteria rest p
  | "from" :: host :: rest, p => srcIs host p && criteria rest p
  | "to" :: host :: "port" :: port :: rest, p => dstIs host p && p.dportIs port && criteria rest p
  | "to" :: host :: rest, p => dstIs host p && criteria rest p
  | _, _ => false

/-- The rules of a text: the words of each line, up to a comment. -/
def rules (text : String) : List (List String) :=
  ((GoText.split text '\n').map fun line =>
    GoText.fields (String.ofList (line.toList.takeWhile (· ≠ '#')))).filter (· ≠ [])

def hits : List String → Packet → Bool
  | _ :: "out" :: rest, p => criteria rest p
  | _, _ => false

def target (rule : List String) : Policy := if rule.head? = some "block" then .drop else .accept

def verdict (text : String) (p : Packet) : Policy :=
  FirstMatch.verdict hits target .accept (rules text).reverse p

end Pf

end VeilNet.Source.Firewall
