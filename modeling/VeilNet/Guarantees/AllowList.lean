import VeilNet.Source.Firewall.Handshakes
import VeilNet.Source.Firewall.Packets

/-!
# One allow-list for every backend

The nftables rules let exactly the allow-list pass, and the iptables fallback does so for IPv4
only. The pf anchor blocks every packet: its last line is `block out all` and no rule is `quick`.
So all agree with the list exactly on the IPv4 packets that are not on it.
-/
namespace VeilNet.Guarantees.AllowList
open Lib Source Source.Firewall

/-- 10.0.0.0/8, 172.16.0.0/12 and 192.168.0.0/16. -/
def isPrivate (a : UInt32) : Bool :=
  a.toNat / 2 ^ 24 = 10 || a.toNat / 2 ^ 20 = 172 * 16 + 1 || a.toNat / 2 ^ 16 = 192 * 256 + 168

def udpTo (a : UInt32) (port : ℤ) : Packet → Bool
  | .v4 _ dst (.udp _ dport) => dst = a && (dport.toNat : ℤ) = port
  | .v4 _ _ (.tcp ..) | .v4 _ _ (.other _) | .v6 .. => false

def fromAddress (a : UInt32) : Packet → Bool
  | .v4 src _ _ => src = a
  | .v6 .. => false

def toPrivate : Packet → Bool
  | .v4 _ dst _ => isPrivate dst
  | .v6 .. => false

/-- The allow-list: the handshake, the tunnel, DHCP and, when allowed, the LAN. -/
def allowed (endpoint tun : UInt32) (spec : Spec) (p : Packet) : Bool :=
  udpTo endpoint spec.endpointPort p || fromAddress tun p || udpTo 0xFFFFFFFF 67 p ||
    spec.lanAllowed && toPrivate p

section texts

theorem dportIs_port (p : Packet) (port : ℤ) :
    p.dportIs (toString port) = match p.transport with
      | .udp _ dport | .tcp _ dport => decide ((dport.toNat : ℤ) = port)
      | .other _ => false := by
  unfold Packet.dportIs
  cases p.transport with
  | udp sport dport => exact decide_eq_decide.mpr (GoText.toString_int_eq_iff _ _)
  | tcp sport dport => exact decide_eq_decide.mpr (GoText.toString_int_eq_iff _ _)
  | other => rfl

theorem covers_address {text : String} {addr : UInt32} (parsed : IPText.parseQuad text = some addr)
    (a : UInt32) : covers text a = decide (a = addr) := by
  have plain := IPText.plain_of_parseQuad parsed
  have comma : ',' ∉ text.toList := fun member => by
    rcases plain _ member with digit | dot
    · exact absurd digit (by decide)
    · exact absurd dot (by decide)
  have slash : GoText.cut text '/' = none := by
    cases found : GoText.cut text '/' with
    | none => rfl
    | some parts =>
      obtain ⟨rfl, _⟩ := GoText.cut_iff.mp found
      rcases plain '/' (by simp) with digit | dot
      · exact absurd digit (by decide)
      · exact absurd dot (by decide)
  have whole : GoText.split text ',' = [text] := by
    rw [GoText.split, List.splitOn_eq_singleton comma]
    simp
  simp [covers, whole, readNet, slash, parsed, inNet, UInt32.toNat_inj]

theorem covers_ranges (a : UInt32) :
    covers "10.0.0.0/8" a = decide (a.toNat / 2 ^ 24 = 10) ∧
      covers "172.16.0.0/12" a = decide (a.toNat / 2 ^ 20 = 172 * 16 + 1) ∧
      covers "192.168.0.0/16" a = decide (a.toNat / 2 ^ 16 = 192 * 256 + 168) := by
  have nets : (GoText.split "10.0.0.0/8" ',').map readNet = [some (0x0A000000, 8)] ∧
      (GoText.split "172.16.0.0/12" ',').map readNet = [some (0xAC100000, 12)] ∧
      (GoText.split "192.168.0.0/16" ',').map readNet = [some (0xC0A80000, 16)] := by decide
  have any : ∀ nets : String, covers nets a =
      ((GoText.split nets ',').map readNet).any fun net => net.any (inNet · a) := fun nets => by
    rw [covers, List.any_map]
    rfl
  simp only [any, nets.1, nets.2.1, nets.2.2]
  exact ⟨by simp [inNet], by simp [inNet], by simp [inNet]⟩

theorem covers_list (a : UInt32) :
    covers "10.0.0.0/8,172.16.0.0/12,192.168.0.0/16" a = isPrivate a := by
  have nets : GoText.split "10.0.0.0/8,172.16.0.0/12,192.168.0.0/16" ',' =
      ["10.0.0.0/8", "172.16.0.0/12", "192.168.0.0/16"] := by decide
  obtain ⟨ten, oneSevenTwo, oneNineTwo⟩ := covers_ranges a
  have single : ∀ net ∈ ["10.0.0.0/8", "172.16.0.0/12", "192.168.0.0/16"],
      GoText.split net ',' = [net] := by decide
  simp only [List.forall_mem_cons, List.not_mem_nil, IsEmpty.forall_iff, implies_true,
    and_true] at single
  obtain ⟨first, second, third⟩ := single
  simp only [covers, first, second, third, List.any_cons, List.any_nil,
    Bool.or_false] at ten oneSevenTwo oneNineTwo
  simp only [covers, nets, List.any_cons, List.any_nil, Bool.or_false, ten, oneSevenTwo, oneNineTwo,
    isPrivate, Bool.or_assoc]

end texts

/-- What passes on the one hand and is allowed on the other. -/
def listed (b : Bool) : Policy := if b then .accept else .drop

section backends
variable {spec : Spec} {endpoint tun : UInt32} {h : Host}

theorem iptables_output (spec : Spec) (bare : h.iptables.output.rules = []) :
    ((Linux.enableIptables spec).exec works h).2.iptables.output = ⟨.drop,
      (if spec.lanAllowed then
        ["192.168.0.0/16", "172.16.0.0/12", "10.0.0.0/8"].map fun cidr =>
          ["-d", cidr, "-m", "comment", "--comment", "veilnet-ks-fallback", "-j", "ACCEPT"]
      else []) ++
        [["-p", "udp", "-d", "255.255.255.255", "--dport", "67",
            "-m", "comment", "--comment", "veilnet-ks-dhcp", "-j", "ACCEPT"],
          ["-s", spec.tunAddr, "-m", "comment", "--comment", "veilnet-ks-fallback", "-j", "ACCEPT"],
          ["-p", "udp", "-d", spec.endpointIP, "--dport", toString spec.endpointPort,
            "-m", "comment", "--comment", "veilnet-ks-endpoint", "-j", "ACCEPT"]]⟩ := by
  obtain ⟨nft, ⟨⟨policy, rules⟩, input⟩, profiles, netshRules, sentinel⟩ := h
  obtain rfl : rules = [] := bare
  obtain ⟨endpointIP, endpointPort, tunAddr, lanAllowed⟩ := spec
  cases lanAllowed <;> rfl

theorem covers_broadcast (a : UInt32) : covers "255.255.255.255" a = decide (a = 0xFFFFFFFF) :=
  covers_address (by decide) a

theorem udpTo_iff {text : String} {addr : UInt32} (covered : ∀ a, covers text a = decide (a = addr))
    (port : ℤ) (p : Packet) :
    (p.isUdp && p.dportIs (toString port) && p.dstIn text) = udpTo addr port p := by
  rw [dportIs_port]
  cases p with
  | v6 src dst transport => simp [udpTo, Packet.dstIn]
  | v4 src dst transport =>
    cases transport with
    | udp sport dport =>
      simp only [udpTo, Packet.dstIn, Packet.isUdp, Packet.transport, covered, Bool.true_and]
      exact Bool.and_comm _ _
    | tcp | other => rfl

theorem fromAddress_iff {text : String} (parsed : IPText.parseQuad text = some tun) (p : Packet) :
    p.srcIn text = fromAddress tun p := by
  cases p with
  | v4 src dst transport => exact covers_address parsed src
  | v6 => rfl

theorem toPrivate_iff (p : Packet) :
    p.dstIn "10.0.0.0/8,172.16.0.0/12,192.168.0.0/16" = toPrivate p := by
  cases p with
  | v4 src dst transport => exact covers_list dst
  | v6 => rfl

theorem toPrivate_ranges (p : Packet) :
    (p.dstIn "10.0.0.0/8" || p.dstIn "172.16.0.0/12" || p.dstIn "192.168.0.0/16") =
      toPrivate p := by
  cases p with
  | v4 src dst transport =>
    obtain ⟨ten, oneSevenTwo, oneNineTwo⟩ := covers_ranges dst
    simp only [Packet.dstIn, ten, oneSevenTwo, oneNineTwo, toPrivate, isPrivate]
  | v6 => rfl

theorem nft_verdict (endpointText : IPText.parseQuad spec.endpointIP = some endpoint)
    (tunText : IPText.parseQuad spec.tunAddr = some tun) (absent : h.nft = none) (p : Packet) :
    Nft.verdict ((Linux.enableNft spec).exec works h).2 p =
      listed (allowed endpoint tun spec p) := by
  have udp : ∀ {text : String} {addr : UInt32} (port : ℤ) (comment : List String),
      (∀ a, covers text a = decide (a = addr)) →
      Nft.hits ("udp" :: "dport" :: toString port :: "ip" :: "daddr" :: text :: "accept" :: comment)
        p = udpTo addr port p := by
    intro text addr port comment covered
    rw [Nft.hits, Nft.hits, Nft.hits, Bool.and_true, udpTo_iff covered]
  have handshake := fun comment => udp spec.endpointPort comment (covers_address endpointText)
  have dhcp : ∀ comment, Nft.hits ("udp" :: "dport" :: "67" :: "ip" :: "daddr" ::
      "255.255.255.255" :: "accept" :: comment) p = udpTo 0xFFFFFFFF 67 p :=
    fun comment => udp 67 comment covers_broadcast
  have tunnel : ∀ comment, Nft.hits ("ip" :: "saddr" :: spec.tunAddr :: "accept" :: comment) p =
      fromAddress tun p := fun comment => by
    rw [Nft.hits, Nft.hits, Bool.and_true, fromAddress_iff tunText]
  have lan : ∀ comment, Nft.hits ("ip" :: "daddr" :: "10.0.0.0/8,172.16.0.0/12,192.168.0.0/16" ::
      "accept" :: comment) p = toPrivate p := fun comment => by
    rw [Nft.hits, Nft.hits, Bool.and_true, toPrivate_iff]
  rw [Nft.verdict, (Linux.exec_enableNft spec absent).2.1]
  simp only [Linux.outputRules]
  rw [FirstMatch.verdict_const, listed, allowed]
  cases spec.lanAllowed <;>
    simp only [List.cons_append, List.nil_append, List.append_nil, List.any_cons, List.any_nil,
      handshake, dhcp, tunnel, lan, if_true, Bool.false_eq_true, if_false, Bool.or_false,
      Bool.true_and, Bool.false_and, Bool.or_assoc]

/-- The fallback enforces it on IPv4 and lets every other packet pass. -/
theorem iptables_verdict (endpointText : IPText.parseQuad spec.endpointIP = some endpoint)
    (tunText : IPText.parseQuad spec.tunAddr = some tun) (bare : h.iptables.output.rules = [])
    (p : Packet) :
    Iptables.verdict ((Linux.enableIptables spec).exec works h).2 p =
      if p.isV4 then listed (allowed endpoint tun spec p) else .accept := by
  have comment : ∀ name : String,
      Iptables.hits ["-m", "comment", "--comment", name, "-j", "ACCEPT"] p = true := by
    intro name
    rw [Iptables.hits, Iptables.hits]
  have udp : ∀ {text : String} {addr : UInt32} (port : ℤ) (name : String),
      (∀ a, covers text a = decide (a = addr)) →
      Iptables.hits ["-p", "udp", "-d", text, "--dport", toString port, "-m", "comment",
        "--comment", name, "-j", "ACCEPT"] p = udpTo addr port p := by
    intro text addr port name covered
    rw [Iptables.hits, Iptables.hits, Iptables.hits, comment, Bool.and_true, ← udpTo_iff covered,
      Bool.and_assoc, Bool.and_comm (p.dportIs (toString port))]
  have handshake := fun name => udp spec.endpointPort name (covers_address endpointText)
  have dhcp : ∀ name, Iptables.hits ["-p", "udp", "-d", "255.255.255.255", "--dport", "67", "-m",
      "comment", "--comment", name, "-j", "ACCEPT"] p = udpTo 0xFFFFFFFF 67 p :=
    fun name => udp 67 name covers_broadcast
  have tunnel : ∀ name, Iptables.hits ["-s", spec.tunAddr, "-m", "comment", "--comment", name,
      "-j", "ACCEPT"] p = fromAddress tun p := fun name => by
    rw [Iptables.hits, comment, Bool.and_true, fromAddress_iff tunText]
  have range : ∀ net name, Iptables.hits ["-d", net, "-m", "comment", "--comment", name,
      "-j", "ACCEPT"] p = p.dstIn net := fun net name => by
    rw [Iptables.hits, comment, Bool.and_true]
  rw [Iptables.verdict, iptables_output spec bare]
  dsimp only
  rw [FirstMatch.verdict_const, listed, allowed, ← toPrivate_ranges]
  cases spec.lanAllowed <;>
    simp only [List.cons_append, List.nil_append, List.map_cons, List.map_nil, List.any_cons,
      List.any_nil, handshake, dhcp, tunnel, range, if_true, Bool.false_eq_true, if_false,
      Bool.or_false, Bool.true_and, Bool.false_and] <;>
    ac_rfl

theorem anchor_ends (spec : Spec) :
    ∃ front, Pf.rules (Darwin.anchorRules spec) = front ++ [["block", "out", "all"]] := by
  have ends : ∃ text, Darwin.anchorRules spec =
      text ++ String.singleton '\n' ++ "block out all # veilnet-ks-default-deny\n" := by
    have lan : "pass out inet to 192.168.0.0/16 # veilnet-ks-lan\n" =
        "pass out inet to 192.168.0.0/16 # veilnet-ks-lan" ++ String.singleton '\n' := by decide
    have dhcp : "pass in proto udp from any port 67 to any port 68 # veilnet-ks-dhcp\n" =
        "pass in proto udp from any port 67 to any port 68 # veilnet-ks-dhcp" ++
          String.singleton '\n' := by decide
    unfold Darwin.anchorRules
    cases spec.lanAllowed with
    | true =>
      rw [if_pos rfl, lan]
      simp only [← String.append_assoc]
      exact ⟨_, rfl⟩
    | false =>
      rw [if_neg Bool.false_ne_true, dhcp, String.append_empty]
      simp only [← String.append_assoc]
      exact ⟨_, rfl⟩
  obtain ⟨text, same⟩ := ends
  have last : Pf.rules "block out all # veilnet-ks-default-deny\n" = [["block", "out", "all"]] := by
    decide
  rw [Pf.rules] at last
  refine ⟨Pf.rules text, ?_⟩
  rw [same, Pf.rules, GoText.split_append, List.map_append, List.filter_append, last, Pf.rules]

theorem pf_verdict (spec : Spec) (p : Packet) : Pf.verdict (Darwin.anchorRules spec) p = .drop := by
  obtain ⟨front, rules⟩ := anchor_ends spec
  have all : Pf.hits ["block", "out", "all"] p = true := by
    simp only [Pf.hits, Pf.criteria]
  rw [Pf.verdict, rules, List.reverse_append, List.reverse_singleton, List.singleton_append,
    FirstMatch.verdict, if_pos all]
  rfl

end backends

/-- For every specification with IPv4 addresses and every outbound packet: nft, iptables and pf
all decide as the allow-list does exactly when the packet is IPv4 and not on the list. -/
theorem backends_agree_iff (spec : Spec) (endpoint tun : UInt32)
    (endpointText : IPText.parseQuad spec.endpointIP = some endpoint)
    (tunText : IPText.parseQuad spec.tunAddr = some tun) (h : Host) (absent : h.nft = none)
    (bare : h.iptables.output.rules = []) (p : Packet) :
    (Nft.verdict ((Linux.enableNft spec).exec works h).2 p = listed (allowed endpoint tun spec p) ∧
        Iptables.verdict ((Linux.enableIptables spec).exec works h).2 p =
          listed (allowed endpoint tun spec p) ∧
        Pf.verdict (Darwin.anchorRules spec) p = listed (allowed endpoint tun spec p)) ↔
      p.isV4 = true ∧ allowed endpoint tun spec p = false := by
  rw [nft_verdict endpointText tunText absent, iptables_verdict endpointText tunText bare,
    pf_verdict]
  cases p.isV4 <;> cases allowed endpoint tun spec p <;> decide

section instances

def someSpec : Spec := ⟨"203.0.113.7", 51820, "10.89.0.2", true⟩

/-- DNS over TCP to 8.8.8.8, outside the tunnel. -/
def strayPacket : Packet := .v4 0xC0A80005 0x08080808 (.tcp 40000 53)

theorem backends_agree_on_stray :
    (Nft.verdict ((Linux.enableNft someSpec).exec works .bare).2 strayPacket =
          listed (allowed 0xCB007107 0x0A590002 someSpec strayPacket) ∧
        Iptables.verdict ((Linux.enableIptables someSpec).exec works .bare).2 strayPacket =
          listed (allowed 0xCB007107 0x0A590002 someSpec strayPacket) ∧
        Pf.verdict (Darwin.anchorRules someSpec) strayPacket =
          listed (allowed 0xCB007107 0x0A590002 someSpec strayPacket)) :=
  (backends_agree_iff someSpec 0xCB007107 0x0A590002 (by decide) (by decide) .bare
    rfl rfl strayPacket).mpr (by decide)

/-- The handshake passes nft and not pf; an IPv6 packet passes iptables and not nft. -/
theorem backends_disagree :
    let handshake : Packet := .v4 0xC0A80005 0xCB007107 (.udp 40000 51820)
    let ping : Packet := .v6 1 2 (.other 58)
    (Nft.verdict ((Linux.enableNft someSpec).exec works .bare).2 handshake = .accept ∧
        Pf.verdict (Darwin.anchorRules someSpec) handshake = .drop) ∧
      Nft.verdict ((Linux.enableNft someSpec).exec works .bare).2 ping = .drop ∧
        Iptables.verdict ((Linux.enableIptables someSpec).exec works .bare).2 ping = .accept :=
  ⟨⟨by decide, pf_verdict someSpec _⟩, by decide, by decide⟩

end instances

end VeilNet.Guarantees.AllowList
