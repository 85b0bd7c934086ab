import VeilNet.Source.Nodes.Firewall

/-!
# The egress port policy

Both ways of setting up the FORWARD chain first append a rule that accepts everything from the
tunnel. Rejecting rules are appended behind it and never reached, accepting ones inserted before
it. So every packet from the tunnel is accepted, whatever the ports.
-/
namespace VeilNet.Guarantees.EgressPolicy
open Lib Source.Nodes.Firewall

/-- What the configuration says about an outbound TCP port. -/
def policy (cfg : Config) (p : UInt16) : Target :=
  if (p.toNat : ℤ) ∈ cfg.deniedPorts then .reject
  else if cfg.defaultAllow = true ∨ (p.toNat : ℤ) ∈ cfg.allowedPorts then .accept
  else .reject

/-- The host before anything is set up: an empty chain. -/
def fresh : Host := ⟨false, [], []⟩

/-- The host after every line of `FirewallCommands`. -/
def rendered (ipt : Iptables) (cfg : Config) : Host :=
  Run.run (Host.exec ipt) fresh cfg.linuxCommands

def applied (ipt : Iptables) (sysctl : Except Failure Unit) (found : Bool) (cfg : Config) : Host :=
  (applyFirewall ipt .linux sysctl found cfg fresh).1

section chains
variable {ipt : Iptables} {cfg : Config} {h : Host}

/-- Packets that come from the tunnel. -/
def Egress (cfg : Config) (pkt : Packet) : Prop := pkt.inIface = cfg.wgInterface

/-- The chain accepts what comes from the tunnel, by a rule that no edit below
overtakes. -/
def Accepts (cfg : Config) (h : Host) : Prop :=
  FirstMatch.Settles Rule.hits Rule.target (Egress cfg) .accept h.forward

theorem takes_fromTunnel (target : Target) :
    ipt.takes (cfg.fromTunnel target) = ipt.interfaceOK cfg.wgInterface := by
  simp [Iptables.takes, Config.fromTunnel]

theorem fromTunnel_hits (target : Target) {pkt : Packet} (egress : Egress cfg pkt) :
    (cfg.fromTunnel target).hits pkt = true := by
  have same : ifaceMatches cfg.wgInterface pkt.inIface = true := by
    rw [show pkt.inIface = cfg.wgInterface from egress]
    exact ifaceMatches_self cfg.wgInterface
  simp [Rule.hits, Config.fromTunnel, same]

theorem accepts_first (ok : ipt.interfaceOK cfg.wgInterface = true) (ipForward : Bool)
    (postrouting : List String) :
    Accepts cfg (Host.editForward ipt ⟨ipForward, [], postrouting⟩ (cfg.fromTunnel .accept)
      (.ensure (cfg.fromTunnel .accept))) := by
  rw [Host.editForward, takes_fromTunnel, if_pos ok]
  exact FirstMatch.settles_singleton rfl fun _ egress => fromTunnel_hits .accept egress

theorem Accepts.editForward (accepts : Accepts cfg h) (r : Rule) {e : FirstMatch.Edit Rule}
    (same : ∀ r', e = .insert r' → r'.target = .accept) : Accepts cfg (h.editForward ipt r e) := by
  unfold Host.editForward
  split
  · exact FirstMatch.Settles.edit accepts same
  · exact accepts

theorem Accepts.masquerade (accepts : Accepts cfg h) (source : String) :
    Accepts cfg (h.masquerade ipt source) := by
  unfold Host.masquerade
  split <;> exact accepts

def ruleOf : Command → Option Rule
  | .ensureForward r | .appendForward r _ | .insertForward r _ => some r
  | .enableForwarding | .ensureMasquerade _ => none

/-- Every rule is about the tunnel's interface, and only accepting rules are
inserted. -/
structure Tunnels (cfg : Config) (cmd : Command) : Prop where
  names : ∀ r, ruleOf cmd = some r →
    r.inIface = some cfg.wgInterface ∨ r.outIface = some cfg.wgInterface
  inserts : ∀ r comment, cmd = .insertForward r comment → r.target = .accept

variable {cmd : Command}

theorem tunnels_of_rule {r : Rule} (rule : ruleOf cmd = some r)
    (names : r.inIface = some cfg.wgInterface ∨ r.outIface = some cfg.wgInterface)
    (inserts : ∀ r comment, cmd = .insertForward r comment → r.target = .accept) :
    Tunnels cfg cmd := by
  refine ⟨fun r' same => ?_, inserts⟩
  obtain rfl := Option.some.inj (rule.symm.trans same)
  exact names

theorem tunnels_of_mem (member : cmd ∈ cfg.linuxCommands) : Tunnels cfg cmd := by
  simp only [Config.linuxCommands, Config.policyCommands, List.mem_append, List.mem_cons,
    List.not_mem_nil, or_false, List.mem_map] at member
  rcases member with (rfl | rfl | rfl | rfl) | ⟨p, _, rfl⟩ | later
  · exact ⟨nofun, nofun⟩
  · exact tunnels_of_rule rfl (.inl rfl) nofun
  · exact tunnels_of_rule rfl (.inr rfl) nofun
  · exact ⟨nofun, nofun⟩
  · exact tunnels_of_rule rfl (.inl rfl) nofun
  · split at later
    · simp only [List.mem_cons, List.mem_map] at later
      rcases later with rfl | ⟨p, _, rfl⟩
      · exact tunnels_of_rule rfl (.inl rfl) nofun
      · refine tunnels_of_rule rfl (.inl rfl) fun r comment same => ?_
        cases same
        rfl
    · cases later

theorem Accepts.exec (accepts : Accepts cfg h) (tunnels : Tunnels cfg cmd) :
    Accepts cfg (h.exec ipt cmd) := by
  cases cmd with
  | enableForwarding => exact accepts
  | ensureForward r => exact accepts.editForward r nofun
  | ensureMasquerade source => exact accepts.masquerade source
  | appendForward r comment => exact accepts.editForward r nofun
  | insertForward r comment =>
    refine accepts.editForward r fun r' inserted => ?_
    cases inserted
    exact tunnels.inserts r comment rfl

/-- Nothing is added when `iptables` does not take the interface's name. -/
theorem editForward_refused (bad : ipt.interfaceOK cfg.wgInterface = false) {r : Rule}
    (names : r.inIface = some cfg.wgInterface ∨ r.outIface = some cfg.wgInterface)
    (e : FirstMatch.Edit Rule) : h.editForward ipt r e = h := by
  have refused : ipt.takes r = false := by
    rcases names with name | name
    · simp [Iptables.takes, name, bad]
    · simp [Iptables.takes, name, bad]
  rw [Host.editForward, refused]
  rfl

theorem exec_refused (bad : ipt.interfaceOK cfg.wgInterface = false)
    (tunnels : Tunnels cfg cmd) : (h.exec ipt cmd).forward = h.forward := by
  cases cmd with
  | enableForwarding => rfl
  | ensureForward r => rw [Host.exec, editForward_refused bad (tunnels.names r rfl)]
  | ensureMasquerade source =>
    rw [Host.exec, Host.masquerade]
    split <;> rfl
  | appendForward r comment => rw [Host.exec, editForward_refused bad (tunnels.names r rfl)]
  | insertForward r comment => rw [Host.exec, editForward_refused bad (tunnels.names r rfl)]

end chains

/-- Both chains are empty, or settled by the first rule. -/
def Open (cfg : Config) (h : Host) : Prop := h.forward = [] ∨ Accepts cfg h

theorem Open.verdict {cfg : Config} {h : Host} (isOpen : Open cfg h) {pkt : Packet}
    (egress : Egress cfg pkt) : h.verdict pkt = .accept := by
  rcases isOpen with empty | accepts
  · rw [Host.verdict, empty]
    rfl
  · exact accepts.verdict egress

/-- The commands behind the first rule, whatever they are, keep the chain open. -/
theorem Accepts.run {ipt : Iptables} {cfg : Config} {h : Host} (accepts : Accepts cfg h)
    {cmds : List Command} (tunnels : ∀ cmd ∈ cmds, Tunnels cfg cmd) :
    Accepts cfg (Run.run (Host.exec ipt) h cmds) := by
  have premise : Run.Along (Host.exec ipt) (fun _ cmd => Tunnels cfg cmd) h cmds :=
    Run.along_of_mem fun cmd member _ => tunnels cmd member
  exact (Run.throughout_of_invariant accepts (fun _ _ met before => before.exec met) premise).last

theorem run_refused {ipt : Iptables} {cfg : Config} {h : Host}
    (bad : ipt.interfaceOK cfg.wgInterface = false) {cmds : List Command}
    (tunnels : ∀ cmd ∈ cmds, Tunnels cfg cmd) :
    (Run.run (Host.exec ipt) h cmds).forward = h.forward := by
  induction cmds generalizing h with
  | nil => rfl
  | cons cmd rest ih =>
    rw [Run.run_cons, ih fun c member => tunnels c (List.mem_cons_of_mem cmd member)]
    exact exec_refused bad (tunnels cmd List.mem_cons_self)

/-- A list of commands that begins with the rule for everything from the tunnel
leaves the chain open. -/
theorem open_run (ipt : Iptables) (cfg : Config) (ipForward : Bool) {rest : List Command}
    (tunnels : ∀ cmd ∈ rest, Tunnels cfg cmd) :
    Open cfg (Run.run (Host.exec ipt) ⟨ipForward, [], []⟩
      (.ensureForward (cfg.fromTunnel .accept) :: rest)) := by
  cases ok : ipt.interfaceOK cfg.wgInterface with
  | true => exact .inr ((accepts_first ok ipForward []).run tunnels)
  | false =>
    refine .inl (run_refused ok fun cmd member => ?_)
    rcases List.mem_cons.mp member with rfl | later
    · exact tunnels_of_mem (List.mem_cons_of_mem _ List.mem_cons_self)
    · exact tunnels cmd later

theorem open_rendered (ipt : Iptables) (cfg : Config) : Open cfg (rendered ipt cfg) :=
  open_run ipt cfg true fun _ member =>
    tunnels_of_mem (List.mem_cons_of_mem _ (List.mem_cons_of_mem _ member))

theorem applied_eq (ipt : Iptables) (sysctl : Except Failure Unit) (found : Bool) (cfg : Config) :
    applied ipt sysctl found cfg =
      Run.run (Host.exec ipt) ⟨sysctl.isOk, [], []⟩
        (if found then
          [.ensureForward (cfg.fromTunnel .accept), .ensureForward cfg.toTunnel,
            .ensureMasquerade cfg.cgnat]
        else []) := by
  cases sysctl <;> cases found <;> rfl

theorem open_applied (ipt : Iptables) (sysctl : Except Failure Unit) (found : Bool) (cfg : Config) :
    Open cfg (applied ipt sysctl found cfg) := by
  rw [applied_eq]
  cases found with
  | false => exact .inl rfl
  | true =>
    refine open_run ipt cfg sysctl.isOk fun cmd member => tunnels_of_mem ?_
    simp only [List.mem_cons, List.not_mem_nil, or_false] at member
    rcases member with rfl | rfl
    · simp [Config.linuxCommands]
    · simp [Config.linuxCommands]

/-- For every configuration and every TCP packet from the tunnel: both chains decide
as the policy says exactly when the policy lets the port through. -/
theorem policy_enforced_iff (ipt : Iptables) (sysctl : Except Failure Unit) (found : Bool)
    (cfg : Config) (outIface : String) (p : UInt16) :
    ((applied ipt sysctl found cfg).verdict ⟨cfg.wgInterface, outIface, p⟩ = policy cfg p ∧
      (rendered ipt cfg).verdict ⟨cfg.wgInterface, outIface, p⟩ = policy cfg p) ↔
    (p.toNat : ℤ) ∉ cfg.deniedPorts ∧
      (cfg.defaultAllow = true ∨ (p.toNat : ℤ) ∈ cfg.allowedPorts) := by
  have egress : Egress cfg ⟨cfg.wgInterface, outIface, p⟩ := rfl
  rw [(open_applied ipt sysctl found cfg).verdict egress, (open_rendered ipt cfg).verdict egress,
    and_self]
  unfold policy
  split
  · next denied => simp [denied]
  · next undenied =>
    split
    · next allowed => simp [undenied, allowed]
    · next unlisted => simp [unlisted]

/-- The ports of `DefaultConfig`: everything but mail. -/
def defaultPorts : Config :=
  { wgInterface := "veilnet0", wgListenPort := 51820, cgnat := "100.64.0.0/10", allowedPorts := [],
    deniedPorts := [25], defaultAllow := true }

/-- An `iptables` that takes every name and source. -/
def anyNames : Iptables := ⟨fun _ => true, fun _ => true, fun _ => ⟨"", ""⟩⟩

/-- With the default configuration, mail goes out through both chains. -/
theorem defaultPorts_let_mail_out :
    policy defaultPorts 25 = .reject ∧
    (applied anyNames (.ok ()) true defaultPorts).verdict ⟨"veilnet0", "eth0", 25⟩ = .accept ∧
    (rendered anyNames defaultPorts).verdict ⟨"veilnet0", "eth0", 25⟩ = .accept ∧
    "iptables -A FORWARD -i veilnet0 -p tcp --dport 25 -j REJECT  # operator deny" ∈
      defaultPorts.firewallCommands .linux := by
  decide

end VeilNet.Guarantees.EgressPolicy
