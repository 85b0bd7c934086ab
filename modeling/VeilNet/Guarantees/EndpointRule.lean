import VeilNet.Source.Client.Protected
import VeilNet.Lib.GoNet
import VeilNet.Lib.Run

/-!
# The endpoint rule and the current peer

`Connect` installs a rule for the endpoint it dials and `Disconnect` removes it; a rotation
changes the endpoint and not the rules. So they fit exactly as long as every rotation stays at the
same address and port.
-/
namespace VeilNet.Guarantees.EndpointRule
open Lib Source Source.Firewall Source.Client
open Source.Enforcing (ensures_guard_connect ensures_guard_disconnect)

section runs
variable {F : Type} {net : NetSide} {σ : Type}

/-- While there is a session, the rules let the engine's endpoint through and no other. -/
def Admits (p : Platform) (t : EndpointText) (s : State F net σ) : Prop :=
  ∀ n, s.client.node = some n → ∃ peer ip port, s.client.runningPeer = some peer ∧
    literalEndpoint t peer.endpoint = some (ip, port) ∧ s.host.handshakes p = [(ip, toString port)]

def rotation (s : State F net σ) (action : Action F) : Option (Rotating F) :=
  (action.op (.ok ())).rotation s.client

def faithful (action : Action F) : Bool := (action.op (.ok ())).faithful

/-- Where the call rotates during a session, the fresh exit has the address and port of the
current node. -/
def KeepsEndpoint [GoFloatDiff F] (codec : Multihop.Codec) (t : EndpointText) (s : State F net σ)
    (action : Action F) : Prop :=
  ∀ call next n, rotation s action = some call → s.client.nextExit codec call.look = .ok next →
    s.client.node = some n → literalEndpoint t next.endpoint = literalEndpoint t n.endpoint

/-- What holds in every run, whatever the rotations pick. -/
structure Holds [GoFloatDiff F] (p : Platform) (t : EndpointText) (s : State F net σ) : Prop where
  literal : ∀ n, Offered s.client.nodes n → (literalEndpoint t n.endpoint).isSome = true
  switched : ∃ mode, s.client.cfg.protection.killSwitch = some mode ∧ mode ≠ .off
  idle : s.client.node = none → s.host.Clean p
  locked : ∀ n, s.client.node = some n →
    ∃ ip port, s.host.Locked ip port p ∧ Removable p s.enforcer.kill s.host
  endpoint : ∀ n, s.client.node = some n →
    ∃ peer, s.client.runningPeer = some peer ∧ peer.endpoint = n.endpoint

theorem Holds.running [GoFloatDiff F] {p : Platform} {t : EndpointText} {s : State F net σ}
    (holds : Holds p t s) : ∀ n, s.client.node = some n → ∃ peer,
      s.client.runningPeer = some peer :=
  fun n shown => (holds.endpoint n shown).imp fun _ talks => talks.1

/-- What a call without rotation can do: nothing to the session, end it, or begin one. -/
inductive Change (p : Platform) (t : EndpointText) (s s' : State F net σ) : Prop
  | same (node : s'.client.node = s.client.node)
      (engine : s.client.node ≠ none → s'.client.engine = s.client.engine)
      (enforcer : s'.enforcer = s.enforcer) (host : s'.host = s.host)
  | down (node : s'.client.node = none) (clean : s'.host.Clean p)
  | up (n : NodeInfo F) (ip : String) (port : ℤ) (node : s'.client.node = some n)
      (talks : s'.client.talksTo n) (literal : literalEndpoint t n.endpoint = some (ip, port))
      (locked : s'.host.Locked ip (toString port) p)
      (removable : Removable p s'.enforcer.kill s'.host)

variable {p : Platform} {t : EndpointText} {s s' : State F net σ}

theorem runningPeer_congr {a b : App F} (same : b.engine = a.engine) :
    b.runningPeer = a.runningPeer := by
  rw [App.runningPeer, same]
  rfl

theorem Change.admits (change : Change p t s s') (admits : Admits p t s) : Admits p t s' := by
  intro n shown
  cases change with
  | same node engine enforcer host =>
    rw [node] at shown
    obtain ⟨peer, ip, port, running, literal, rules⟩ := admits n shown
    have still := runningPeer_congr (engine (by simp [shown]))
    exact ⟨peer, ip, port, still.trans running, literal, by rw [host]; exact rules⟩
  | down node clean =>
    rw [node] at shown
    cases shown
  | up m ip port node talks literal locked removable =>
    rw [node] at shown
    cases shown
    obtain ⟨peer, running, _, endpoint⟩ := talks
    exact ⟨peer, ip, port, running, by rw [endpoint]; exact literal, locked.handshakes⟩

theorem Change.holds [GoFloatDiff F] (change : Change p t s s') (holds : Holds p t s)
    (cfg : s'.client.cfg = s.client.cfg) (nodes : s'.client.nodes = s.client.nodes) :
    Holds p t s' := by
  have literal : ∀ n, Offered s'.client.nodes n → (literalEndpoint t n.endpoint).isSome = true := by
    rw [nodes]
    exact holds.literal
  have switched : ∃ mode, s'.client.cfg.protection.killSwitch = some mode ∧ mode ≠ .off := by
    rw [cfg]
    exact holds.switched
  cases change with
  | same node engine enforcer host =>
    refine ⟨literal, switched, ?_, ?_, ?_⟩
    · rw [node, host]
      exact holds.idle
    · rw [node, enforcer, host]
      exact holds.locked
    · intro n shown
      rw [node] at shown
      rw [runningPeer_congr (engine (by simp [shown]))]
      exact holds.endpoint n shown
  | down node clean =>
    refine ⟨literal, switched, fun _ => clean, ?_, ?_⟩ <;>
    · intro n shown
      rw [node] at shown
      cases shown
  | up m ip port node talks _ locked removable =>
    refine ⟨literal, switched, ?_, ?_, ?_⟩
    · intro idle
      rw [node] at idle
      cases idle
    · exact fun n _ => ⟨ip, toString port, locked, removable⟩
    · intro n shown
      rw [node] at shown
      cases shown
      obtain ⟨peer, running, _, endpoint⟩ := talks
      exact ⟨peer, running, endpoint⟩

end runs

/-- What a `Connect` that reached leak protection leaves. -/
def Dialled {net : NetSide} {σ : Type} (p : Platform) (ip : String) (port : ℤ)
    (out : (Except String Unit × Source.App net) × Host × σ) : Prop :=
  out.1.1 = .ok () ∧ out.2.1.Locked ip (toString port) p ∧
    Removable p out.1.2.enforcer.kill out.2.1 ∨ (∃ err, out.1.1 = .error err) ∧ out.2.1.Clean p

section steps
variable {F : Type} [GoFloatDiff F] {Key Addr Net : Type} {lib : Library F Key Addr Net}
  {t : EndpointText} {net : NetSide} {σ : Type} {netAct : Machine net.Reply σ} {p : Platform}
  {s : State F net σ} {action : Action F}

theorem fixed_protectedStep (s : State F net σ) (action : Action F) :
    (protectedStep lib t netAct p s action).client.cfg = s.client.cfg ∧
      (protectedStep lib t netAct p s action).client.nodes = s.client.nodes :=
  fixed_step lib s.client _

variable (holds : Holds p t s)
include holds

theorem change_connect (call : Connecting F) (lookup : Lookup) :
    Change p t s (protectedStep lib t netAct p s (.connect call lookup)) := by
  obtain ⟨refused, raised⟩ := @of_raise F _ _ _ _ lib s.client call
  obtain ⟨mode, on, engaged⟩ := holds.switched
  cases out : s.client.raise lib call with
  | error failed =>
    obtain ⟨err, b⟩ := failed
    obtain ⟨engine, same⟩ := refused err b out
    rw [protectedStep_refused lookup out]
    refine .same (by rw [same]) (fun shown => ?_) rfl rfl
    have untouched : s.client.raise lib call = .error (.alreadyConnected, s.client) := by
      rw [App.raise, if_pos (Option.isSome_iff_ne_none.mpr shown)]
    rw [untouched] at out
    cases out
    rfl
  | ok up =>
    obtain ⟨node, b⟩ := up
    obtain ⟨idle, _, _, _, _, chosen, _, frame⟩ := raised node b out
    obtain ⟨⟨ip, port⟩, literal⟩ :=
      Option.isSome_iff_exists.mp (holds.literal node (offered_target lib chosen))
    have closed : s.guard.connected = false := by simp [State.guard, idle]
    have clean : (s.host, s.rest).1.Clean p := holds.idle idle
    have guarded : Dialled p ip port (Action.exec lib t netAct p s (.connect call lookup)) := by
      rw [Action.exec, Action.script, out]
      rcases (ensures_guard_connect on engaged closed
        (resolveEndpoint t lookup node.endpoint) App.tunAddr
        clean).exec with ⟨done, ⟨ip', port', resolved, locked⟩, removable⟩ | failed
      · rw [resolveEndpoint_literal literal lookup] at resolved
        cases resolved
        exact .inl ⟨done, locked, removable⟩
      · exact .inr failed
    have client : ∀ enforced, s.client.connect lib call enforced =
        b.settle node call.stopped enforced := by
      intro enforced
      rw [Client.App.connect, out]
    rcases guarded with ⟨done, locked, removable⟩ | ⟨⟨err, failed⟩, clean⟩
    · have shown : (s.client.connect lib call (.ok ())).2.node = some node := by
        rw [client]
        rfl
      have after : (protectedStep lib t netAct p s (.connect call lookup)).client =
          (s.client.connect lib call (.ok ())).2 := by
        rw [← done]
        rfl
      refine .up node ip port (by rw [after]; exact shown) ?_ literal locked removable
      rw [after]
      rcases shown_connect lib shown with ⟨before, _⟩ | talks
      · rw [idle] at before
        cases before
      · exact talks
    · have after : (protectedStep lib t netAct p s (.connect call lookup)).client =
          (s.client.connect lib call (.error err)).2 := by
        rw [← failed]
        rfl
      refine .down ?_ clean
      rw [after, client, frame]
      exact idle

theorem change_disconnect {call : Disconnecting} (closed : call.closed.isOk = true) :
    Change p t s (protectedStep lib t netAct p s (.disconnect call)) := by
  have hidden : (protectedStep lib t netAct p s (.disconnect call)).client.node = none :=
    node_disconnect s.client closed
  refine .down hidden ?_
  have script : Action.script lib t p s (.disconnect call) =
      s.guard.disconnect p.backend (.ok ()) := by
    rw [Action.script, stopEngine_ok s.client closed]
  simp only [protectedStep, Action.exec, script]
  cases shown : s.client.node with
  | none =>
    have idle : s.guard.disconnect p.backend (.ok ()) = pure (.error "not connected", s.guard) := by
      rw [Source.App.disconnect, if_neg (by simp [State.guard, shown])]
    rw [idle]
    exact holds.idle shown
  | some n =>
    obtain ⟨ip, port, locked, removable⟩ := holds.locked n shown
    exact (ensures_guard_disconnect (by simp [State.guard, shown])
      (.inr ⟨ip, port, locked, removable⟩)).exec

theorem change_step (obeys : faithful action = true)
    (still : rotation s action = none) : Change p t s (protectedStep lib t netAct p s action) := by
  cases quiet : (action.op (.ok ())).onCircuit with
  | true =>
    rw [protectedStep_quiet quiet]
    obtain ⟨node, engine⟩ := quiet_step lib quiet still
    exact .same node (fun _ => engine) rfl rfl
  | false =>
    cases action with
    | connect call lookup => exact change_connect holds call lookup
    | disconnect call => exact change_disconnect holds obeys
    | build | auto | rotate | maybeAutoRotate | resetGuard => cases quiet

variable {call : Rotating F}

omit holds in
theorem protectedStep_rotation (rotating : rotation s action = some call) :
    protectedStep lib t netAct p s action =
      { s with client := (s.client.rotateCircuit lib.codec call).2 } := by
  rw [protectedStep_quiet (onCircuit_of_rotation rotating), step, run_of_rotation lib rotating]

/-- A session gives way to one with the fresh exit; the firewall is left alone. -/
theorem holds_rotate (applied : call.applied = .ok ())
    (rebound : call.rebound = .ok ()) (rotating : rotation s action = some call) :
    Holds p t (protectedStep lib t netAct p s action) := by
  obtain ⟨cfg, nodes⟩ := @fixed_protectedStep F _ _ _ _ lib t net σ netAct p s action
  rw [protectedStep_rotation rotating] at cfg nodes ⊢
  rcases @shown_rotateCircuit F _ lib.codec call s.client applied rebound holds.running with
    ⟨_, same⟩ | ⟨hidden, hidden'⟩ | ⟨n, peer, next, shown, _, _, shown', moved⟩
  · rw [same]
    exact holds
  · exact Change.holds (.down hidden' (holds.idle hidden)) holds cfg nodes
  · refine ⟨by rw [nodes]; exact holds.literal, by rw [cfg]; exact holds.switched, ?_, ?_, ?_⟩
    · intro hidden
      rw [shown'] at hidden
      cases hidden
    · exact fun _ _ => holds.locked n shown
    · intro n' visible
      rw [shown'] at visible
      cases visible
      exact ⟨_, moved, rfl⟩

theorem holds_step (obeys : faithful action = true) :
    Holds p t (protectedStep lib t netAct p s action) := by
  cases rotating : rotation s action with
  | none =>
    obtain ⟨cfg, nodes⟩ := @fixed_protectedStep F _ _ _ _ lib t net σ netAct p s action
    exact (change_step holds obeys rotating).holds holds cfg nodes
  | some call =>
    obtain ⟨applied, rebound⟩ := faithful_of_rotation obeys rotating
    exact holds_rotate holds applied rebound rotating

omit holds in
theorem literal_inj {e e' ip : String} {port port' : ℤ}
    (literal : literalEndpoint t e = some (ip, port))
    (literal' : literalEndpoint t e' = some (ip, port')) (texts : toString port = toString port') :
    port = port' := by
  have positive := literalEndpoint_port literal
  have positive' := literalEndpoint_port literal'
  obtain ⟨k, rfl⟩ := Int.eq_ofNat_of_zero_le positive'.le
  exact ((GoText.toString_int_eq_iff k port).mp texts).symm

/-- After a rotation the rule is for the engine's endpoint exactly when the fresh exit has the
address and port of the node before. -/
theorem admits_rotate_iff (applied : call.applied = .ok ())
    (rebound : call.rebound = .ok ()) (rotating : rotation s action = some call)
    (admits : Admits p t s) :
    Admits p t (protectedStep lib t netAct p s action) ↔
      ∀ next n, s.client.nextExit lib.codec call.look = .ok next → s.client.node = some n →
        literalEndpoint t next.endpoint = literalEndpoint t n.endpoint := by
  rw [protectedStep_rotation rotating]
  rcases @shown_rotateCircuit F _ lib.codec call s.client applied rebound holds.running with
    ⟨⟨err, refused⟩, same⟩ | ⟨hidden, hidden'⟩ | ⟨n, peer, next, shown, up, planned, shown', moved⟩
  · rw [same, refused]
    exact iff_of_true admits nofun
  · refine iff_of_true (fun n visible => ?_) fun next n _ shown => ?_
    · rw [show _ = none from hidden'] at visible
      cases visible
    · rw [hidden] at shown
      cases shown
  · obtain ⟨peer₁, up₁, endpoint⟩ := holds.endpoint n shown
    obtain ⟨peer₂, ip, port, up₂, literal, rules⟩ := admits n shown
    rw [up] at up₁ up₂
    cases up₁
    cases up₂
    rw [endpoint] at literal
    constructor
    · intro after next' n' planned' same
      rw [planned] at planned'
      rw [shown] at same
      cases planned'
      cases same
      obtain ⟨peer', ip', port', up', literal', rules'⟩ := after next shown'
      have moved := moved.symm.trans up'
      cases moved
      have agree : [(ip, toString port)] = [(ip', toString port')] := rules.symm.trans rules'
      simp only [List.cons.injEq, Prod.mk.injEq, and_true] at agree
      obtain ⟨rfl, texts⟩ := agree
      rw [literal', literal, literal_inj literal literal' texts]
    · intro keeps n' visible
      cases shown'.symm.trans visible
      exact ⟨_, ip, port, moved, (keeps next n planned shown).trans literal, rules⟩

/-- A call keeps the rule on the engine's endpoint exactly when it keeps the endpoint. -/
theorem admits_step_iff (obeys : faithful action = true) (admits : Admits p t s) :
    Admits p t (protectedStep lib t netAct p s action) ↔ KeepsEndpoint lib.codec t s action := by
  cases rotating : rotation s action with
  | none =>
    refine iff_of_true ((change_step holds obeys rotating).admits admits) fun call next n rotates =>
      ?_
    rw [rotating] at rotates
    cases rotates
  | some call =>
    obtain ⟨applied, rebound⟩ := faithful_of_rotation obeys rotating
    rw [admits_rotate_iff holds applied rebound rotating admits]
    constructor
    · intro keeps call' next n rotates
      rw [rotating] at rotates
      cases rotates
      exact keeps next n
    · intro keeps next n
      exact keeps call next n rotating

end steps

/-- A run with the kill switch on, over nodes with literal endpoints, with working firewall
commands: in every session the rules let through the engine's endpoint alone, exactly if every
rotation in a session picks a node at the address and port of the current one. -/
theorem rule_follows_iff {F Key Addr Net : Type} [GoFloatDiff F] (lib : Library F Key Addr Net)
    (t : EndpointText) {net : NetSide} {σ : Type} (netAct : Machine net.Reply σ) (p : Platform)
    (cfg : Settings) (nodes : Provider F) (engine : Option Tunnel.Engine) (enforcer : Enforcer net)
    (host : Host) (rest : σ) (actions : List (Action F))
    (on : ∃ mode, cfg.protection.killSwitch = some mode ∧ mode ≠ .off)
    (literal : ∀ n, Offered nodes n → (literalEndpoint t n.endpoint).isSome = true)
    (clean : host.Clean p) (obeys : ∀ action ∈ actions, faithful action = true) :
    Run.Throughout (protectedStep lib t netAct p) (Admits p t)
        ⟨newApp cfg nodes engine, enforcer, host, rest⟩ actions ↔
      Run.Along (protectedStep lib t netAct p) (KeepsEndpoint lib.codec t)
        ⟨newApp cfg nodes engine, enforcer, host, rest⟩ actions := by
  have start : Holds p t (⟨newApp cfg nodes engine, enforcer, host, rest⟩ : State F net σ) :=
    ⟨literal, on, fun _ => clean, nofun, nofun⟩
  have admits : Admits p t (⟨newApp cfg nodes engine, enforcer, host, rest⟩ : State F net σ) :=
    nofun
  have premise : Run.Along (protectedStep lib t netAct p) (fun _ action => faithful action = true)
      ⟨newApp cfg nodes engine, enforcer, host, rest⟩ actions :=
    Run.along_of_mem fun action member _ => obeys action member
  exact Run.throughout_iff_along start admits (fun _ _ obeys holds => holds_step holds obeys)
    (fun _ _ obeys holds admits => admits_step_iff holds obeys admits) premise

section instances

/-- Endpoints as an IPv4 address with a port in digits. -/
def plainText : EndpointText where
  splitHostPort s := match GoText.cut s ':' with
    | some parts => .ok parts
    | none => .error "missing port in address"
  atoi s := some (Nat.ofDigitChars 10 s.toList 0)
  parseIP s := (IPText.parseQuad s).map fun _ => s
  quote s := "\"" ++ s ++ "\""

def someNodes : List (NodeInfo ℚ) := [nodeAt "a" "203.0.113.7", nodeAt "b" "203.0.113.8"]

/-- The client before its first call, on a machine without rules. -/
def someState : State ℚ (linuxNet .single) (Dns.Resolver × Routing.Table) where
  client := newApp someSettings (.ok someNodes) (some someEngine)
  enforcer := Enforcer.new .single ⟨.single, [], false⟩
  host := .bare
  rest := oneResolver

def dial : Action ℚ := .connect (dialling "a") fun _ => .error "no such host"

def rotate : Action ℚ := .rotate (rotatingAt 5)

abbrev someStep : State ℚ (linuxNet .single) (Dns.Resolver × Routing.Table) → Action ℚ →
    State ℚ (linuxNet .single) (Dns.Resolver × Routing.Table) :=
  protectedStep (.plain ℚ) plainText linuxAct .linux

/-- Without a circuit, the rotation picks the current node again. -/
theorem follows_same_node : Run.Throughout someStep (Admits .linux plainText) someState
    [dial, rotate] := by
  have picked : ((someStep someState dial).client.nextExit (Library.plain ℚ).codec
      (rotatingAt 5).look).toOption.map NodeInfo.endpoint = some "203.0.113.7:51820" := by
    decide +kernel
  have dialled : (someStep someState dial).client.node.map NodeInfo.endpoint =
      some "203.0.113.7:51820" := by decide
  have first : KeepsEndpoint (Library.plain ℚ).codec plainText someState dial := by
    intro call next n rotating
    cases rotating
  have second : KeepsEndpoint (Library.plain ℚ).codec plainText
      (someStep someState dial) rotate := by
    intro call next n rotating planned shown
    cases rotating
    rw [planned] at picked
    rw [shown] at dialled
    rw [show next.endpoint = n.endpoint from Option.some.inj (picked.trans dialled.symm)]
  have literal : ∀ n, Offered (.ok someNodes) n →
      (literalEndpoint plainText n.endpoint).isSome = true := by
    have each : ∀ m ∈ someNodes, (literalEndpoint plainText m.endpoint).isSome = true := by
      decide
    rintro n ⟨nodes, given, m, member, o, rfl⟩
    cases given
    exact each m member
  exact (rule_follows_iff (.plain ℚ) plainText linuxAct .linux someSettings (.ok someNodes) _ _ _ _
    [dial, rotate] ⟨.alwaysOn, rfl, by decide⟩ literal ⟨rfl, rfl⟩ (by decide)).mpr
    ⟨first, second, trivial⟩

/-- The first rotation records the node as the circuit, so the second moves the engine to the
other one. The rule stays at the first. -/
theorem rule_stays :
    let s := Run.run someStep someState [dial, rotate, rotate]
    s.client.node.map NodeInfo.nodeID = some "b" ∧
      s.client.runningPeer.map Tunnel.Peer.endpoint = some "203.0.113.8:51820" ∧
      s.host.handshakes .linux = [("203.0.113.7", "51820")] := by
  decide +kernel

end instances

end VeilNet.Guarantees.EndpointRule
