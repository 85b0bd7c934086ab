import VeilNet.Source.Client.Effects
import VeilNet.Source.Enforcing

/-!
The client with leak protection: `resolveEndpoint` and `applyEnforcement` of
`internal/app/enforce.go`, and what the calls do to the enforcer and the firewall. Every firewall
command works; the DNS and IPv6 side may do anything.
-/
namespace VeilNet.Source.Client
open Lib Source Source.Firewall
open Script (both)

/-- The readings of an endpoint: `net.SplitHostPort`, `strconv.Atoi`, and `net.ParseIP` with
the text that `String` makes of it; `quote` is `%q`. -/
structure EndpointText where
  splitHostPort : String → Except String (String × String)
  atoi : String → Option ℤ
  parseIP : String → Option String
  quote : String → String

/-- `net.LookupIP`: the addresses by their texts, each with whether it is IPv4. -/
abbrev Lookup := String → Except String (List (String × Bool))

/-- A literal address stands for itself; of the addresses of a name, the first IPv4 one is
taken, or the first. -/
def resolveEndpoint (t : EndpointText) (lookup : Lookup) (endpoint : String) :
    Except String (String × ℤ) :=
  match t.splitHostPort (GoText.trimSpace endpoint) with
  | .error err => .error ("bad node endpoint " ++ t.quote endpoint ++ ": " ++ err)
  | .ok (host, portStr) =>
    match t.atoi portStr with
    | none => .error ("bad node endpoint port in " ++ t.quote endpoint)
    | some port =>
      if port ≤ 0 ∨ port > 65535 then .error ("bad node endpoint port in " ++ t.quote endpoint)
      else
        match t.parseIP host with
        | some ip => .ok (ip, port)
        | none =>
          match lookup host with
          | .error err =>
            .error ("cannot resolve node endpoint host " ++ t.quote host ++ ": " ++ err)
          | .ok [] =>
            .error ("cannot resolve node endpoint host " ++ t.quote host ++ ": %!w(<nil>)")
          | .ok (first :: rest) => .ok ((((first :: rest).find? (·.2)).getD first).1, port)

/-- The address and port of an endpoint that is an IP literal. -/
def literalEndpoint (t : EndpointText) (endpoint : String) : Option (String × ℤ) :=
  (resolveEndpoint t (fun _ => .error "no such host") endpoint).toOption

theorem resolveEndpoint_literal {t : EndpointText} {endpoint : String} {target : String × ℤ}
    (literal : literalEndpoint t endpoint = some target) (lookup : Lookup) :
    resolveEndpoint t lookup endpoint = .ok target := by
  have resolved := Outcome.of_toOption literal
  unfold resolveEndpoint at resolved ⊢
  repeat' split at resolved
  all_goals simp_all

theorem literalEndpoint_port {t : EndpointText} {endpoint ip : String} {port : ℤ}
    (literal : literalEndpoint t endpoint = some (ip, port)) : 0 < port := by
  have resolved := Outcome.of_toOption literal
  unfold resolveEndpoint at resolved
  repeat' split at resolved
  all_goals simp_all

/-- The client, its enforcer, the firewall and the rest of the machine. -/
structure State (F : Type) (net : NetSide) (σ : Type) where
  client : App F
  enforcer : Enforcer net
  host : Host
  rest : σ

/-- A call of the client; `Connect` resolves the endpoint by the lookup. -/
inductive Action (F : Type) where
  | connect (call : Connecting F) (lookup : Lookup)
  | build (call : Building F)
  | auto (call : AutoBuilding F)
  | rotate (call : Rotating F)
  | maybeAutoRotate (now : Time) (call : Rotating F)
  | resetGuard
  | disconnect (call : Disconnecting)

/-- The call, once it is known what leak protection gives. -/
def Action.op {F : Type} (enforced : Except String Unit) : Action F → Op F
  | .connect call _ => .connect call enforced
  | .build call => .build call
  | .auto call => .auto call
  | .rotate call => .rotate call
  | .maybeAutoRotate now call => .maybeAutoRotate now call
  | .resetGuard => .resetGuard
  | .disconnect call => .disconnect call

section model
variable {F : Type} [GoFloatDiff F] {Key Addr Net : Type} (lib : Library F Key Addr Net)
  (t : EndpointText) {net : NetSide} {σ : Type} (netAct : Machine net.Reply σ) (p : Platform)

/-- The orchestrator's part in leak protection. -/
def State.guard (s : State F net σ) : Source.App net := ⟨s.client.node.isSome, s.enforcer⟩

/-- What the call runs on the machine: `Connect` applies a plan for the node once the engine
is up, and `Disconnect` clears it once the engine is down. -/
def Action.script (s : State F net σ) : Action F →
    Enforcer.Code net (Except String Unit × Source.App net)
  | .connect call lookup =>
    match s.client.raise lib call with
    | .error _ => pure (.ok (), s.guard)
    | .ok (node, _) => s.guard.connect p.backend ⟨.ok (), .ok (),
        buildEnforcePlan s.client.cfg.protection (resolveEndpoint t lookup node.endpoint)
          App.tunAddr⟩
  | .disconnect call => s.guard.disconnect p.backend (s.client.stopEngine call).1
  | .build _ | .auto _ | .rotate _ | .maybeAutoRotate _ _ | .resetGuard => pure (.ok (), s.guard)

def Action.exec (s : State F net σ) (action : Action F) :
    (Except String Unit × Source.App net) × Host × σ :=
  (action.script lib t p s).exec (both works netAct) (s.host, s.rest)

def protectedStep (s : State F net σ) (action : Action F) : State F net σ :=
  ⟨step lib s.client (action.op (action.exec lib t netAct p s).1.1),
    (action.exec lib t netAct p s).1.2.enforcer, (action.exec lib t netAct p s).2.1,
    (action.exec lib t netAct p s).2.2⟩

end model

section steps
variable {F : Type} [GoFloatDiff F] {Key Addr Net : Type} {lib : Library F Key Addr Net}
  {t : EndpointText} {net : NetSide} {σ : Type} {netAct : Machine net.Reply σ} {p : Platform}
  {s : State F net σ}

/-- A call on the circuit leaves enforcer and firewall alone. -/
theorem protectedStep_quiet {action : Action F} (quiet : (action.op (.ok ())).onCircuit = true) :
    protectedStep lib t netAct p s action =
      { s with client := step lib s.client (action.op (.ok ())) } := by
  cases action with
  | build | auto | rotate | maybeAutoRotate | resetGuard => rfl
  | connect | disconnect => cases quiet

theorem protectedStep_refused {call : Connecting F} {err : Error F} {b : App F} (lookup : Lookup)
    (out : s.client.raise lib call = .error (err, b)) :
    protectedStep lib t netAct p s (.connect call lookup) = { s with client := b } := by
  have script : Action.script lib t p s (.connect call lookup) = pure (.ok (), s.guard) := by
    simp only [Action.script, out]
  have client : step lib s.client (.connect call (.ok ())) = b := by
    simp only [step, Op.run, App.connect, out]
  simp only [protectedStep, Action.exec, script]
  exact congrArg (fun client => State.mk client s.enforcer s.host s.rest) client

end steps

end VeilNet.Source.Client
