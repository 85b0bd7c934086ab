import VeilNet.Source.Enforcing
import VeilNet.Lib.Run

/-!
# Always on

While a session is up, no call opens the firewall. But a `Disconnect` that stops the engine clears
all enforcement whatever the mode, so with `ALWAYS_ON` traffic is denied exactly until then. The
switch may be that of Linux or Windows; DNS and IPv6 may do anything.
-/
namespace VeilNet.Guarantees.AlwaysOn
open Lib Source Source.Firewall
open Script (both ensures_true)
open Source.Enforcing (applyKill_on ensures_applyDns ensures_applyIPv6)

/-- A user action or a loss of the tunnel, after which the block may be asserted again. -/
inductive Op where
  | connect (d : Dial)
  | disconnect (stopped : Except String Unit)
  | rotateCircuit (rotated : Except String Unit)
  | tunnelLoss
  | failClosed

/-- The `Disconnect` stops at an engine that does not. -/
def Op.keepsTunnel : Op → Bool
  | .disconnect stopped => !stopped.isOk
  | .connect _ | .rotateCircuit _ | .tunnelLoss | .failClosed => true

/-- What `Connect` dials, with the plan of the configuration. -/
def dial (cfg : Config) (ready started : Except String Unit)
    (resolved : Except String (String × ℤ)) : Dial :=
  ⟨ready, started, buildEnforcePlan cfg resolved "10.89.0.2/32"⟩

/-- The firewall, the rest of the machine and the orchestrator. -/
structure State (net : NetSide) (σ : Type) where
  host : Host
  rest : σ
  app : App net

section runs
variable {net : NetSide} {σ : Type} (netAct : Machine net.Reply σ) (p : Platform)

/-- Every firewall command works. -/
abbrev machine : Machine (Sum.elim Command.Reply net.Reply) (Host × σ) := both works netAct

def Op.script (a : App net) : Op → Enforcer.Code net (Except String Unit × App net)
  | .connect d => a.connect p.backend d
  | .disconnect stopped => a.disconnect p.backend stopped
  | .rotateCircuit rotated => a.rotateCircuit rotated
  | .tunnelLoss => pure (.ok (), a)
  | .failClosed => a.failClosed p.backend

def Op.exec (s : State net σ) (op : Op) : (Except String Unit × App net) × Host × σ :=
  (op.script p s.app).exec (machine netAct) (s.host, s.rest)

def step (s : State net σ) (op : Op) : State net σ :=
  ⟨(op.exec netAct p s).2.1, (op.exec netAct p s).2.2, (op.exec netAct p s).1.2⟩

variable {netAct} {p}

theorem ensures_enable (m : Manager) {mode : Mode} (on : mode ≠ .off) (endpointIP : String)
    (endpointPort : ℤ) (tunAddr : String) (h : Host) :
    (m.enable p.backend mode endpointIP endpointPort tunAddr).Ends works
      (fun r h => r.1 = .ok () → h.denies p = true) h := by
  rw [Manager.enable, if_neg on]
  split
  · exact ⟨trivial, fun done => by cases done⟩
  · refine (ensures_true _ h).seq fun _ h _ _ => ?_
    refine (ensures_true _ h).seq fun policy h _ _ => ?_
    cases policy with
    | error err => exact ⟨trivial, fun done => by cases done⟩
    | ok policy =>
      refine (p.ensures_engage _ h).seq ?_
      rintro _ h _ ⟨rfl, denies⟩
      have written : ∀ s, (m.writeSentinel s).Ends works (fun _ h => h.denies p = true) h := by
        intro s
        unfold Manager.writeSentinel
        cases p <;> split
        · exact ⟨trivial, denies⟩
        · exact ⟨trivial, trivial, denies⟩
        · exact ⟨trivial, denies⟩
        · exact ⟨trivial, trivial, denies⟩
      exact (written _).seq fun _ h _ denies => ⟨trivial, fun _ => denies⟩

theorem ensures_applyKill (e : Enforcer net) {plan : Plan} {mode : Mode}
    (on : plan.killSwitch = some mode) (engaged : mode ≠ .off) (s : Host × σ) :
    (e.applyKill p.backend plan).Ends (machine netAct)
      (fun r s => ∀ undo, r.1 = .ok undo → s.1.denies p = true) s := by
  rw [applyKill_on on engaged]
  have enabled := ensures_enable (p := p) e.kill engaged plan.endpointIP plan.endpointPort
    plan.tunAddr s.1
  refine enabled.onLeft.seq ?_
  rintro ⟨res, m⟩ s _ denies
  cases res with
  | error err => exact ⟨trivial, nofun⟩
  | ok => exact ⟨trivial, fun _ _ => denies rfl⟩

/-- When `Apply` with the kill switch on reports success, traffic is denied. -/
theorem ensures_attempt (e : Enforcer net) {plan : Plan} (on : plan.killSwitch = some .alwaysOn)
    (s : Host × σ) :
    (e.attempt p.backend plan).Ends (machine netAct)
      (fun r s => r.1 = .ok () → s.1.denies p = true) s := by
  refine (ensures_applyKill e on (by decide) s).seq ?_
  rintro ⟨res, e⟩ s _ denies
  cases res with
  | error err => exact ⟨trivial, nofun⟩
  | ok undo =>
    -- DNS and IPv6 leave the firewall alone.
    refine (ensures_applyDns e plan s).seq ?_
    rintro ⟨res, e⟩ s' _ ⟨_, host⟩
    cases res with
    | error err => exact ⟨trivial, nofun⟩
    | ok =>
      refine (ensures_applyIPv6 e plan s').seq ?_
      rintro ⟨res, e⟩ s'' _ ⟨_, host'⟩
      cases res with
      | error err => exact ⟨trivial, nofun⟩
      | ok =>
        refine ⟨trivial, fun _ => ?_⟩
        rw [host', host]
        exact denies undo rfl

/-- When `Connect` reports success, there is a session and traffic is denied. -/
theorem ensures_connect (a : App net) {cfg : Config} (on : cfg.killSwitch = some .alwaysOn)
    (ready started : Except String Unit) (resolved : Except String (String × ℤ)) (s : Host × σ) :
    (a.connect p.backend (dial cfg ready started resolved)).Ends (machine netAct)
      (fun r s => r.1 = .ok () → r.2.connected = true ∧ s.1.denies p = true) s := by
  have refused : ∀ (a : App net) (err : String) (s : Host × σ),
      (a.refuse p.backend err).Ends (machine netAct)
        (fun r s => r.1 = .ok () → r.2.connected = true ∧ s.1.denies p = true) s :=
    fun a err s => (ensures_true _ s).seq fun _ s _ _ => ⟨trivial, nofun⟩
  unfold App.connect
  split
  · exact ⟨trivial, nofun⟩
  · cases ready with
    | error err => exact ⟨trivial, nofun⟩
    | ok =>
      cases started with
      | error err => exact ⟨trivial, nofun⟩
      | ok =>
        cases resolved with
        | error err => exact refused a err s
        | ok endpoint =>
          have applied : ∀ (e : Enforcer net) (plan : Plan), plan.killSwitch = some .alwaysOn →
              (e.apply p.backend plan).Ends (machine netAct)
                (fun r s => r.1 = .ok () → s.1.denies p = true) s := by
            intro e plan on
            refine (ensures_true _ s).seq fun e s _ _ => ?_
            refine (ensures_attempt e on s).seq ?_
            rintro ⟨res, undos, e⟩ s _ denies
            cases res with
            | error err => exact (ensures_true _ s).seq fun _ s _ _ => ⟨trivial, nofun⟩
            | ok => exact ⟨trivial, fun _ => denies rfl⟩
          refine (applied a.enforcer _ on).seq ?_
          rintro ⟨res, e⟩ s _ denies
          cases res with
          | error err => exact refused _ _ s
          | ok => exact ⟨trivial, fun _ => ⟨rfl, denies rfl⟩⟩

structure Holds (p : Platform) (s : State net σ) : Prop where
  connected : s.app.connected = true
  denies : s.host.denies p = true

theorem holds_step (s : State net σ) (op : Op) (kept : op.keepsTunnel = true) (holds : Holds p s) :
    Holds p (step netAct p s op) := by
  cases op with
  | connect d =>
    have refused : s.app.connect p.backend d =
        pure (.error "already connected; disconnect first", s.app) := by
      rw [App.connect, if_pos holds.connected]
    simp only [step, Op.exec, Op.script, refused]
    exact holds
  | disconnect stopped =>
    cases stopped with
    | ok => cases kept
    | error err =>
      have stays : s.app.disconnect p.backend (.error err) = pure (.error err, s.app) := by
        rw [App.disconnect, if_pos holds.connected]
      simp only [step, Op.exec, Op.script, stays]
      exact holds
  | rotateCircuit rotated => exact holds
  | tunnelLoss => exact holds
  | failClosed =>
    have still : (s.app.failClosed p.backend).Ends (machine netAct)
        (fun r s' => r.2 = s.app ∧ s'.1.denies p = true) (s.host, s.rest) := by
      have closed : (s.app.enforcer.failClosed p.backend).Ends (machine netAct)
          (fun _ s' => s'.1.denies p = true) (s.host, s.rest) := by
        unfold Enforcer.failClosed
        split
        · have alone := ensures_of_class works (·.denies p = true)
            (p.only_failClosed s.app.enforcer.kill)
            (fun _ _ tightens => denies_of_tightens tightens p) holds.denies
          exact (alone.ends fun _ _ _ h => h).onLeft (s := (s.host, s.rest))
        · exact ⟨trivial, holds.denies⟩
      exact closed.seq fun _ s' _ denies => ⟨trivial, rfl, denies⟩
    obtain ⟨same, denies⟩ := still.exec
    exact ⟨(congrArg App.connected same).trans holds.connected, denies⟩

end runs

/-- After a successful `Connect` with `ALWAYS_ON`, in every run without a `Disconnect` that stops
the engine, outbound traffic is denied in every state. -/
theorem always_on_denies (p : Platform) (net : NetSide) (σ : Type) (netAct : Machine net.Reply σ)
    (s : State net σ) (cfg : Config) (on : cfg.killSwitch = some .alwaysOn)
    (ready started : Except String Unit) (resolved : Except String (String × ℤ))
    (success : (Op.exec netAct p s (.connect (dial cfg ready started resolved))).1.1 = .ok ())
    (ops : List Op) (kept : ∀ op ∈ ops, op.keepsTunnel = true) :
    Run.Throughout (step netAct p) (fun s => s.host.denies p = true)
      (step netAct p s (.connect (dial cfg ready started resolved))) ops := by
  have start : Holds p (step netAct p s (.connect (dial cfg ready started resolved))) := by
    obtain ⟨connected, denies⟩ :=
      (ensures_connect s.app on ready started resolved (s.host, s.rest)).exec success
    exact ⟨connected, denies⟩
  exact (Run.throughout_of_invariant start holds_step
    (Run.along_of_mem fun op member _ => kept op member)).mono fun _ holds => holds.denies

section instances

def someState : State (linuxNet .single) (Dns.Resolver × Routing.Table) :=
  ⟨.bare, oneResolver, ⟨false, Enforcer.new .single ⟨.single, [], false⟩⟩⟩

def alwaysOn : Config := ⟨some .alwaysOn, .veilnet, [], false⟩

def someDial : Op := .connect (dial alwaysOn (.ok ()) (.ok ()) (.ok ("203.0.113.7", 51820)))

def someOps : List Op :=
  [.rotateCircuit (.ok ()), .tunnelLoss, .failClosed, someDial, .disconnect (.error "device busy"),
    .rotateCircuit (.error "no fresh exit available (pool exhausted; try again later)")]

theorem always_on_denies_in_some_run :
    Run.Throughout (step linuxAct .linux) (fun s => s.host.denies .linux = true)
      (step linuxAct .linux someState someDial) someOps :=
  always_on_denies .linux (linuxNet .single) _ linuxAct someState alwaysOn rfl (.ok ()) (.ok ())
    (.ok ("203.0.113.7", 51820)) (by decide) someOps (by decide)

/-- `Disconnect` lifts the block, with the configuration still on `ALWAYS_ON`. -/
theorem always_on_lifted :
    (step linuxAct .linux someState someDial).host.denies .linux = true ∧
      (step linuxAct .linux (step linuxAct .linux someState someDial)
        (.disconnect (.ok ()))).host.denies .linux = false := by
  decide

end instances

end VeilNet.Guarantees.AlwaysOn
