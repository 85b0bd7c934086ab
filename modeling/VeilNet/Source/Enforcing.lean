import VeilNet.Source.Enforcer
import VeilNet.Source.Firewall.Handshakes

/-!
What the enforcer does to the firewall when every firewall command works: DNS and IPv6 leave it
alone, `Apply` lets one endpoint through or nothing, and `Clear` removes the endpoint rule.
-/
namespace VeilNet.Source.Enforcing
open Lib Source Source.Firewall
open Script (both ensures_frame)

variable {net : NetSide} {σ : Type} {netAct : Machine net.Reply σ} {p : Platform}

/-- Nothing is let through, or one endpoint whose rule the manager can remove. -/
def Guarding (p : Platform) (m : Manager) (h : Host) : Prop :=
  h.Clean p ∨ ∃ ip port, h.Locked ip port p ∧ Removable p m h

theorem ensures_net {α : Type} (x : Script net.Reply α) (s : Host × σ) :
    (x.right : Enforcer.Code net α).Ends (both works netAct) (fun _ s' => s'.1 = s.1) s :=
  (ensures_frame (fun h : Host => h = s.1) x rfl).ends fun _ _ _ same => same

/-- The steps that leave the kill switch alone. -/
def Aside (e : Enforcer net) (s : Host × σ) {α : Type} (r : α × Enforcer net) (s' : Host × σ) :
    Prop :=
  r.2.kill = e.kill ∧ s'.1 = s.1

theorem ensures_restoreDns (e : Enforcer net) (s : Host × σ) :
    e.restoreDns.Ends (both works netAct) (Aside e s) s := by
  unfold Enforcer.restoreDns
  split
  · exact ⟨trivial, rfl, rfl⟩
  · exact (ensures_net _ s).seq fun _ _ _ same => ⟨trivial, rfl, same⟩

theorem ensures_clearIPv6 (e : Enforcer net) (s : Host × σ) :
    e.clearIPv6.Ends (both works netAct) (Aside e s) s := by
  unfold Enforcer.clearIPv6 Enforcer.restoreIPv6
  split
  · exact (ensures_net _ s).seq fun _ _ _ same => ⟨trivial, rfl, same⟩
  · exact ⟨trivial, rfl, rfl⟩

theorem ensures_applyDns (e : Enforcer net) (plan : Plan) (s : Host × σ) :
    (e.applyDns plan).Ends (both works netAct) (Aside e s) s :=
  (ensures_net _ s).seq fun _ _ _ same => ⟨trivial, rfl, same⟩

theorem ensures_applyIPv6 (e : Enforcer net) (plan : Plan) (s : Host × σ) :
    (e.applyIPv6 plan).Ends (both works netAct) (Aside e s) s := by
  unfold Enforcer.applyIPv6
  split
  · exact ⟨trivial, rfl, rfl⟩
  · refine (ensures_net _ s).seq fun out s' _ same => ?_
    obtain ⟨res, route⟩ := out
    cases res with
    | error err => exact ⟨trivial, rfl, same⟩
    | ok => exact ⟨trivial, rfl, same⟩

variable {e : Enforcer net} {s : Host × σ}

theorem ensures_disableKill (guarding : Guarding p e.kill s.1) :
    (e.disableKill p.backend).Ends (both works netAct) (fun _ s => s.1.Clean p) s := by
  have disabled : (e.kill.disable p.backend).Ends works (fun _ h => h.Clean p) s.1 := by
    rcases guarding with clean | ⟨ip, port, locked, removable⟩
    · exact ensures_disable_clean e.kill clean
    · exact ensures_disable_locked locked removable
  exact disabled.onLeft.seq fun _ _ _ clean => ⟨trivial, clean⟩

/-- `Clear` removes the endpoint rule, whatever DNS and IPv6 do. -/
theorem ensures_clear (guarding : Guarding p e.kill s.1) :
    (e.clear p.backend).Ends (both works netAct) (fun _ s => s.1.Clean p) s := by
  refine (ensures_clearIPv6 e s).seq ?_
  rintro ⟨_, e'⟩ s' _ ⟨kill, host⟩
  refine (ensures_restoreDns e' s').seq ?_
  rintro ⟨_, e''⟩ s'' _ ⟨kill', host'⟩
  have still : Guarding p e''.kill s''.1 := by
    rw [kill', kill, host', host]
    exact guarding
  exact (ensures_disableKill still).seq fun _ _ _ clean => ⟨trivial, clean⟩

/-- What a step of `Apply` leaves: the endpoint of the plan is let through, or the step failed
and nothing is. -/
def Lets (p : Platform) (plan : Plan) (ok : Bool) (m : Manager) (h : Host) : Prop :=
  ok = true ∧ h.Locked plan.endpointIP (toString plan.endpointPort) p ∧ Removable p m h ∨
    ok = false ∧ h.Clean p

/-- A failure with something to undo has the kill switch among it. -/
def Pending (p : Platform) (plan : Plan) (out : Except String Unit × List Undo × Enforcer net)
    (s : Host × σ) : Prop :=
  s.1.Locked plan.endpointIP (toString plan.endpointPort) p ∧ Removable p out.2.2.kill s.1 ∧
      (out.1.isOk = true ∨ out.2.1 = [.kill] ∨ out.2.1 = [.kill, .dns]) ∨
    out.1.isOk = false ∧ out.2.1 = [] ∧ s.1.Clean p

variable {plan : Plan} {mode : Mode}

theorem applyKill_on {backend : Backend}
    (on : plan.killSwitch = some mode) (engaged : mode ≠ .off) :
    e.applyKill backend plan = (do
      let (res, kill) ← (e.kill.enable backend mode plan.endpointIP plan.endpointPort
          plan.tunAddr).left
      pure (res.map fun _ => [.kill], { e with kill })) := by
  unfold Enforcer.applyKill
  rw [on]
  cases mode with
  | off => exact absurd rfl engaged
  | onWhileConnected | alwaysOn => rfl

theorem ensures_attempt
    (on : plan.killSwitch = some mode) (engaged : mode ≠ .off) (clean : s.1.Clean p) :
    (e.attempt p.backend plan).Ends (both works netAct) (Pending p plan) s := by
  have kill : (e.applyKill p.backend plan).Ends (both works netAct)
      (fun r s => r.1 = .ok [.kill] ∧ s.1.Locked plan.endpointIP (toString plan.endpointPort) p ∧
        Removable p r.2.kill s.1 ∨ (∃ err, r.1 = .error err) ∧ s.1.Clean p) s := by
    have enabled := ensures_enable_clean e.kill engaged plan.endpointIP plan.endpointPort
        plan.tunAddr clean
    rw [applyKill_on on engaged]
    refine enabled.onLeft.seq ?_
    rintro ⟨res, m⟩ s' _ (⟨rfl, locked⟩ | ⟨⟨err, rfl⟩, clean⟩)
    · exact ⟨trivial, .inl ⟨rfl, locked⟩⟩
    · exact ⟨trivial, .inr ⟨⟨err, rfl⟩, clean⟩⟩
  refine kill.seq ?_
  rintro ⟨res, e₁⟩ s₁ _ (⟨rfl, locked, removable⟩ | ⟨⟨err, rfl⟩, clean⟩)
  · refine (ensures_applyDns e₁ plan s₁).seq ?_
    rintro ⟨res, e₂⟩ s₂ _ ⟨kill₂, host₂⟩
    rw [← host₂] at locked removable
    rw [← kill₂] at removable
    cases res with
    | error err => exact ⟨trivial, .inl ⟨locked, removable, .inr (.inl rfl)⟩⟩
    | ok =>
      refine (ensures_applyIPv6 e₂ plan s₂).seq ?_
      rintro ⟨res, e₃⟩ s₃ _ ⟨kill₃, host₃⟩
      rw [← host₃] at locked removable
      rw [← kill₃] at removable
      cases res with
      | error err => exact ⟨trivial, .inl ⟨locked, removable, .inr (.inr rfl)⟩⟩
      | ok => exact ⟨trivial, .inl ⟨locked, removable, .inl rfl⟩⟩
  · exact ⟨trivial, .inr ⟨rfl, rfl, clean⟩⟩

theorem ensures_rollback {undos : List Undo}
    (some : undos = [.kill] ∨ undos = [.kill, .dns]) (guarding : Guarding p e.kill s.1) :
    (Enforcer.rollback p.backend e undos).Ends (both works netAct) (fun _ s => s.1.Clean p) s := by
  have last : ∀ (e : Enforcer net) (s : Host × σ), Guarding p e.kill s.1 →
      (e.undo p.backend .kill).Ends (both works netAct) (fun _ s => s.1.Clean p) s :=
    fun e s guarding => (ensures_disableKill guarding).seq fun _ _ _ clean => ⟨trivial, clean⟩
  rcases some with rfl | rfl
  · exact last e s guarding
  · have dns : (Enforcer.rollback p.backend e [.dns]).Ends (both works netAct)
        (fun e' s' => e'.kill = e.kill ∧ s'.1 = s.1) s :=
      (ensures_restoreDns e s).seq fun _ _ _ aside => ⟨trivial, aside⟩
    refine dns.seq ?_
    rintro e' s' _ ⟨kill, host⟩
    exact last e' s' (by rw [kill, host]; exact guarding)

/-- `Apply` lets the endpoint of the plan through, or it fails and lets nothing through. -/
theorem ensures_apply
    (on : plan.killSwitch = some mode) (engaged : mode ≠ .off) (clean : s.1.Clean p) :
    (e.apply p.backend plan).Ends (both works netAct)
      (fun r s => Lets p plan r.1.isOk r.2.kill s.1) s := by
  have cleared : (e.clearApplied p.backend).Ends (both works netAct)
      (fun _ s => s.1.Clean p) s := by
    unfold Enforcer.clearApplied
    split
    · exact (ensures_clear (.inl clean)).seq fun _ _ _ clean => ⟨trivial, clean⟩
    · exact ⟨trivial, clean⟩
  refine cleared.seq fun e s _ clean => ?_
  refine (ensures_attempt on engaged clean).seq ?_
  rintro ⟨res, undos, e⟩ s _ (⟨locked, removable, todo⟩ | ⟨failed, none, clean⟩)
  · cases res with
    | ok => exact ⟨trivial, .inl ⟨rfl, locked, removable⟩⟩
    | error err =>
      have some : undos = [.kill] ∨ undos = [.kill, .dns] := by
        simpa [Except.isOk, Except.toBool] using todo
      refine (ensures_rollback some (.inr ⟨_, _, locked, removable⟩)).seq fun _ _ _ clean => ?_
      exact ⟨trivial, .inr ⟨rfl, clean⟩⟩
  · cases res with
    | ok => cases failed
    | error err =>
      obtain rfl : undos = [] := none
      exact ⟨trivial, .inr ⟨rfl, clean⟩⟩

variable {a : App net}

theorem ensures_clearEnforcement (guarding : Guarding p a.enforcer.kill s.1) :
    (a.clearEnforcement p.backend).Ends (both works netAct) (fun _ s => s.1.Clean p) s :=
  (ensures_clear guarding).seq fun _ _ _ clean => ⟨trivial, clean⟩

/-- `Connect` with the kill switch on: it lets the resolved endpoint through, or it fails and
lets nothing through. -/
theorem ensures_guard_connect {cfg : Config}
    (on : cfg.killSwitch = some mode) (engaged : mode ≠ .off) (idle : a.connected = false)
    (resolved : Except String (String × ℤ)) (tunAddr : String) (clean : s.1.Clean p) :
    (a.connect p.backend ⟨.ok (), .ok (), buildEnforcePlan cfg resolved tunAddr⟩).Ends
      (both works netAct)
      (fun r s => r.1 = .ok () ∧ (∃ ip port, resolved = .ok (ip, port) ∧
      s.1.Locked ip (toString port) p) ∧
          Removable p r.2.enforcer.kill s.1 ∨ (∃ err, r.1 = .error err) ∧ s.1.Clean p) s := by
  have refused : ∀ (a : App net) (err : String) (s : Host × σ), s.1.Clean p →
      (a.refuse p.backend err).Ends (both works netAct)
        (fun r s => r.1 = .ok () ∧ (∃ ip port, resolved = .ok (ip, port) ∧
        s.1.Locked ip (toString port) p) ∧
          Removable p r.2.enforcer.kill s.1 ∨ (∃ err, r.1 = .error err) ∧ s.1.Clean p) s := by
    intro a err s clean
    refine (ensures_clearEnforcement (.inl clean)).seq fun _ _ _ clean => ?_
    exact ⟨trivial, .inr ⟨⟨err, rfl⟩, clean⟩⟩
  have open_ : ¬ a.connected = true := by simp [idle]
  rw [App.connect, if_neg open_]
  cases resolved with
  | error err => exact refused a err s clean
  | ok target =>
    obtain ⟨ip, port⟩ := target
    refine (ensures_apply on engaged clean).seq ?_
    rintro ⟨res, e⟩ s _ (⟨done, locked, removable⟩ | ⟨failed, clean⟩)
    · cases res with
      | error err => cases done
      | ok => exact ⟨trivial, .inl ⟨rfl, ⟨ip, port, rfl, locked⟩, removable⟩⟩
    · cases res with
      | ok => cases failed
      | error err => exact refused _ _ s clean

theorem ensures_guard_disconnect (connected : a.connected = true)
    (guarding : Guarding p a.enforcer.kill s.1) :
    (a.disconnect p.backend (.ok ())).Ends (both works netAct) (fun _ s => s.1.Clean p) s := by
  rw [App.disconnect, if_pos connected]
  exact (ensures_clearEnforcement guarding).seq fun _ _ _ clean => ⟨trivial, clean⟩

end VeilNet.Source.Enforcing
