import VeilNet.Source.Enforcer
import VeilNet.Source.Firewall.Faults
import VeilNet.Source.Dns.Effects

/-!
# A failed connect leaves no trace

When `Apply` fails it rolls back, and `Connect` then clears enforcement once more. The second
`Restore` of the resolvers finds no snapshot and empties the list; so does the first when none was
taken. `iptables -P .. DROP` stays when the sentinel was not written. Otherwise nothing is left.
-/
namespace VeilNet.Guarantees.FailedConnect
open Lib Source Source.Firewall Source.Firewall.Faults
open Script (Fated both exec_left exec_right exec_bind exec_pure)

/-- Which commands and writes of `Apply` fail: those of the kill switch in their order, the
writes of the DNS manager, and the IPv6 block. -/
structure Choice where
  kill : List Fate
  dns : Dns.Fates
  ipv6 : Fate

def attemptAct (choice : Choice) :
    Machine (Sum.elim Command.Reply (Sum.elim Dns.Command.Reply Routing.Command.Reply))
      (World × Dns.Resolver × Routing.Table) :=
  both killAct (both (Dns.under choice.dns) (Routing.Command.act choice.ipv6))

section connect
variable {net : NetSide} (backend : Backend)

def finish (a : App net) (out : Except String Unit × List Undo × Enforcer net) :
    Enforcer.Code net (Except String Unit × App net) := do
  let (res, enforcer) ← out.2.2.settle backend out.1 out.2.1
  match res with
  | .error err =>
    App.refuse backend { a with enforcer } ("leak protection failed, tunnel refused: " ++ err)
  | .ok () => pure (.ok (), { connected := true, enforcer })

theorem exec_connect {τ : Type} (act : Machine (Sum.elim Command.Reply net.Reply) τ) (a : App net)
    (p : Plan) (s : τ) (idle : a.connected = false) (fresh : a.enforcer.applied = false) :
    (a.connect backend ⟨.ok (), .ok (), .ok p⟩).exec act s =
      (finish backend a ((a.enforcer.attempt backend p).exec act s).1).exec act
        ((a.enforcer.attempt backend p).exec act s).2 := by
  obtain ⟨connected, enforcer⟩ := a
  obtain rfl : connected = false := idle
  have applied : enforcer.applied = false := fresh
  simp only [App.connect, Bool.false_eq_true, if_false, App.protect, Enforcer.apply,
    Enforcer.clearApplied, applied, exec_bind, exec_pure]
  generalize (enforcer.attempt backend p).exec act s = out
  obtain ⟨⟨res, undos, e⟩, s'⟩ := out
  cases settled : ((e.settle backend res undos).exec act s').1.1 with
  | error err => simp only [finish, exec_bind, settled]
  | ok => simp only [finish, exec_bind, settled]

end connect

/-- The attempt under the choice, and the clean-up when everything works. -/
def connectRun {dir : StateDir} (a : App (linuxNet dir)) (p : Plan) (choice : Choice)
    (s : Host × Dns.Resolver × Routing.Table) :
    (Except String Unit × App (linuxNet dir)) × Host × Dns.Resolver × Routing.Table :=
  let out := (a.enforcer.attempt linuxBackend p).exec (attemptAct choice)
    (Fated.start s.1 choice.kill, s.2)
  (finish linuxBackend a out.1).exec calm (out.2.1.state, out.2.2)

/-! The kill switch of a plan. -/

section plan
variable (m : Manager) (p : Plan) (fates : List Fate)

/-- The kill-switch step of the attempt, with what there is to undo. -/
def killOut (w : World) : (Except String (List Undo) × Manager) × World :=
  match p.killSwitch with
  | none | some .off => ((.ok [], m), w)
  | some mode =>
    let out := (m.enable linuxBackend mode p.endpointIP p.endpointPort p.tunAddr).exec killAct w
    ((out.1.1.map fun _ => [.kill], out.1.2), out.2)

def guards : Bool := p.killSwitch.any (· ≠ .off)

def accepted : Bool := (Manager.checkArgs p.endpointIP p.endpointPort p.tunAddr).isOk

def killSpec : Spec := ⟨p.endpointIP, p.endpointPort, p.tunAddr, m.lanAllowed⟩

/-- The kill switch is refused. -/
def killFails : Bool := guards p && !(accepted p && engages (killSpec m p) (fates.drop 2))

/-- A policy of iptables is set and not recorded. -/
def dropStays : Bool :=
  guards p && accepted p && setsDrop (killSpec m p) (fates.drop 2) &&
    !written (killSpec m p) (fates.drop 2) m.dir

variable {m p} {w : World} {h : Host}

theorem killOut_off (off : guards p = false) : killOut m p w = ((.ok [], m), w) := by
  unfold killOut
  split
  · rfl
  · rfl
  · next mode on same =>
    rw [guards, same] at off
    exact absurd (of_decide_eq_false off) (not_not.mpr on)

theorem killOut_on {mode : Mode} (same : p.killSwitch = some mode) (on : mode ≠ .off) :
    killOut m p w =
      let out := (m.enable linuxBackend mode p.endpointIP p.endpointPort p.tunAddr).exec killAct w
      ((out.1.1.map fun _ => [.kill], out.1.2), out.2) := by
  unfold killOut
  rw [same]
  cases mode with
  | off => exact absurd rfl on
  | onWhileConnected | alwaysOn => rfl

theorem killOut_spec (holding : Holding false (Fated.start h fates)) (absent : h.nft = none) :
    let out := killOut m p (Fated.start h fates)
    out.1.1.isOk = !killFails m p fates ∧
      (∀ undo, out.1.1 = .ok undo → undo = [] ∨ undo = [.kill]) ∧
      ∃ drop written, Enabled out.1.2.dir drop written out.2.state ∧
        (drop && !written) = dropStays m p fates ∧
        (out.1.2.active = false → out.2.state.nft = none ∧ written = false) := by
  cases on : guards p with
  | false =>
    rw [killOut_off on, killFails, dropStays, on]
    refine ⟨rfl, ?_, false, false, holding.enabled _, rfl, fun _ => ⟨absent, rfl⟩⟩
    rintro _ same
    exact .inl (Except.ok.inj same).symm
  | true =>
    obtain ⟨mode, same, ne⟩ : ∃ mode, p.killSwitch = some mode ∧ mode ≠ .off := by
      rw [guards] at on
      cases same : p.killSwitch with
      | none =>
        rw [same] at on
        cases on
      | some mode =>
        rw [same] at on
        exact ⟨mode, rfl, of_decide_eq_true on⟩
    rw [killOut_on same ne, Manager.enable, if_neg ne, killFails, dropStays, on]
    cases args : Manager.checkArgs p.endpointIP p.endpointPort p.tunAddr with
    | error err =>
      have refused : accepted p = false := by rw [accepted, args]; rfl
      rw [refused]
      exact ⟨rfl, nofun, false, false, holding.enabled _, rfl, fun _ => ⟨absent, rfl⟩⟩
    | ok =>
      have fine : accepted p = true := by rw [accepted, args]; rfl
      have run := (ensures_enableChecked m mode p.endpointIP p.endpointPort p.tunAddr holding.empty
          absent).exec
      rw [fine]
      generalize (m.enableChecked linuxBackend mode p.endpointIP p.endpointPort p.tunAddr).exec
        killAct (Fated.start h fates) = out at run ⊢
      obtain ⟨⟨res, m'⟩, w'⟩ := out
      obtain ⟨result, dir, chains, enabled, last⟩ := run
      rw [dropsByDefault_left holding.drops chains] at enabled
      have dir : m'.dir = m.dir := dir
      have result : res.isOk = engages (killSpec m p) (fates.drop 2) := result
      rw [Bool.true_and, Bool.true_and, Bool.true_and, ← result]
      refine ⟨?_, ?_, _, _, dir ▸ enabled, rfl, fun idle => ?_⟩
      · cases res <;> rfl
      · cases res with
        | error err => exact nofun
        | ok => exact fun undo same => .inr (Except.ok.inj same).symm
      · cases res with
        | error err =>
          refine ⟨last.2, ?_⟩
          rw [written, show engages _ _ = false from result.symm]
          rfl
        | ok => rw [show m'.active = true from last] at idle; cases idle

end plan

/-! The resolvers. -/

section resolvers
open Dns (Resolver)
variable {m : Dns.Manager} {f : Dns.Fates} {r : Resolver}

/-- What `Restore` leaves when every write works. -/
def restored (m : Dns.Manager) (r : Resolver) : Resolver :=
  ⟨some (Dns.resolvText (r.prior m)), m.snapshotPaths.foldl (·.put none ·) r.snapshot⟩

theorem exec_restore_calm :
    m.restore.exec (Dns.Command.act .works) r =
      ((.ok (), { m with mode := .system, servers := [] }), restored m r) := by
  have same : Dns.Command.act .works = Dns.under ⟨.works, .works, .works⟩ := by
    funext c
    cases c <;> rfl
  rw [same]
  exact Dns.exec_restore m _ r

theorem isIP_of_effective : ∀ server ∈ r.effective, Dns.isIP server = true := by
  unfold Resolver.effective
  cases r.conf with
  | none => exact nofun
  | some text => exact fun server => Dns.isIP_of_mem

theorem effective_restored (ips : ∀ server ∈ r.prior m, Dns.isIP server = true) :
    (restored m r).effective = r.prior m :=
  Dns.parseResolvConf_resolvText ips

theorem prior_unloaded (unloaded : r.snapshot.load m.snapshotPaths = none) : r.prior m = [] := by
  rw [Resolver.prior, unloaded]
  rfl

theorem effective_unloaded (unloaded : r.snapshot.load m.snapshotPaths = none) :
    (restored m r).effective = [] := by
  have prior := prior_unloaded unloaded
  rw [effective_restored (by rw [prior]; exact nofun), prior]

theorem unloaded_restored (m m' : Dns.Manager) (same : m'.dir = m.dir) :
    (restored m r).snapshot.load m'.snapshotPaths = none := by
  simp only [restored, Dns.Manager.snapshotPaths, same]
  cases m.dir <;> rfl

/-- `Apply` takes a snapshot and then fails. -/
def failsOnRecord (dir : StateDir) (p : Plan) (f : Dns.Fates) : Bool :=
  Dns.snapshots p.dnsMode p.dnsServers && (p.dnsMode = .doh || !f.result.isOk) &&
    dir ≠ .homeless && f.snapshot = .works

def dnsOut (dir : StateDir) (p : Plan) (f : Dns.Fates) (r : Resolver) :
    (Except String Unit × Dns.Manager) × Resolver :=
  ((Dns.Manager.new dir p.tunIface).apply p.dnsMode p.dnsServers).exec (Dns.under f) r

/-- When it fails, the servers are on record or the record is missing. -/
theorem dnsOut_spec (dir : StateDir) (p : Plan) (empty : r.snapshot = Files.empty) :
    (dnsOut dir p f r).1.2.dir = dir ∧
      if (dnsOut dir p f r).1.1.isOk then failsOnRecord dir p f = false
      else (dnsOut dir p f r).2.prior (dnsOut dir p f r).1.2 =
        if failsOnRecord dir p f then r.effective else [] := by
  have unloaded : ∀ m : Dns.Manager, r.snapshot.load m.snapshotPaths = none := fun m => by
    rw [empty, Files.load_empty]
  have recorded : ∀ m : Dns.Manager, m.dir = dir → (p.dnsMode = .doh ∨ f.result.isOk = false) →
      Dns.snapshots p.dnsMode p.dnsServers = true → (r.snapshotted m f).prior m =
        if failsOnRecord dir p f then r.effective else [] := by
    intro m same failed taken
    rw [Dns.prior_snapshotted empty, same, failsOnRecord, taken]
    rcases failed with doh | failed <;> simp [*]
  unfold dnsOut
  cases taken : Dns.snapshots p.dnsMode p.dnsServers with
  | false =>
    have off : failsOnRecord dir p f = false := by simp [failsOnRecord, taken]
    by_cases system : p.dnsMode = .system
    · rw [system, Dns.Manager.apply, Dns.exec_restore, off]
      refine ⟨rfl, ?_⟩
      split
      · rfl
      · exact prior_unloaded (unloaded_restored (Dns.Manager.new dir p.tunIface) _ rfl)
    · obtain ⟨err, refused⟩ := Dns.exec_apply_refused
          (Dns.Manager.new dir p.tunIface) f r taken system
      rw [refused, off]
      exact ⟨rfl, prior_unloaded (unloaded _)⟩
  | true =>
    by_cases doh : p.dnsMode = .doh
    · obtain ⟨err, failed⟩ := Dns.exec_apply_doh (Dns.Manager.new dir p.tunIface) f r (doh ▸ taken)
      have on := recorded (Dns.Manager.new dir p.tunIface) rfl (.inl doh) taken
      rw [doh, failed]
      exact ⟨rfl, on⟩
    · rw [Dns.exec_apply_set _ f r taken doh]
      cases ok : f.result.isOk with
      | true =>
        have off : failsOnRecord dir p f = false := by simp [failsOnRecord, doh, ok]
        exact ⟨rfl, off⟩
      | false =>
        have on := recorded (Dns.Manager.new dir p.tunIface) rfl (.inr ok) taken
        refine ⟨rfl, ?_⟩
        change ((r.snapshotted _ f).wrote f p.dnsServers).prior _ = _
        rw [Resolver.prior, Dns.snapshot_wrote]
        exact on

end resolvers

/-! The parts put together. -/

section parts
variable {dir : StateDir} {e : Enforcer (linuxNet dir)} {p : Plan} {choice : Choice}
  {w : World} {h : Host} {r : Dns.Resolver} {t : Routing.Table}

theorem exec_applyKill {n : Dns.Resolver × Routing.Table} :
    (e.applyKill linuxBackend p).exec (attemptAct choice) (w, n) =
      (((killOut e.kill p w).1.1, { e with kill := (killOut e.kill p w).1.2 }),
        (killOut e.kill p w).2, n) := by
  unfold Enforcer.applyKill
  split
  · next same => rw [killOut_off (by rw [guards, same]; rfl), exec_pure]
  · next same => rw [killOut_off (by rw [guards, same]; rfl), exec_pure]
  · next mode on same =>
    rw [killOut_on same on]
    simp only [exec_bind, exec_left, exec_pure, attemptAct]

theorem exec_applyDns :
    (e.applyDns p).exec (attemptAct choice) (w, r, t) =
      (((dnsOut dir p choice.dns r).1.1, { e with dnsMgr := some (dnsOut dir p choice.dns r).1.2 }),
        w, (dnsOut dir p choice.dns r).2, t) := by
  simp [Enforcer.applyDns, linuxNet, exec_bind, exec_right, exec_left, exec_pure, attemptAct,
    dnsOut]

theorem exec_blockIPv6 (m : Routing.Manager) (fate : Fate) (t : Routing.Table) :
    (∃ err, m.blockIPv6.exec (Routing.Command.act fate) t = ((.error err, m), t)) ∨
      ∃ t', m.blockIPv6.exec (Routing.Command.act fate) t =
        ((.ok (), { m with ipv6Off := true }), t') := by
  cases fate with
  | fails err left => exact .inl ⟨err, rfl⟩
  | works =>
    cases black : t.blackhole with
    | true =>
      refine .inl ⟨"exit status 2", ?_⟩
      simp [Routing.Manager.blockIPv6, Routing.run, Routing.Command.act, Routing.OsCommand.run,
        black]
    | false =>
      refine .inr ⟨{ t with blackhole := true }, ?_⟩
      simp [Routing.Manager.blockIPv6, Routing.run, Routing.Command.act, Routing.OsCommand.run,
        black]

theorem exec_applyIPv6 (e : Enforcer (linuxNet dir)) (p : Plan) (choice : Choice)
    (s : World × Dns.Resolver × Routing.Table) (err : String)
    (failed : ((e.applyIPv6 p).exec (attemptAct choice) s).1.1 = .error err) :
    (e.applyIPv6 p).exec (attemptAct choice) s = ((.error err, e), s) := by
  unfold Enforcer.applyIPv6 at failed ⊢
  cases routed : p.routeIPv6 with
  | true =>
    rw [routed] at failed
    cases failed
  | false =>
    rw [routed] at failed
    simp only [Bool.false_eq_true, if_false, linuxNet, exec_bind, exec_right,
      attemptAct] at failed ⊢
    rcases exec_blockIPv6 e.route choice.ipv6 s.2.2 with ⟨err', refused⟩ | ⟨t', done⟩
    · rw [refused] at failed ⊢
      rw [Except.error.inj failed]
      rfl
    · rw [done] at failed
      cases failed

theorem exec_clear (open_ : e.ipv6 ≠ .blocked) :
    ((e.clear linuxBackend).exec calm (h, r, t)).2 =
      (((e.kill.disable linuxBackend).exec works h).2,
        (match e.dnsMgr with
          | none => r
          | some m => restored m r), t) := by
  obtain ⟨kill, route, dnsMgr, applied, ipv6⟩ := e
  have open_ : ipv6 ≠ .blocked := open_
  cases dnsMgr with
  | none =>
    simp [Enforcer.clear, Enforcer.clearIPv6, if_neg open_, Enforcer.restoreDns,
      Enforcer.disableKill, exec_bind, exec_pure, exec_left, calm]
  | some m =>
    simp [Enforcer.clear, Enforcer.clearIPv6, if_neg open_, Enforcer.restoreDns,
      Enforcer.disableKill, exec_bind, exec_pure, exec_left, exec_right, calm, linuxNet,
      exec_restore_calm]

/-- The enforcer after its kill-switch and DNS steps. -/
abbrev guarded (e : Enforcer (linuxNet dir)) (p : Plan) (choice : Choice) (w : World)
    (r : Dns.Resolver) : Enforcer (linuxNet dir) :=
  { e with kill := (killOut e.kill p w).1.2, dnsMgr := some (dnsOut dir p choice.dns r).1.2 }

theorem exec_attempt_kill {err : String} (failed : (killOut e.kill p w).1.1 = .error err) :
    (e.attempt linuxBackend p).exec (attemptAct choice) (w, r, t) =
      ((.error err, [], { e with kill := (killOut e.kill p w).1.2 }), (killOut e.kill p w).2, r,
        t) := by
  simp only [Enforcer.attempt, exec_bind, exec_applyKill, failed, exec_pure]

theorem exec_attempt_dns {undo : List Undo} {err : String}
    (enabled : (killOut e.kill p w).1.1 = .ok undo)
    (failed : (dnsOut dir p choice.dns r).1.1 = .error err) :
    (e.attempt linuxBackend p).exec (attemptAct choice) (w, r, t) =
      ((.error err, undo, guarded e p choice w r), (killOut e.kill p w).2,
        (dnsOut dir p choice.dns r).2, t) := by
  simp [Enforcer.attempt, exec_bind, exec_applyKill, enabled, exec_applyDns, failed, exec_pure,
    guarded]

theorem exec_attempt_ipv6 {undo : List Undo} (enabled : (killOut e.kill p w).1.1 = .ok undo)
    (set : (dnsOut dir p choice.dns r).1.1 = .ok ())
    (failed : ((e.attempt linuxBackend p).exec (attemptAct choice) (w, r, t)).1.1.isOk = false) :
    ∃ err, (e.attempt linuxBackend p).exec (attemptAct choice) (w, r, t) =
      ((.error err, undo ++ [.dns], guarded e p choice w r), (killOut e.kill p w).2,
        (dnsOut dir p choice.dns r).2, t) := by
  have step := exec_applyIPv6 (guarded e p choice w r) p choice
    ((killOut e.kill p w).2, (dnsOut dir p choice.dns r).2, t)
  simp only [Enforcer.attempt, exec_bind, exec_applyKill, enabled, exec_applyDns, set] at failed ⊢
  generalize ((guarded e p choice w r).applyIPv6 p).exec (attemptAct choice)
    ((killOut e.kill p w).2, (dnsOut dir p choice.dns r).2, t) = out at step failed ⊢
  obtain ⟨⟨res, e'⟩, s'⟩ := out
  cases res with
  | ok => cases failed
  | error err =>
    refine ⟨err, ?_⟩
    obtain ⟨same, rfl⟩ := Prod.mk.inj (step err rfl)
    obtain ⟨-, rfl⟩ := Prod.mk.inj same
    rfl

/-- The kill switch after the undos of the rollback. -/
def lifted (m : Manager) (h : Host) (undo : List Undo) : Manager × Host :=
  if undo = [] then (m, h)
  else (((m.disable linuxBackend).exec works h).1.2, ((m.disable linuxBackend).exec works h).2)

theorem exec_rollback {undo : List Undo} (known : undo = [] ∨ undo = [.kill]) :
    (Enforcer.rollback linuxBackend e undo).exec calm (h, r, t) =
      ({ e with kill := (lifted e.kill h undo).1 }, (lifted e.kill h undo).2, r, t) := by
  rcases known with rfl | rfl
  · rfl
  · simp [Enforcer.rollback, Enforcer.undo, Enforcer.disableKill, exec_bind, exec_pure, exec_left,
      calm, lifted]

theorem exec_rollback_dns {undo : List Undo} {m : Dns.Manager} (known : undo = [] ∨ undo = [.kill])
    (manager : e.dnsMgr = some m) :
    (Enforcer.rollback linuxBackend e (undo ++ [.dns])).exec calm (h, r, t) =
      ({ e with
          kill := (lifted e.kill h undo).1
          dnsMgr := some { m with mode := .system, servers := [] } },
        (lifted e.kill h undo).2, restored m r, t) := by
  obtain ⟨kill, route, dnsMgr, applied, ipv6⟩ := e
  obtain rfl : dnsMgr = some m := manager
  rcases known with rfl | rfl <;>
    simp [Enforcer.rollback, Enforcer.undo, Enforcer.disableKill, Enforcer.restoreDns, exec_bind,
      exec_pure, exec_left, exec_right, calm, linuxNet, exec_restore_calm, lifted]

theorem exec_finish (a : App (linuxNet dir)) (err : String) (undos : List Undo)
    (s : Host × Dns.Resolver × Routing.Table) :
    ((finish linuxBackend a (.error err, undos, e)).exec calm s).2 =
      let out := (Enforcer.rollback linuxBackend e undos).exec calm s
      ((out.1.clear linuxBackend).exec calm out.2).2 := by
  simp only [finish, Enforcer.settle, App.refuse, App.clearEnforcement, exec_bind, exec_pure]

end parts

section main
variable {dir : StateDir} {a : App (linuxNet dir)} {p : Plan} {choice : Choice}
  {s : Host × Dns.Resolver × Routing.Table}

/-- Not connected, and nothing of the kind is in place: neither table nor default drop, sentinel,
snapshot or blackhole. -/
structure Idle (a : App (linuxNet dir)) (s : Host × Dns.Resolver × Routing.Table) : Prop where
  disconnected : a.connected = false
  fresh : a.enforcer.applied = false
  unblocked : a.enforcer.ipv6 ≠ .blocked
  absent : s.1.nft = none
  accepting : dropsByDefault s.1 = false
  unrecorded : s.1.sentinel = Files.empty
  unsaved : s.2.1.snapshot = Files.empty
  reachable : s.2.2.blackhole = false

/-- The servers are the given ones, nothing drops by default, and IPv6 is not blocked. -/
def Clean (servers : List String) (s : Host × Dns.Resolver × Routing.Table) : Prop :=
  s.2.1.effective = servers ∧ dropping s.1 = false ∧ s.2.2.blackhole = false

/-- No policy of iptables is left behind, and the servers are restored once, from the snapshot, or
not at all. -/
def Undoable (a : App (linuxNet dir)) (p : Plan) (choice : Choice) (servers : List String) : Prop :=
  dropStays a.enforcer.kill p choice.kill = false ∧
    (servers = [] ∨ if killFails a.enforcer.kill p choice.kill then a.enforcer.dnsMgr = none
      else failsOnRecord dir p choice.dns = true)

theorem attempt_failed (failed : (connectRun a p choice s).1.1.isOk = false) :
    ((a.enforcer.attempt linuxBackend p).exec (attemptAct choice)
      (Fated.start s.1 choice.kill, s.2)).1.1.isOk = false := by
  unfold connectRun at failed
  generalize (a.enforcer.attempt linuxBackend p).exec (attemptAct choice) _ = out at failed ⊢
  obtain ⟨⟨res, undos, e⟩, s'⟩ := out
  cases res with
  | error err => rfl
  | ok => cases failed

/-- What is left after a failed attempt: the rollback, then `Clear`. -/
theorem connectRun_failed {err : String} {undos : List Undo} {e : Enforcer (linuxNet dir)}
    {w : World} {r : Dns.Resolver} {t : Routing.Table}
    (attempt : (a.enforcer.attempt linuxBackend p).exec (attemptAct choice)
      (Fated.start s.1 choice.kill, s.2) = ((.error err, undos, e), w, r, t)) :
    (connectRun a p choice s).2 =
      let out := (Enforcer.rollback linuxBackend e undos).exec calm (w.state, r, t)
      ((out.1.clear linuxBackend).exec calm out.2).2 := by
  rw [connectRun, attempt]
  exact exec_finish a err undos _

section ends
variable {h : Host} {r : Dns.Resolver} {t : Routing.Table} {err : String} {undo : List Undo}
  (open_ : a.enforcer.ipv6 ≠ .blocked)
include open_

theorem left_kill
    (failed : (killOut a.enforcer.kill p (Fated.start h choice.kill)).1.1 = .error err) :
    let kill := killOut a.enforcer.kill p (Fated.start h choice.kill)
    (connectRun a p choice (h, r, t)).2 =
      (((kill.1.2.disable linuxBackend).exec works kill.2.state).2,
        (match a.enforcer.dnsMgr with
          | none => r
          | some m => restored m r), t) :=
  (connectRun_failed (exec_attempt_kill failed)).trans (exec_clear open_)

variable (enabled : (killOut a.enforcer.kill p (Fated.start h choice.kill)).1.1 = .ok undo)
include enabled

theorem left_dns
    (known : undo = [] ∨ undo = [.kill]) (failed : (dnsOut dir p choice.dns r).1.1 = .error err) :
    let kill := killOut a.enforcer.kill p (Fated.start h choice.kill)
    let dns := dnsOut dir p choice.dns r
    let lift := lifted kill.1.2 kill.2.state undo
    (connectRun a p choice (h, r, t)).2 =
      (((lift.1.disable linuxBackend).exec works lift.2).2, restored dns.1.2 dns.2, t) := by
  intro kill dns lift
  rw [connectRun_failed (exec_attempt_dns enabled failed), exec_rollback known]
  exact exec_clear open_

theorem left_ipv6
    (known : undo = [] ∨ undo = [.kill]) (set : (dnsOut dir p choice.dns r).1.1 = .ok ())
    (failed : (connectRun a p choice (h, r, t)).1.1.isOk = false) :
    let kill := killOut a.enforcer.kill p (Fated.start h choice.kill)
    let dns := dnsOut dir p choice.dns r
    let lift := lifted kill.1.2 kill.2.state undo
    (connectRun a p choice (h, r, t)).2 =
      (((lift.1.disable linuxBackend).exec works lift.2).2,
        restored { dns.1.2 with mode := .system, servers := [] } (restored dns.1.2 dns.2), t) := by
  intro kill dns lift
  obtain ⟨err, attempt⟩ := exec_attempt_ipv6 enabled set (attempt_failed failed)
  rw [connectRun_failed attempt, exec_rollback_dns known rfl]
  exact exec_clear open_

end ends

theorem dropping_lifted {m : Manager} {h : Host} {drop written : Bool} (undo : List Undo)
    (enabled : Enabled m.dir drop written h)
    (idle : m.active = false → h.nft = none ∧ written = false) :
    dropping (((lifted m h undo).1.disable linuxBackend).exec works (lifted m h undo).2).2 =
      (drop && !written) := by
  obtain ⟨once, twice⟩ := dropping_disable enabled idle
  unfold lifted
  split
  · exact once
  · exact twice

/-- What a failed `Connect` leaves: the kill switch, the resolvers, and IPv6 as it was. -/
theorem failed_cases (idle : Idle a s) (failed : (connectRun a p choice s).1.1.isOk = false) :
    dropping (connectRun a p choice s).2.1 = dropStays a.enforcer.kill p choice.kill ∧
      (connectRun a p choice s).2.2.1.effective =
        (if killFails a.enforcer.kill p choice.kill then
          if a.enforcer.dnsMgr = none then s.2.1.effective else []
        else if failsOnRecord dir p choice.dns then s.2.1.effective else []) ∧
      (connectRun a p choice s).2.2.2.blackhole = false := by
  obtain ⟨h, r, t⟩ := s
  have holding : Holding false (Fated.start h choice.kill : World) :=
    ⟨idle.unrecorded, idle.accepting⟩
  obtain ⟨killed, known, drop, wrote, enabled, stays, gone⟩ :=
    @killOut_spec a.enforcer.kill p _ _ holding idle.absent
  obtain ⟨located, recorded⟩ := @dnsOut_spec choice.dns r dir p idle.unsaved
  rw [← stays]
  cases kill : (killOut a.enforcer.kill p (Fated.start h choice.kill)).1.1 with
  | error err =>
    have fails : killFails a.enforcer.kill p choice.kill = true := by
      rw [kill] at killed
      exact (Bool.not_eq_false' _).mp killed.symm
    have unloaded : ∀ m : Dns.Manager, r.snapshot.load m.snapshotPaths = none := fun m => by
      rw [show r.snapshot = Files.empty from idle.unsaved, Files.load_empty]
    rw [left_kill idle.unblocked kill, fails, if_pos rfl]
    refine ⟨dropping_lifted [] enabled gone, ?_, idle.reachable⟩
    cases manager : a.enforcer.dnsMgr with
    | none => rfl
    | some m => exact effective_unloaded (unloaded m)
  | ok undo =>
    have works : killFails a.enforcer.kill p choice.kill = false := by
      rw [kill] at killed
      exact (Bool.not_eq_true' _).mp killed.symm
    rw [works]
    cases dns : (dnsOut dir p choice.dns r).1.1 with
    | error err =>
      rw [left_dns idle.unblocked kill (known undo kill) dns]
      refine ⟨dropping_lifted undo enabled gone, ?_, idle.reachable⟩
      rw [dns] at recorded
      have prior : (dnsOut dir p choice.dns r).2.prior (dnsOut dir p choice.dns r).1.2 =
        if failsOnRecord dir p choice.dns then r.effective else [] := recorded
      have ips : ∀ server ∈ (dnsOut dir p choice.dns r).2.prior (dnsOut dir p choice.dns r).1.2,
          Dns.isIP server = true := by
        rw [prior]
        split
        · exact isIP_of_effective
        · exact nofun
      exact (effective_restored ips).trans prior
    | ok =>
      rw [left_ipv6 idle.unblocked kill (known undo kill) dns failed]
      refine ⟨dropping_lifted undo enabled gone, ?_, idle.reachable⟩
      rw [dns] at recorded
      have off : failsOnRecord dir p choice.dns = false := recorded
      rw [off]
      exact effective_unloaded (unloaded_restored _ _ rfl)

/-- A failed `Connect` leaves no trace exactly when what it did can be undone. -/
theorem failed_connect_clean_iff (idle : Idle a s)
    (failed : (connectRun a p choice s).1.1.isOk = false) :
    Clean s.2.1.effective (connectRun a p choice s).2 ↔ Undoable a p choice s.2.1.effective := by
  obtain ⟨drops, servers, black⟩ := failed_cases idle failed
  have emptied : ∀ (kept : Prop) [Decidable kept],
      (if kept then s.2.1.effective else []) = s.2.1.effective ↔ s.2.1.effective = [] ∨ kept := by
    intro kept _
    split
    · exact iff_of_true rfl (.inr ‹_›)
    · exact ⟨fun same => .inl same.symm, fun h => (h.resolve_right ‹_›).symm⟩
  rw [Clean, Undoable, drops, servers, black, and_iff_left rfl, and_comm]
  refine and_congr_right fun _ => ?_
  split <;> exact emptied _

end main

/-! A service that has just started, on a machine with one resolver. -/

def started : App (linuxNet .single) := ⟨false, Enforcer.new .single ⟨.single, [], false⟩⟩

theorem idle_started : Idle started bareMachine :=
  ⟨rfl, rfl, nofun, rfl, rfl, rfl, rfl, rfl⟩

/-- `resolv.conf` cannot be written. -/
def readOnly : Choice := ⟨[], ⟨.works, .works, .fails "read-only file system" none⟩, .works⟩

theorem clean_on_readOnly :
    (connectRun started somePlan readOnly bareMachine).1.1.isOk = false ∧
      Clean ["192.168.1.1"] (connectRun started somePlan readOnly bareMachine).2 := by
  have failed : (connectRun started somePlan readOnly bareMachine).1.1.isOk = false := by
    decide +kernel
  have servers : bareMachine.2.1.effective = ["192.168.1.1"] := by decide +kernel
  have undoable : Undoable started somePlan readOnly bareMachine.2.1.effective := by
    refine ⟨by decide +kernel, .inr ?_⟩
    rw [show killFails started.enforcer.kill somePlan readOnly.kill = false by decide +kernel]
    decide +kernel
  refine ⟨failed, ?_⟩
  rw [← servers]
  exact (failed_connect_clean_iff idle_started failed).mpr undoable

def noIPv6 : Choice := ⟨[], ⟨.works, .works, .works⟩, .fails "exit status 2" none⟩

/-- There is no nftables, and iptables blocks OUTPUT but not INPUT. -/
def halfBlocked : Choice :=
  ⟨[.works, .works, .fails "exit status 1" none, .works, .fails "exit status 4" none],
    ⟨.works, .works, .works⟩, .works⟩

/-- The second `Restore` empties the list of resolvers, and OUTPUT stays blocked. -/
theorem traces_left :
    Idle started bareMachine ∧ bareMachine.2.1.effective = ["192.168.1.1"] ∧
      (connectRun started somePlan noIPv6 bareMachine).1.1.isOk = false ∧
      (connectRun started somePlan noIPv6 bareMachine).2.2.1.effective = [] ∧
      (connectRun started somePlan halfBlocked bareMachine).1.1.isOk = false ∧
      dropping (connectRun started somePlan halfBlocked bareMachine).2.1 = true :=
  ⟨idle_started, by decide +kernel, by decide +kernel, by decide +kernel, by decide +kernel,
    by decide +kernel⟩

end VeilNet.Guarantees.FailedConnect
