import VeilNet.Source.Enforcer
import VeilNet.Source.Firewall.Recovery

/-!
# A restart after a crash

A service that starts clears what is on record. The kill switch is lifted if its sentinel was
written; its chains are left if the process died before. The new enforcer knows neither a DNS
manager nor that IPv6 is blocked, so it undoes neither.
-/
namespace VeilNet.Guarantees.CrashRestart
open Lib Source Source.Firewall
open Script (recording both exec_left exec_right exec_bind exec_pure ensures_of_only only_true)

/-- The start of the service: `newEnforcer`, then `ClearEnforcement`. -/
def restart (dir : StateDir) :
    Enforcer.Code (linuxNet dir) (Except String Unit × Enforcer (linuxNet dir)) := do
  let route ← (Routing.Manager.new dir).right.right
  (Enforcer.new dir route : Enforcer (linuxNet dir)).clear linuxBackend

abbrev kills (cs : List (Command ⊕ Dns.Command ⊕ Routing.Command)) : List Command :=
  cs.filterMap Sum.getLeft?

/-- Whether the table is there and whether it has a chain, from the commands. -/
def track : Bool × Bool → Command → Bool × Bool
  | (_, chain), .os .nftAddTable => (true, chain)
  | (table, chain), .os (.nftAddChain _) => (table, chain || table)
  | _, .os .nftDelete => (false, false)
  | now, _ => now

/-- A chain has been added to the table, which has not been deleted since. -/
def chained (cs : List Command) : Bool := (cs.foldl track (false, false)).2

def writesSentinel : Command → Bool
  | .file (.write _ _) => true
  | .file _ | .os _ => false

/-- What is written to `resolv.conf`. -/
def confText : Command ⊕ Dns.Command ⊕ Routing.Command → Option String
  | .inr (.inl (.writeConf text)) => some text
  | .inr (.inl _) | .inl _ | .inr (.inr _) => none

def blocksIPv6 : Command ⊕ Dns.Command ⊕ Routing.Command → Bool
  | .inr (.inr (.os .blockIPv6)) => true
  | .inr (.inr _) | .inl _ | .inr (.inl _) => false

section host
variable {h₀ : Host} {dir : StateDir}

def hasChain (h : Host) : Bool := (h.nftPolicy .output).isSome || (h.nftPolicy .input).isSome

theorem track_run (c : OsCommand) (h : Host) :
    ((c.run h).2.nft.isSome, hasChain (c.run h).2) = track (h.nft.isSome, hasChain h) (.os c) := by
  cases c with
  | nftAddTable => cases nft : h.nft <;> simp [OsCommand.run, track, hasChain, Host.nftPolicy, nft]
  | nftAddChain hook =>
    cases nft : h.nft with
    | none => simp [OsCommand.run, track, hasChain, Host.nftPolicy, nft]
    | some t =>
      cases hook <;> simp [OsCommand.run, track, hasChain, Host.nftPolicy, nft, Table.addChain]
  | nftDelete => cases nft : h.nft <;> simp [OsCommand.run, track, hasChain, Host.nftPolicy, nft]
  | nftAddRule hook rule =>
    have same : ((OsCommand.nftAddRule hook rule).run h).2.nft.isSome = h.nft.isSome := by
      simp only [OsCommand.run]
      split
      · rfl
      · next t added =>
        obtain ⟨_, table, _⟩ := Option.bind_eq_some_iff.mp added
        simp [table]
    simp only [hasChain, nftPolicy_addRule, same, track]
  | nftList => rw [run_of_looks rfl]; rfl
  | netshShow | iptablesPolicy | iptablesInsert | netshAdd => rfl
  | iptablesDelete | netshDelete | netshPolicy =>
    simp only [OsCommand.run]
    split <;> rfl

/-- Before the sentinel is written: nothing on record, iptables as it was, and the table as the
commands say. -/
structure Early (h₀ : Host) (s : Host × List Command) : Prop where
  empty : s.1.sentinel = Files.empty
  unwritten : s.2.any writesSentinel = false
  policies : ∀ hook, (s.1.iptables.chain hook).policy = (h₀.iptables.chain hook).policy
  tracked : (s.1.nft.isSome, hasChain s.1) = s.2.foldl track (false, false)

/-- The policies that `Disable` restores. -/
abbrev opened : Defaults := .linux none none .accept .accept

/-- Once it is written. -/
structure Late (dir : StateDir) (s : Host × List Command) : Prop where
  written : s.2.any writesSentinel = true
  kept : Kept .linux opened dir s.1

def Tended (dir : StateDir) (h₀ : Host) (s : Host × List Command) : Prop := Early h₀ s ∨ Late dir s

/-- Neither `iptables -P` nor a write of the sentinel. -/
def Mild : Command → Prop
  | .os c => ∀ hook policy, c ≠ .iptablesPolicy hook policy
  | .file (.write _ _) => False
  | .file _ => True

variable {s : Host × List Command}

theorem Early.step (early : Early h₀ s) {c : Command} (mild : Mild c) :
    Early h₀ (recording works c s).2 := by
  obtain ⟨empty, unwritten, policies, tracked⟩ := early
  cases c with
  | os c =>
    refine ⟨(sentinel_run c s.1).trans empty, ?_, fun hook => ?_, ?_⟩
    · simp [recording, List.any_append, unwritten, writesSentinel]
    · exact (policy_run mild hook).trans (policies hook)
    · simp only [recording, List.foldl_append, List.foldl_cons, List.foldl_nil, ← tracked]
      exact track_run c s.1
  | file op =>
    cases op with
    | write => cases mild
    | stat | read | load =>
      refine ⟨empty, ?_, policies, ?_⟩
      · simp [recording, List.any_append, unwritten, writesSentinel]
      · simp only [recording, List.foldl_append, List.foldl_cons, List.foldl_nil, ← tracked]
        rfl
    | remove place =>
      refine ⟨?_, ?_, policies, ?_⟩
      · simp only [recording, works, Command.act, FileOp.act, empty]
        cases place <;> rfl
      · simp [recording, List.any_append, unwritten, writesSentinel]
      · simp only [recording, List.foldl_append, List.foldl_cons, List.foldl_nil, ← tracked]
        rfl

/-- Without a sentinel there is nothing to find. -/
theorem Early.looks (early : Early h₀ s) (places : List Place) :
    Early h₀ (recording works (.file (.load places)) s).2 ∧
      (recording works (.file (.load places)) s).1 = none := by
  refine ⟨early.step trivial, ?_⟩
  simp only [recording, works, Command.act, FileOp.act, early.empty, Files.load_empty]

theorem ensures_mild {α : Type} {x : Fw α} (only : x.Only Mild) (early : Early h₀ s) :
    x.Ensures (recording works) (Early h₀) (fun _ => Early h₀) s :=
  ensures_of_only only (fun _ _ mild early => early.step mild) early

theorem mild_of {class_ : OsCommand → Bool}
    (other : ∀ hook policy, class_ (.iptablesPolicy hook policy) = false) (c : Command)
    (member : Command.Of class_ c) : Mild c := by
  cases c with
  | file => cases member
  | os c =>
    rintro hook policy rfl
    rw [Command.Of, other hook policy] at member
    cases member

theorem nftPolicy_absent {h : Host} (absent : h.nft = none) (hook : Hook) :
    h.nftPolicy hook = none := by
  cases hook <;> simp [Host.nftPolicy, absent]

theorem ensures_engage (spec : Spec) (early : Early h₀ s) :
    (Manager.engage linuxBackend spec).Ensures (recording works) (Early h₀)
      (fun r s => r = .ok () ∧ Early h₀ s) s := by
  have mild : (Linux.enableNft spec).Only Mild := by
    refine only_runSteps fun c member => ?_
    have other : ∀ c ∈ Linux.nftSteps spec, ∀ hook policy, c ≠ .iptablesPolicy hook policy := by
      cases lan : spec.lanAllowed <;> simp [Linux.nftSteps, lan]
    exact other c member
  have nft := (ensures_mild mild early).and (Linux.ensures_enableNft spec s.1).recording
  have enable : (Linux.enable spec).Ensures (recording works) (Early h₀)
      (fun r s => r = .ok () ∧ Early h₀ s) s := by
    refine (nft.mono (fun _ h => h.1) fun _ _ _ h => h).seq ?_
    rintro _ s - ⟨early, rfl, -⟩
    exact ⟨early, rfl, early⟩
  refine enable.seq ?_
  rintro _ s - ⟨rfl, early⟩
  have table : Early h₀ (recording works (.os .nftAddTable) s).2 :=
    early.step fun _ _ same => by cases same
  have output := table.step (c := .os (.nftAddChain .output)) fun _ _ same => by cases same
  have input := output.step (c := .os (.nftAddChain .input)) fun _ _ same => by cases same
  have block : Linux.setBlock.Ensures (recording works) (Early h₀)
      (fun r s => r = .ok () ∧ Early h₀ s) s := ⟨early, table, output, input, rfl, input⟩
  refine block.seq ?_
  rintro _ s - ⟨rfl, early⟩
  exact ⟨early, rfl, early⟩

/-- What is known when `Enable` has returned. -/
def Settled (dir : StateDir) (h₀ : Host) (s : Host × List Command) : Prop :=
  Early h₀ s ∨ Late dir s ∧ Recorded .linux opened dir s.1

theorem Settled.tended (settled : Settled dir h₀ s) : Tended dir h₀ s :=
  settled.imp_right fun late => late.1

theorem ensures_writeSentinel (m : Manager) {record : Sentinel} (rules : record.rules ≠ [])
    (policy : record.policy = "accept") (early : Early h₀ s) :
    (m.writeSentinel record).Ensures (recording works) (Tended m.dir h₀)
      (fun _ => Settled m.dir h₀) s := by
  unfold Manager.writeSentinel
  by_cases home : m.dir = .homeless
  · have paths : m.sentinelPaths = [] := by rw [Manager.sentinelPaths, home]; rfl
    rw [paths]
    exact ⟨.inl early, .inl early⟩
  · obtain ⟨rest, paths⟩ := StateDir.paths_of_located home
    rw [Manager.sentinelPaths, paths]
    have sentinel : (recording works (.file (.write .primary record)) s).2.1.sentinel =
        ⟨some (.record record), none⟩ := by
      simp only [recording, works, Command.act, FileOp.act, early.empty]
      rfl
    have recorded : Recorded .linux opened m.dir
        (recording works (.file (.write .primary record)) s).2.1 := by
      refine ⟨restoring_linux, record, ?_, rules, policy⟩
      rw [sentinel, paths]
      rfl
    have late : Late m.dir (recording works (.file (.write .primary record)) s).2 :=
      ⟨by simp [recording, List.any_append, writesSentinel], by rw [sentinel], .inl recorded⟩
    exact ⟨.inl early, .inr late, .inr ⟨late, recorded⟩⟩

/-- `Enable` on a machine without a table and without a sentinel. -/
theorem ensures_enable (m : Manager) (mode : Mode) (endpointIP : String) (endpointPort : ℤ)
    (tunAddr : String) (early : Early h₀ s) (absent : s.1.nft = none) :
    (m.enableChecked linuxBackend mode endpointIP endpointPort tunAddr).Ensures (recording works)
      (Tended m.dir h₀) (fun r s => r.2.dir = m.dir ∧ Settled m.dir h₀ s) s := by
  have stale : (m.removeStale linuxBackend).Ensures (recording works) (Early h₀)
      (fun _ s' => Early h₀ s' ∧ s'.1 = s.1) s := by
    obtain ⟨looked, found⟩ := early.looks m.sentinelPaths
    refine Script.Ensures.step early ?_
    rw [found]
    exact ⟨looked, looked, rfl⟩
  refine (stale.mono (fun _ early => .inl early) fun _ _ _ h => h).seq ?_
  rintro _ s₁ - ⟨early, same⟩
  have bare := nftPolicy_absent (same ▸ absent : s₁.1.nft = none)
  have policy := (ensures_mild (Linux.only_currentPolicy.mono (mild_of fun _ _ => rfl)) early).and
    (Linux.ensures_currentPolicy (bare .output) (bare .input)).recording
  refine (policy.mono (fun _ h => .inl h.1) fun _ _ _ h => h).seq ?_
  rintro _ s₂ - ⟨early, rfl, -⟩
  refine ((ensures_engage _ early).mono (fun _ early => .inl early) fun _ _ _ h => h).seq ?_
  rintro _ s₃ - ⟨rfl, early⟩
  refine (ensures_writeSentinel m (Platform.ruleNames_ne_nil .linux _) rfl early).seq ?_
  exact fun _ s _ settled => ⟨settled.tended, rfl, settled⟩

theorem ensures_disable (m : Manager) (settled : Settled m.dir h₀ s) :
    (m.disable linuxBackend).Ensures (recording works) (Tended m.dir h₀)
      (fun _ => Tended m.dir h₀) s := by
  rcases settled with early | ⟨⟨written, kept⟩, recorded⟩
  · obtain ⟨looked, found⟩ := early.looks m.sentinelPaths
    have rest : (do
        m.disableRules linuxBackend ⟨[], "", "", .off⟩
        Manager.disablePolicy linuxBackend ⟨[], "", "", .off⟩
        Manager.removeFiles m.sentinelPaths
        pure (.ok (), { m with active := false, mode := .off }) :
        Fw (Except String Unit × Manager)).Only Mild := by
      have rules : (m.disableRules linuxBackend ⟨[], "", "", .off⟩).Only Mild := by
        rw [Manager.disableRules, if_neg (not_not.mpr rfl)]
        split
        · exact Script.Only.bind ((Linux.only_remove _).mono (mild_of fun _ _ => rfl)) fun _ =>
            trivial
        · trivial
      exact Script.Only.bind rules fun _ => Script.Only.bind trivial fun _ =>
        Script.Only.bind (only_removeFiles fun _ => trivial) fun _ => trivial
    refine Script.Ensures.step (.inl early) ?_
    rw [found]
    exact (ensures_mild rest looked).mono (fun _ early => .inl early) fun _ _ _ early => .inl early
  · have lifts := (Firewall.ensures_disable kept fun _ => recorded).recording (s := s)
    have still : ∀ (c : Command) (s : Host × List Command), True → s.2.any writesSentinel = true →
        (recording works c s).2.2.any writesSentinel = true := by
      intro c s _ written
      simp [recording, List.any_append, written]
    exact ((ensures_of_only (only_true _) still written).and lifts).mono
      (fun _ h => .inr ⟨h.1, h.2⟩) fun _ _ _ h => .inr ⟨h.1, h.2.2.1⟩

end host

/-! The whole machine. -/

/-- The machine and the commands so far. -/
abbrev Point := (Host × Dns.Resolver × Routing.Table) × List
    (Command ⊕ Dns.Command ⊕ Routing.Command)

def killSide (s : Point) : Host × List Command := (s.1.1, kills s.2)

/-- The kill switch is as said, and IPv6 is blocked if it was or has been. -/
structure Tidy (t₀ : Routing.Table) (side : Host × List Command → Prop) (s : Point) : Prop where
  kill : side (killSide s)
  ipv6 : s.1.2.2.blackhole = (t₀.blackhole || s.2.any blocksIPv6)

section whole
variable {α : Type} {h₀ : Host} {t₀ : Routing.Table} {dir : StateDir} {s : Point}
  {side : Host × List Command → Prop}

theorem ensures_left {x : Fw α} {post : α → Host × List Command → Prop}
    (h : x.Ensures (recording works) side post (killSide s))
    (ipv6 : s.1.2.2.blackhole = (t₀.blackhole || s.2.any blocksIPv6)) :
    (x.left : Enforcer.Code (linuxNet dir) α).Ensures (recording calm) (Tidy t₀ side)
      (fun a => Tidy t₀ (post a)) s := by
  have part : ∀ (c : Command) (s : Point),
      (recording calm (.inl c) s).1 = (recording works c (killSide s)).1 ∧
        killSide (recording calm (.inl c) s).2 = (recording works c (killSide s)).2 := by
    intro c s
    refine ⟨rfl, ?_⟩
    simp only [killSide, recording, kills, List.filterMap_append]
    rfl
  have keeps : ∀ (c : Command ⊕ Dns.Command ⊕ Routing.Command) (s : Point),
      (∃ c', c = .inl c' ∧ True) → s.1.2.2.blackhole = (t₀.blackhole || s.2.any blocksIPv6) →
      (recording calm c s).2.1.2.2.blackhole =
        (t₀.blackhole || (recording calm c s).2.2.any blocksIPv6) := by
    rintro _ s ⟨c, rfl, -⟩ ipv6
    have same : (recording calm (.inl c) s).2.1.2.2 = s.1.2.2 := rfl
    rw [same, ipv6]
    simp [recording, List.any_append, blocksIPv6]
  exact ((Script.Ensures.left killSide part h).and
    (ensures_of_only (only_true x).left keeps ipv6)).mono
    (fun _ h => ⟨h.1, h.2⟩) fun _ _ _ h => ⟨h.1, h.2⟩

/-- The net side leaves the kill switch alone and, without `restoreIPv6`, keeps IPv6 as said. -/
theorem ensures_net {x : Script (linuxNet dir).Reply α}
    (only : x.Only (· ≠ .inr (.os .restoreIPv6))) (tidy : Tidy t₀ side s) :
    (x.right : Enforcer.Code (linuxNet dir) α).Ensures (recording calm) (Tidy t₀ side)
      (fun _ => Tidy t₀ side) s := by
  refine ensures_of_only only.right ?_ tidy
  rintro _ s ⟨c, rfl, other⟩ ⟨kill, ipv6⟩
  have same : killSide (recording calm (.inr c) s).2 = killSide s := by
    simp only [killSide, recording, kills, List.filterMap_append]
    exact congrArg (Prod.mk s.1.1) (List.append_nil _)
  refine ⟨same ▸ kill, ?_⟩
  have logged : (recording calm (.inr c) s).2.2.any blocksIPv6 =
      (s.2.any blocksIPv6 || blocksIPv6 (.inr c)) := by simp [recording, List.any_append]
  rw [logged, ← Bool.or_assoc, ← ipv6]
  rcases c with c | c
  · exact (Bool.or_false _).symm
  · cases c with
    | file op => exact (Bool.or_false _).symm
    | os c =>
      cases c with
      | add | delete => exact (Bool.or_false _).symm
      | restoreIPv6 => exact absurd rfl other
      | blockIPv6 =>
        have blocked : (Routing.OsCommand.blockIPv6.run s.1.2.2).2.blackhole = true := by
          simp only [Routing.OsCommand.run]
          split
          · assumption
          · rfl
        exact blocked.trans (Bool.or_true _).symm

variable {e : Enforcer (linuxNet dir)} {p : Plan}

theorem ensures_applyKill (start : Tidy t₀ (Early h₀) s) (absent : s.1.1.nft = none) :
    (e.applyKill linuxBackend p).Ensures (recording calm) (Tidy t₀ (Tended e.kill.dir h₀))
      (fun r s => Tidy t₀ (Settled e.kill.dir h₀) s ∧ r.2.kill.dir = e.kill.dir ∧
        ∀ undo, r.1 = .ok undo → undo = [] ∨ undo = [.kill]) s := by
  have settled : Tidy t₀ (Settled e.kill.dir h₀) s := ⟨.inl start.kill, start.ipv6⟩
  have tended : Tidy t₀ (Tended e.kill.dir h₀) s := ⟨.inl start.kill, start.ipv6⟩
  unfold Enforcer.applyKill
  split
  · exact ⟨tended, settled, rfl, fun undo same => .inl (Except.ok.inj same).symm⟩
  · exact ⟨tended, settled, rfl, fun undo same => .inl (Except.ok.inj same).symm⟩
  · next mode on _ =>
    have enabled : (e.kill.enable linuxBackend mode p.endpointIP p.endpointPort p.tunAddr).Ensures
        (recording works) (Tended e.kill.dir h₀)
        (fun r s => r.2.dir = e.kill.dir ∧ Settled e.kill.dir h₀ s) (killSide s) := by
      rw [Manager.enable, if_neg on]
      split
      · exact ⟨.inl start.kill, rfl, .inl start.kill⟩
      · exact ensures_enable _ _ _ _ _ start.kill absent
    refine (ensures_left enabled start.ipv6).seq ?_
    rintro ⟨res, kill⟩ s' tended ⟨⟨same, settled⟩, ipv6⟩
    refine ⟨tended, ⟨settled, ipv6⟩, same, fun undo done => ?_⟩
    cases res with
    | error err => cases done
    | ok => exact .inr (Except.ok.inj done).symm

theorem only_resolver (x : Script Dns.Command.Reply α) :
    (x.left : Script (Sum.elim _ Routing.Command.Reply) α).Only (· ≠ .inr (.os .restoreIPv6)) := by
  refine (only_true x).left.mono ?_
  rintro _ ⟨c, rfl, -⟩
  exact nofun

theorem ensures_applyDns (tidy : Tidy t₀ side s) :
    (e.applyDns p).Ensures (recording calm) (Tidy t₀ side)
      (fun r s => Tidy t₀ side s ∧ r.2.kill = e.kill) s :=
  (ensures_net (only_resolver _) tidy).seq fun _ _ tidy _ => ⟨tidy, tidy, rfl⟩

theorem ensures_restoreDns (tidy : Tidy t₀ side s) :
    e.restoreDns.Ensures (recording calm) (Tidy t₀ side)
      (fun r s => Tidy t₀ side s ∧ r.2.kill = e.kill) s := by
  unfold Enforcer.restoreDns
  split
  · exact ⟨tidy, tidy, rfl⟩
  · exact (ensures_net (only_resolver _) tidy).seq fun _ s tidy _ => ⟨tidy, tidy, rfl⟩

theorem ensures_applyIPv6 (tidy : Tidy t₀ side s) :
    (e.applyIPv6 p).Ensures (recording calm) (Tidy t₀ side)
      (fun r s => Tidy t₀ side s ∧ r.2.kill = e.kill) s := by
  unfold Enforcer.applyIPv6
  split
  · exact ⟨tidy, tidy, rfl⟩
  · have only : ((linuxNet dir).blockIPv6 e.route).Only (· ≠ .inr (.os .restoreIPv6)) := by
      have block : e.route.blockIPv6.Only (· = .os .blockIPv6) := by
        refine Script.Only.bind ⟨rfl, fun _ => trivial⟩ fun res => ?_
        cases res <;> trivial
      refine block.right.mono ?_
      rintro _ ⟨_, rfl, rfl⟩
      exact nofun
    refine (ensures_net only tidy).seq fun r s tidy _ => ?_
    obtain ⟨res, route⟩ := r
    cases res <;> exact ⟨tidy, tidy, rfl⟩

/-- What there is to undo after a failure: the kill switch at most once, and not IPv6. -/
def Undoes (undos : List Undo) : Prop :=
  ∃ undo, (undo = [] ∨ undo = [.kill]) ∧ (undos = undo ∨ undos = undo ++ [.dns])

theorem Tidy.tended (settled : Tidy t₀ (Settled dir h₀) s) : Tidy t₀ (Tended dir h₀) s :=
  ⟨settled.kill.tended, settled.ipv6⟩

theorem ensures_attempt (start : Tidy t₀ (Early h₀) s) (absent : s.1.1.nft = none) :
    (e.attempt linuxBackend p).Ensures (recording calm) (Tidy t₀ (Tended e.kill.dir h₀))
      (fun r s => Tidy t₀ (Settled e.kill.dir h₀) s ∧ r.2.2.kill.dir = e.kill.dir ∧
        (r.1.isOk = false → Undoes r.2.1)) s := by
  refine (ensures_applyKill start absent).seq ?_
  rintro ⟨kill, e₁⟩ s₁ now ⟨settled, same, known⟩
  cases kill with
  | error err => exact ⟨now, settled, same, fun _ => ⟨[], .inl rfl, .inl rfl⟩⟩
  | ok undo =>
    refine ((ensures_applyDns settled).mono (fun _ => Tidy.tended) fun _ _ _ h => h).seq ?_
    rintro ⟨dns, e₂⟩ s₂ now ⟨settled, kept⟩
    have same : e₂.kill.dir = e.kill.dir := (congrArg Manager.dir kept).trans same
    cases dns with
    | error err => exact ⟨now, settled, same, fun _ => ⟨undo, known undo rfl, .inl rfl⟩⟩
    | ok =>
      refine ((ensures_applyIPv6 settled).mono (fun _ => Tidy.tended) fun _ _ _ h => h).seq ?_
      rintro ⟨ipv6, e₃⟩ s₃ now ⟨settled, kept⟩
      have same : e₃.kill.dir = e.kill.dir := (congrArg Manager.dir kept).trans same
      cases ipv6 with
      | error err => exact ⟨now, settled, same, fun _ => ⟨undo, known undo rfl, .inr rfl⟩⟩
      | ok => exact ⟨now, settled, same, nofun⟩

theorem ensures_undoKill (settled : Tidy t₀ (Settled e.kill.dir h₀) s) :
    (e.undo linuxBackend .kill).Ensures (recording calm) (Tidy t₀ (Tended e.kill.dir h₀))
      (fun _ => Tidy t₀ (Tended e.kill.dir h₀)) s := by
  have lifted : (e.disableKill linuxBackend).Ensures (recording calm)
      (Tidy t₀ (Tended e.kill.dir h₀)) (fun _ => Tidy t₀ (Tended e.kill.dir h₀)) s :=
    (ensures_left (ensures_disable e.kill settled.kill) settled.ipv6).seq fun _ s now _ =>
      ⟨now, now⟩
  exact lifted.seq fun _ s now _ => ⟨now, now⟩

theorem ensures_rollback {undos : List Undo} (undoes : Undoes undos)
    (settled : Tidy t₀ (Settled e.kill.dir h₀) s) :
    (Enforcer.rollback linuxBackend e undos).Ensures (recording calm)
      (Tidy t₀ (Tended e.kill.dir h₀)) (fun _ => Tidy t₀ (Tended e.kill.dir h₀)) s := by
  have dns : (Enforcer.rollback linuxBackend e [.dns]).Ensures (recording calm)
      (Tidy t₀ (Tended e.kill.dir h₀))
      (fun e' s => Tidy t₀ (Settled e.kill.dir h₀) s ∧ e'.kill = e.kill) s :=
    ((ensures_restoreDns settled).mono (fun _ => Tidy.tended) fun _ _ _ h => h).seq
      fun _ s now kept => ⟨now, kept⟩
  obtain ⟨undo, rfl | rfl, rfl | rfl⟩ := undoes
  · exact ⟨settled.tended, settled.tended⟩
  · exact dns.mono (fun _ h => h) fun _ s _ h => h.1.tended
  · exact ensures_undoKill settled
  · refine dns.seq ?_
    rintro e' s - ⟨settled, same⟩
    rw [← same] at settled ⊢
    exact ensures_undoKill settled

/-- At every moment of `Apply` the kill switch can be told from the sentinel and the commands. -/
theorem ensures_apply (fresh : e.applied = false) (start : Tidy t₀ (Early h₀) s)
    (absent : s.1.1.nft = none) :
    (e.apply linuxBackend p).Ensures (recording calm) (Tidy t₀ (Tended e.kill.dir h₀))
      (fun _ => Tidy t₀ (Tended e.kill.dir h₀)) s := by
  have skipped : e.clearApplied linuxBackend = pure e := by
    rw [Enforcer.clearApplied, fresh]
    rfl
  rw [Enforcer.apply, skipped]
  refine (ensures_attempt start absent).seq ?_
  rintro ⟨res, undos, e'⟩ s now ⟨settled, same, undoes⟩
  cases res with
  | ok => exact ⟨now, now⟩
  | error err =>
    have same : e'.kill.dir = e.kill.dir := same
    rw [← same] at settled ⊢
    exact (ensures_rollback (undoes rfl) settled).seq fun _ s now _ => ⟨now, now⟩

end whole

/-! The resolvers and the restart. -/

/-- `resolv.conf` is as last written. -/
def Logged (r₀ : Dns.Resolver) (s : Point) : Prop :=
  s.1.2.1.conf = (s.2.filterMap confText).getLast?.or r₀.conf

theorem Logged.step {r₀ : Dns.Resolver} {s : Point} (logged : Logged r₀ s)
    (c : Command ⊕ Dns.Command ⊕ Routing.Command) : Logged r₀ (recording calm c s).2 := by
  have quiet : confText c = none → (recording calm c s).2.1.2.1.conf = s.1.2.1.conf →
      Logged r₀ (recording calm c s).2 := by
    intro silent same
    rw [Logged, same, show s.1.2.1.conf = _ from logged]
    simp [recording, List.filterMap_append, silent]
  rcases c with c | c | c
  · exact quiet rfl rfl
  · cases c with
    | writeConf text =>
      have written : (recording calm (.inr (.inl (.writeConf text))) s).2.1.2.1.conf = some text :=
        rfl
      rw [Logged, written]
      simp [recording, List.filterMap_append, confText]
    | resolvectl | readConf | makeDir | file => exact quiet rfl rfl
  · exact quiet rfl rfl

/-- Not about IPv6. -/
def Elsewhere (c : Routing.Command) : Prop := c ≠ .os .blockIPv6 ∧ c ≠ .os .restoreIPv6

theorem blackhole_new (dir : StateDir) (t : Routing.Table) :
    ((Routing.Manager.new dir).exec (Routing.Command.act .works) t).2.blackhole = t.blackhole := by
  have deletes : ∀ routes : List Routing.Route, (Routing.deleteAll routes).Only Elsewhere := by
    intro routes
    induction routes with
    | nil => trivial
    | cons r rest ih => exact Script.Only.bind ⟨⟨nofun, nofun⟩, fun _ => trivial⟩ fun _ =>
        Script.Only.bind ih fun _ => trivial
  have removes : ∀ places : List Place, (Routing.removeFiles places).Only Elsewhere := by
    intro places
    induction places with
    | nil => trivial
    | cons place rest ih => exact Script.Only.bind ⟨⟨nofun, nofun⟩, fun _ => trivial⟩ fun _ => ih
  have only : (Routing.Manager.new dir).Only Elsewhere := by
    refine Script.Only.bind (Script.Only.bind ⟨⟨nofun, nofun⟩, fun _ => trivial⟩ fun found => ?_)
      fun _ => trivial
    split
    · trivial
    · trivial
    · exact Script.Only.bind (deletes _) fun _ => removes _
  have keeps : ∀ (c : Routing.Command) (t' : Routing.Table), Elsewhere c →
      t'.blackhole = t.blackhole → (Routing.Command.act .works c t').2.blackhole = t.blackhole := by
    rintro c t' ⟨noBlock, noRestore⟩ same
    cases c with
    | file => exact same
    | os c =>
      cases c with
      | add | delete => exact same
      | blockIPv6 => exact absurd rfl noBlock
      | restoreIPv6 => exact absurd rfl noRestore
  exact (ensures_of_only only keeps rfl).exec

theorem exec_restart (dir : StateDir) (h : Host) (r : Dns.Resolver) (t : Routing.Table) :
    ((restart dir).exec calm (h, r, t)).2 =
      ((((Manager.new dir false).disable linuxBackend).exec works h).2, r,
        ((Routing.Manager.new dir).exec (Routing.Command.act .works) t).2) := by
  simp [restart, Enforcer.new, Enforcer.clear, Enforcer.clearIPv6, Enforcer.restoreDns,
    Enforcer.disableKill, exec_bind, exec_pure, exec_left, exec_right, calm]

section main
variable {dir : StateDir} {e : Enforcer (linuxNet dir)} {p : Plan}
  {s : Host × Dns.Resolver × Routing.Table}

/-- Nothing is applied: neither a table of the kill switch nor its sentinel is there. -/
structure Fresh (e : Enforcer (linuxNet dir)) (s : Host × Dns.Resolver × Routing.Table) : Prop where
  unapplied : e.applied = false
  located : e.kill.dir = dir
  absent : s.1.nft = none
  unrecorded : s.1.sentinel = Files.empty

/-- The nameservers, the default policies and IPv6 are as they were. -/
def Restored (before after : Host × Dns.Resolver × Routing.Table) : Prop :=
  after.2.1.effective = before.2.1.effective ∧
    after.1.defaults .linux = before.1.defaults .linux ∧
    after.2.2.blackhole = before.2.2.blackhole

/-- What `Apply` may have done when the process dies: written only the nameservers that were
there, blocked IPv6 only if it was, and either recorded the kill switch, with iptables accepting
before, or left no chain of it. -/
def Survives (before : Host × Dns.Resolver × Routing.Table)
    (cs : List (Command ⊕ Dns.Command ⊕ Routing.Command)) : Prop :=
  (∀ text, (cs.filterMap confText).getLast? = some text →
      Dns.parseResolvConf text = before.2.1.effective) ∧
    (if (kills cs).any writesSentinel then
        before.1.iptables.output.policy = .accept ∧ before.1.iptables.input.policy = .accept
      else chained (kills cs) = false) ∧
    (cs.any blocksIPv6 = true → before.2.2.blackhole = true)

theorem defaults_disabled {h₀ h : Host} {cs : List Command} (absent : h₀.nft = none)
    (tended : Tended dir h₀ (h, cs)) :
    (((Manager.new dir false).disable linuxBackend).exec works h).2.defaults .linux =
        h₀.defaults .linux ↔
      if cs.any writesSentinel then
        h₀.iptables.output.policy = .accept ∧ h₀.iptables.input.policy = .accept
      else chained cs = false := by
  have before : h₀.defaults .linux =
      .linux none none h₀.iptables.output.policy h₀.iptables.input.policy := by
    simp only [Host.defaults, nftPolicy_absent absent]
  rcases tended with early | late
  · have unrecorded : Unrecorded dir (fun hook => (h₀.iptables.chain hook).policy) h :=
      ⟨by rw [show h.sentinel = _ from early.empty]; rfl,
        by rw [show h.sentinel = _ from early.empty, Files.load_empty], early.policies⟩
    have run := (ensures_disable_unrecorded (m := Manager.new dir false) unrecorded).exec
    have tracked : hasChain h = chained cs := congrArg Prod.snd early.tracked
    rw [before, early.unwritten, if_neg Bool.false_ne_true, ← tracked]
    generalize ((Manager.new dir false).disable linuxBackend).exec works h = out at run ⊢
    obtain ⟨-, unrecorded, nft⟩ := run
    have nft : out.2.nft = h.nft := nft
    have output : out.2.iptables.output.policy = h₀.iptables.output.policy :=
      unrecorded.policies .output
    have input : out.2.iptables.input.policy = h₀.iptables.input.policy :=
      unrecorded.policies .input
    simp [Host.defaults, Host.nftPolicy, hasChain, nft, output, input]
  · have run := (Firewall.ensures_disable (m := Manager.new dir false) late.kept
        fun active => by cases active).exec
    have same : (((Manager.new dir false).disable linuxBackend).exec works h).2.defaults .linux =
        opened := run.2.2
    rw [same, before, if_pos late.written]
    simp [eq_comm]

/-- A restart leaves the machine as it was before the crashed `Apply` exactly when the commands up
to the crash allow it. -/
theorem restart_restores_iff (fresh : Fresh e s) (k : ℕ) :
    Restored s ((restart dir).exec calm
        ((e.apply linuxBackend p).after (recording calm) k (s, [])).1).2 ↔
      Survives s ((e.apply linuxBackend p).after (recording calm) k (s, [])).2 := by
  obtain ⟨h₀, r₀, t₀⟩ := s
  have start : Tidy t₀ (Early h₀) ((h₀, r₀, t₀), []) := by
    refine ⟨⟨fresh.unrecorded, rfl, fun _ => rfl, ?_⟩, by simp⟩
    have absent : h₀.nft = none := fresh.absent
    simp [killSide, hasChain, Host.nftPolicy, absent]
  have tidy := (ensures_apply (p := p) fresh.unapplied start fresh.absent).after k
  have logged := (ensures_of_only (only_true (e.apply linuxBackend p))
    (fun c s _ (logged : Logged r₀ s) => logged.step c) (s := ((h₀, r₀, t₀), [])) rfl).after k
  generalize (e.apply linuxBackend p).after (recording calm) k ((h₀, r₀, t₀), []) =
    crash at tidy logged ⊢
  obtain ⟨⟨h, r, t⟩, cs⟩ := crash
  obtain ⟨kill, ipv6⟩ := tidy
  rw [fresh.located] at kill
  rw [exec_restart, Restored, Survives]
  refine and_congr ?_ (and_congr (defaults_disabled fresh.absent kill) ?_)
  · have conf : r.conf = (cs.filterMap confText).getLast?.or r₀.conf := logged
    rw [Dns.Resolver.effective, conf]
    cases (cs.filterMap confText).getLast? with
    | none => exact iff_of_true rfl fun _ last => by cases last
    | some text =>
      exact ⟨fun same text' last => Option.some.inj last ▸ same, fun all => all text rfl⟩
  · have ipv6 : t.blackhole = (t₀.blackhole || cs.any blocksIPv6) := ipv6
    rw [blackhole_new, ipv6]
    cases t₀.blackhole <;> cases cs.any blocksIPv6 <;> simp

end main

/-! A service that has just started. -/

def started (dir : StateDir) : Enforcer (linuxNet dir) := Enforcer.new dir ⟨dir, [], false⟩

theorem fresh_started : Fresh (started .single) bareMachine := ⟨rfl, rfl, rfl, rfl⟩

/-- The machine and the commands when the process dies after `k` of them. -/
def crashAt (k : ℕ) : Point :=
  ((started .single).apply linuxBackend somePlan).after (recording calm) k (bareMachine, [])

/-- The process dies when the sentinel has just been written. -/
theorem restored_after_sentinel :
    (kills (crashAt 14).2).any writesSentinel = true ∧
      Restored bareMachine ((restart .single).exec calm (crashAt 14).1).2 := by
  have written : (kills (crashAt 14).2).any writesSentinel = true := by decide +kernel
  have unset : ((crashAt 14).2.filterMap confText).getLast? = none := by decide +kernel
  have unblocked : (crashAt 14).2.any blocksIPv6 = false := by decide +kernel
  have survives : Survives bareMachine (crashAt 14).2 := by
    refine ⟨fun text last => ?_, ?_, fun blocked => ?_⟩
    · rw [unset] at last
      cases last
    · rw [if_pos written]
      exact ⟨rfl, rfl⟩
    · rw [unblocked] at blocked
      cases blocked
  exact ⟨written, (restart_restores_iff fresh_started 14).mpr survives⟩

/-- The resolvers and IPv6 stay as `Apply` set them, and a chain stays if the process dies before
the sentinel is written. -/
theorem not_restored :
    Fresh (started .single) bareMachine ∧ bareMachine.2.1.effective = ["192.168.1.1"] ∧
      ((restart .single).exec calm (crashAt 30).1).2.2.1.effective = ["10.89.0.1"] ∧
      ((restart .single).exec calm (crashAt 30).1).2.2.2.blackhole = true ∧
      ((restart .single).exec calm (crashAt 4).1).2.1.nftPolicy .output = some .drop :=
  ⟨fresh_started, by decide +kernel, by decide +kernel, by decide +kernel, by decide +kernel⟩

end VeilNet.Guarantees.CrashRestart
