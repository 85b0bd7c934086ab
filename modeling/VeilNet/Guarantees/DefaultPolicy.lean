import VeilNet.Source.Firewall.Recovery
import VeilNet.Lib.Run

/-!
# The firewall default is given back

The policies from before the kill switch survive in the sentinel, which `Enable` writes last and
`Disable` reads. They are lost when the process dies between the block and the sentinel, and when
they are not what a recorded policy says; on Windows also when `Enable` runs over a switch that is
on, and reads its own block as the policy to restore. A run in which every `Enable` starts from
the original policies, and none is cut off in between, gives them back at every `Disable`, however
often the process dies.
-/
namespace VeilNet.Guarantees.DefaultPolicy
open Lib Source Source.Firewall
open Script (Fated ensures_of_only)

/-- A call that returns, or one during which the process dies after `k` commands and a new
manager takes over. -/
inductive Op where
  | returns (call : Call)
  | dies (call : Call) (k : ℕ) (lanAllowed : Bool)

/-- The machine when the process dies: every command so far worked. -/
def atDeath (p : Platform) (s : State) (call : Call) (k : ℕ) : World :=
  (call.script p.backend s.manager).after World.act k (Fated.start s.host [])

def step (p : Platform) (s : State) : Op → State
  | .returns call =>
    let out := (call.script p.backend s.manager).exec World.act (Fated.start s.host [])
    ⟨out.2.state, out.1.2⟩
  | .dies call k lanAllowed =>
    ⟨(atDeath p s call k).state, Manager.new s.manager.dir lanAllowed⟩

/-- Some command has set a default policy. -/
def blocked (w : World) : Bool :=
  w.trail.any fun entry => match entry.1 with
    | .os c => c.setsDefault
    | .file _ => false

def written (w : World) : Bool :=
  w.trail.any fun entry => match entry.1 with
    | .file (.write _ _) => true
    | .file _ | .os _ => false

/-- The policies that a recorded policy can say. -/
def Restorable : Defaults → Bool
  | .linux nftOutput nftInput output input =>
    nftOutput = none && nftInput = none && output = .accept && input = .accept
  | .windows profiles =>
    profiles.domainProfile.inbound = .block && profiles.privateProfile = profiles.domainProfile &&
      profiles.publicProfile = profiles.domainProfile

/-- `Enable` starts with the original policies, which can be recorded, and when the process
dies during it, then not between the first block and the sentinel. -/
def Recoverable (p : Platform) (orig : Defaults) (s : State) : Op → Prop
  | .returns call => call.engages = true → s.host.defaults p = orig ∧ Restorable orig = true
  | .dies call k _ => call.engages = true → (s.host.defaults p = orig ∧ Restorable orig = true) ∧
      (blocked (atDeath p s call k) = true → written (atDeath p s call k) = true)

instance (p : Platform) (orig : Defaults) (s : State) (op : Op) :
    Decidable (Recoverable p orig s op) := by
  cases op <;> unfold Recoverable <;> infer_instance

def Op.disables : Op → Bool
  | .returns call => call.disables
  | .dies .. => false

theorem restoring_of_restorable {p : Platform} {h : Host} (restorable : Restorable (h.defaults p)) :
    Restoring p (h.defaults p) := by
  cases p with
  | linux =>
    simp only [Host.defaults, Restorable, Bool.and_eq_true, decide_eq_true_eq] at restorable
    obtain ⟨⟨⟨nftOutput, nftInput⟩, output⟩, input⟩ := restorable
    simp only [Host.defaults, nftOutput, nftInput, output, input]
    exact restoring_linux
  | windows =>
    rw [Host.defaults] at restorable ⊢
    generalize h.profiles = profiles at restorable ⊢
    obtain ⟨⟨inbound, outbound⟩, privateProfile, publicProfile⟩ := profiles
    simp only [Restorable, Bool.and_eq_true, decide_eq_true_eq] at restorable
    obtain ⟨⟨rfl, rfl⟩, rfl⟩ := restorable
    exact restoring_windows outbound

section enable
variable {p : Platform} {orig : Defaults} {dir : StateDir} {w : World}

/-- `Enable` before its first block: the original policies are in force. -/
structure Early (p : Platform) (orig : Defaults) (dir : StateDir) (w : World) : Prop where
  calm : w.fates = []
  kept : Kept p orig dir w.state
  same : w.state.defaults p = orig
  unwritten : written w = false

/-- `Enable` between its first block and the sentinel. -/
structure Middle (w : World) : Prop where
  calm : w.fates = []
  legacy : w.state.sentinel.legacy = none
  blocked : blocked w = true
  unwritten : written w = false

def Moment (p : Platform) (orig : Defaults) (dir : StateDir) (w : World) : Prop :=
  (Early p orig dir w ∨ Middle w) ∨ w.state.sentinel.legacy = none ∧ Recorded p orig dir w.state

theorem Early.os (early : Early p orig dir w) {c : OsCommand}
    (same : (c.run w.state).2.defaults p = orig) : Early p orig dir (World.act (.os c) w).2 := by
  rw [World.act_calm early.calm]
  refine ⟨rfl, early.kept.congr (sentinel_run c w.state) fun _ => same, same, ?_⟩
  simpa [written] using early.unwritten

theorem Early.file (early : Early p orig dir w) {op : FileOp Sentinel}
    (quiet : (∃ paths, op = .load paths) ∨ ∃ place, op = .remove place) :
    Early p orig dir (World.act (.file op) w).2 := by
  rw [World.act_calm early.calm]
  rcases quiet with ⟨paths, rfl⟩ | ⟨place, rfl⟩
  · exact ⟨rfl, early.kept, early.same, by simpa [written] using early.unwritten⟩
  · exact ⟨rfl, early.kept.removeFile early.same place, early.same,
      by simpa [written] using early.unwritten⟩

theorem Middle.os (middle : Middle w) (c : OsCommand) : Middle (World.act (.os c) w).2 := by
  rw [World.act_calm middle.calm]
  refine ⟨rfl, ?_, ?_, ?_⟩
  · rw [show (works (.os c) w.state).2.sentinel = w.state.sentinel from sentinel_run c w.state]
    exact middle.legacy
  · simp only [DefaultPolicy.blocked, List.any_append, Bool.or_eq_true]
    exact .inl middle.blocked
  · simpa [written] using middle.unwritten

theorem earlyOrMiddle_os (restoring : Restoring p orig) (c : OsCommand)
    (h : Early p orig dir w ∨ Middle w) :
    Early p orig dir (World.act (.os c) w).2 ∨ Middle (World.act (.os c) w).2 := by
  rcases h with early | middle
  · cases removes : c.removes with
    | true => exact .inl (early.os (restoring.removes c w.state removes early.same))
    | false =>
      cases sets : c.setsDefault with
      | false => exact .inl (early.os ((defaults_run sets removes p).trans early.same))
      | true =>
        refine .inr ?_
        rw [World.act_calm early.calm]
        refine ⟨rfl, ?_, by simp [blocked, sets], by simpa [written] using early.unwritten⟩
        rw [show (works (.os c) w.state).2.sentinel = w.state.sentinel from sentinel_run c w.state]
        exact early.kept.legacy
  · exact .inr (middle.os c)

theorem ensures_removeStale (m : Manager) (restoring : Restoring p orig)
    (early : Early p orig dir w) :
    (m.removeStale p.backend).Ensures World.act (Moment p orig dir)
      (fun _ w => Early p orig dir w) w := by
  let quiet : Command → Prop
    | .os c => c.removes = true
    | .file op => (∃ paths, op = .load paths) ∨ ∃ place, op = .remove place
  have only : (m.removeStale p.backend).Only quiet := by
    refine Script.Only.bind ?_ fun s => ?_
    · exact ⟨.inl ⟨_, rfl⟩, fun _ => trivial⟩
    · split
      · trivial
      · exact Script.Only.bind (only_class (p.only_remove s.rules) fun _ h => h) fun _ =>
          only_removeFiles fun place => .inr ⟨place, rfl⟩
  have keeps : ∀ c w, quiet c → Early p orig dir w → Early p orig dir (World.act c w).2 := by
    intro c w h early
    cases c with
    | os c => exact early.os (restoring.removes c w.state h early.same)
    | file op => exact early.file h
  exact (ensures_of_only only keeps early).mono (fun _ h => .inl (.inl h)) fun _ _ _ h => h

theorem ensures_currentPolicy (restoring : Restoring p orig) (early : Early p orig dir w) :
    p.backend.currentPolicy.Ensures World.act (Moment p orig dir)
      (fun r w => r = .ok (recordOf orig) ∧ Early p orig dir w) w := by
  have result := (restoring.policy w.state early.same).fated
    (fun fate member => by rw [early.calm] at member; cases member)
  have keeps : ∀ (c : OsCommand) w, c.looks = true → Early p orig dir w →
      Early p orig dir (World.act (.os c) w).2 :=
    fun c w looks early => early.os (by rw [run_of_looks looks]; exact early.same)
  exact (result.and (ensures_of_class _ _ p.only_currentPolicy keeps early)).mono
    (fun _ h => .inl (.inl h.2)) fun _ _ _ h => h

theorem ensures_engage (spec : Spec) (restoring : Restoring p orig) (early : Early p orig dir w) :
    (Manager.engage p.backend spec).Ensures World.act (Moment p orig dir)
      (fun r w => r = .ok () ∧ (Early p orig dir w ∨ Middle w)) w := by
  have engaged := (p.ensures_engage spec w.state).mono (fun _ h => h) fun _ _ _ h => h.1
  have result := engaged.fated (fun fate member => by rw [early.calm] at member; cases member)
  have still := ensures_of_class World.act (fun w => Early p orig dir w ∨ Middle w)
      (p.only_engage spec) (fun c _ _ now => earlyOrMiddle_os restoring c now) (.inl early)
  exact (result.and still).mono
    (fun _ h => .inl h.2) fun _ _ _ h => h

theorem ensures_writeSentinel (m : Manager) (located : m.dir ≠ .homeless)
    (restoring : Restoring p orig) {s : Sentinel} (rules : s.rules ≠ [])
    (policy : s.policy = recordOf orig) (now : Early p orig m.dir w ∨ Middle w) :
    (m.writeSentinel s).Ensures World.act (Moment p orig m.dir)
      (fun _ w => w.state.sentinel.legacy = none ∧ Recorded p orig m.dir w.state) w := by
  have calm : w.fates = [] := now.elim Early.calm Middle.calm
  have legacy : w.state.sentinel.legacy = none := now.elim (·.kept.legacy) Middle.legacy
  have after : (World.act (.file (.write .primary s)) w).2.state.sentinel =
      ⟨some (.record s), w.state.sentinel.legacy⟩ := by
    rw [World.act_calm calm]
    rfl
  have written : (World.act (.file (.write .primary s)) w).2.state.sentinel.legacy = none ∧
      Recorded p orig m.dir (World.act (.file (.write .primary s)) w).2.state := by
    unfold Recorded
    rw [after]
    refine ⟨legacy, restoring, s, ?_, rules, policy⟩
    cases dir : m.dir with
    | homeless => exact absurd dir located
    | single | migrating => rfl
  have script : m.writeSentinel s = file (.write .primary s) := by
    cases dir : m.dir with
    | homeless => exact absurd dir located
    | single | migrating =>
      simp only [Manager.writeSentinel, Manager.sentinelPaths, dir, StateDir.paths]
  rw [script]
  exact ⟨.inl now, .inr written, written⟩

theorem ensures_enableChecked (m : Manager) (located : m.dir ≠ .homeless)
    (restoring : Restoring p orig) (early : Early p orig m.dir w) (mode : Mode)
    (endpointIP : String) (endpointPort : ℤ) (tunAddr : String) :
    (m.enableChecked p.backend mode endpointIP endpointPort tunAddr).Ensures World.act
      (Moment p orig m.dir)
      (fun r w => r = (.ok (), { m with mode, active := true }) ∧
        w.state.sentinel.legacy = none ∧ Recorded p orig m.dir w.state) w := by
  refine (ensures_removeStale m restoring early).seq fun _ w _ early => ?_
  refine (ensures_currentPolicy restoring early).seq ?_
  rintro _ w _ ⟨rfl, early⟩
  refine (ensures_engage _ restoring early).seq ?_
  rintro _ w _ ⟨rfl, now⟩
  refine (ensures_writeSentinel m located restoring (p.ruleNames_ne_nil _) rfl now).seq ?_
  exact fun _ w moment recorded => ⟨moment, rfl, recorded⟩

end enable

section runs
variable {p : Platform} {orig : Defaults} {dir : StateDir}

structure Inv (p : Platform) (orig : Defaults) (dir : StateDir) (s : State) : Prop where
  located : s.manager.dir = dir
  kept : Kept p orig dir s.host
  active : s.manager.active = true → Recorded p orig dir s.host

/-- A call, whether it engages or not: what is kept at every moment, and what it leaves. -/
theorem ensures_call {s : State} (located : dir ≠ .homeless) (inv : Inv p orig dir s) (call : Call)
    (recoverable : call.engages = true → s.host.defaults p = orig ∧ Restorable orig = true) :
    (call.script p.backend s.manager).Ensures World.act
      (fun w => Kept p orig dir w.state ∨ call.engages = true ∧ Moment p orig dir w)
      (fun r w => Inv p orig dir ⟨w.state, r.2⟩ ∧
        (call.disables = true → w.state.defaults p = orig)) (Fated.start s.host []) := by
  obtain ⟨host, m⟩ := s
  obtain ⟨rfl, kept, active⟩ := inv
  have disabled : (m.disable p.backend).Ensures World.act (fun w => Kept p orig m.dir w.state)
      (fun r w => Inv p orig m.dir ⟨w.state, r.2⟩ ∧ w.state.defaults p = orig)
      (Fated.start host []) := by
    refine (ensures_start (ensures_disable kept active)).mono (fun _ h => h) ?_
    rintro _ w - ⟨rfl, kept, same⟩
    exact ⟨⟨rfl, kept, nofun⟩, same⟩
  cases call with
  | disable => exact disabled.mono (fun _ h => .inl h) fun _ _ _ h => ⟨h.1, fun _ => h.2⟩
  | failClosed =>
    cases on : m.active with
    | false =>
      simp only [Call.script, Manager.failClosed, on, Bool.false_eq_true, if_false]
      exact ⟨.inl kept, ⟨rfl, kept, fun h => by rw [on] at h; cases h⟩, nofun⟩
    | true =>
      simp only [Call.script, Manager.failClosed, on, if_true]
      have block := ensures_start (ensures_recorded
          (only_class p.only_setBlock fun _ _ => rfl) kept.legacy (active on))
      refine (block.mono (fun _ h => .inl h) fun _ _ _ h => h).seq ?_
      rintro _ w held ⟨legacy, recorded⟩
      exact ⟨held, ⟨rfl, ⟨legacy, .inl recorded⟩, fun _ => recorded⟩, nofun⟩
  | enable mode endpointIP endpointPort tunAddr =>
    by_cases off : mode = .off
    · simp only [Call.script, Manager.enable, off, if_true]
      exact disabled.mono (fun _ h => .inl h) fun _ _ _ h => ⟨h.1, fun _ => h.2⟩
    · simp only [Call.script, Manager.enable, if_neg off]
      cases checked : Manager.checkArgs endpointIP endpointPort tunAddr with
      | error err =>
        exact ⟨.inl kept, ⟨rfl, kept, active⟩, fun h => absurd (of_decide_eq_true h) off⟩
      | ok =>
        have engages : (Call.enable mode endpointIP endpointPort tunAddr).engages = true := by
          simp [Call.engages, off, checked, Except.isOk, Except.toBool]
        obtain ⟨same, restorable⟩ := recoverable engages
        have restoring : Restoring p orig := same ▸ restoring_of_restorable (same ▸ restorable)
        have early : Early p orig m.dir (Fated.start host []) := ⟨rfl, kept, same, rfl⟩
        refine (ensures_enableChecked m located restoring early mode endpointIP endpointPort
          tunAddr).mono (fun _ h => .inr ⟨engages, h⟩) ?_
        rintro _ w - ⟨rfl, legacy, recorded⟩
        exact ⟨⟨rfl, ⟨legacy, .inl recorded⟩, fun _ => recorded⟩,
          fun h => absurd (of_decide_eq_true h) off⟩

/-- A process that does not die between the first block and the sentinel leaves the
policies recorded or in force. -/
theorem Moment.kept {w : World} (moment : Moment p orig dir w)
    (complete : blocked w = true → written w = true) : Kept p orig dir w.state := by
  rcases moment with (early | middle) | ⟨legacy, recorded⟩
  · exact early.kept
  · have written := complete middle.blocked
    rw [middle.unwritten] at written
    cases written
  · exact ⟨legacy, .inl recorded⟩

theorem inv_step (located : dir ≠ .homeless) (s : State) (op : Op)
    (recoverable : Recoverable p orig s op) (inv : Inv p orig dir s) :
    Inv p orig dir (step p s op) := by
  cases op with
  | returns call => exact (ensures_call located inv call recoverable).exec.1
  | dies call k lanAllowed =>
    have moment := (ensures_call located inv call fun engages => (recoverable engages).1).after k
    have kept : Kept p orig dir (atDeath p s call k).state := by
      rcases moment with kept | ⟨engages, moment⟩
      · exact kept
      · exact moment.kept (recoverable engages).2
    exact ⟨inv.located, kept, nofun⟩

theorem disables_step (located : dir ≠ .homeless) (s : State) (op : Op)
    (recoverable : Recoverable p orig s op) (inv : Inv p orig dir s)
    (disables : op.disables = true) : (step p s op).host.defaults p = orig := by
  cases op with
  | dies => cases disables
  | returns call => exact (ensures_call located inv call recoverable).exec.2 disables

/-- In every run in which each `Enable` starts from the original policies, which can be recorded,
and is not cut off between its first block and the sentinel, every `Disable` that returns gives
them back. -/
theorem disable_restores_defaults (p : Platform) (dir : StateDir) (located : dir ≠ .homeless)
    (lanAllowed : Bool) (host : Host) (fresh : host.sentinel = Files.empty) (ops : List Op)
    (recoverable : Run.Along (step p)
      (Recoverable p (host.defaults p))
      ⟨host, Manager.new dir lanAllowed⟩ ops) :
    Run.Along (step p)
      (fun s op => op.disables = true → (step p s op).host.defaults p = host.defaults p)
      ⟨host, Manager.new dir lanAllowed⟩ ops := by
  have start : Inv p (host.defaults p) dir ⟨host, Manager.new dir lanAllowed⟩ := by
    refine ⟨rfl, ⟨by rw [fresh]; rfl, .inr ⟨?_, rfl⟩⟩, nofun⟩
    rw [fresh]
    exact Files.load_empty _
  exact Run.along_of_invariant start (inv_step located) (disables_step located) recoverable

end runs

section instances

/-- A machine on which nothing of the kill switch is, with the given default of OUTPUT. -/
def someHost (output : Policy) : Host :=
  { Host.bare with iptables := ⟨⟨output, []⟩, ⟨.accept, []⟩⟩ }

/-- The process dies with the switch on, while it is switched off, and before it blocks. -/
def someOps : List Op :=
  [.returns someEnable, .dies .failClosed 1 true, .dies .disable 2 false, .returns .disable,
    .dies someEnable 3 false, .returns .disable]

theorem defaults_restored_after_deaths :
    Run.Along (step .linux)
      (fun s op => op.disables = true →
        (step .linux s op).host.defaults .linux = (someHost .accept).defaults .linux)
      ⟨someHost .accept, Manager.new .single false⟩ someOps :=
  disable_restores_defaults .linux .single (by decide) false (someHost .accept) rfl someOps
    (by decide)

/-- A default of DROP comes back as ACCEPT; and when the process dies right after the
first chain, the next `Disable` leaves it. -/
theorem defaults_lost :
    ((someHost .drop).defaults .linux = .linux none none .drop .accept ∧
      (someHost .accept).defaults .linux = .linux none none .accept .accept) ∧
    (Run.run (step .linux) ⟨someHost .drop, Manager.new .single false⟩
        [.returns someEnable, .returns .disable]).host.defaults .linux =
      .linux none none .accept .accept ∧
    (Run.run (step .linux) ⟨someHost .accept, Manager.new .single false⟩
        [.dies someEnable 4 false, .returns .disable]).host.defaults .linux =
      .linux (some .drop) none .accept .accept := by
  decide

end instances

end VeilNet.Guarantees.DefaultPolicy
