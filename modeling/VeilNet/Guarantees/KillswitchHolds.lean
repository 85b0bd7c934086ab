import VeilNet.Source.Firewall.Effects
import VeilNet.Lib.Run

/-!
# The kill switch does not open by itself

`FailClosed` only adds to the block. An `Enable` over a switch that is on first deletes the old
table, so until the new chains are made nothing is blocked, and when they cannot be made this
stays so. The block holds when OUTPUT of iptables drops in any case, and when no old rules are on
record and every command works.
-/
namespace VeilNet.Guarantees.KillswitchHolds
open Lib Source Source.Firewall
open Script (Fated ensures_of_only ensures_true)

structure Op where
  call : Call
  fates : List Fate

def Op.script (op : Op) (s : State) : Fw (Except String Unit × Manager) :=
  op.call.script linuxBackend s.manager

def Op.exec (op : Op) (s : State) : (Except String Unit × Manager) × World :=
  (op.script s).exec World.act (Fated.start s.host op.fates)

variable (s : State)

def step (op : Op) : State := ⟨(op.exec s).2.state, (op.exec s).1.2⟩

/-- The machine after the first `k` commands of the call. -/
def moment (op : Op) (k : ℕ) : Host :=
  ((op.script s).after World.act k (Fated.start s.host op.fates)).state

/-- The rules that `removeStale` finds. -/
def staleRules : List String :=
  (s.host.sentinel.load s.manager.sentinelPaths).elim [] Sentinel.rules

/-- An `Enable` that is not refused finds OUTPUT of iptables on drop, or it finds no old
rules and its commands all work. -/
def Guarded (op : Op) : Prop :=
  op.call.engages = true → s.host.iptables.output.policy = .drop ∨
    staleRules s = [] ∧ ∀ fate ∈ op.fates, fate = .works

instance (s : State) (op : Op) : Decidable (Guarded s op) := by
  unfold Guarded
  infer_instance

section commands
variable {w : World}

/-- Fates included, commands that tighten never take a block away. -/
theorem drops_act (c : OsCommand) (w : World) (tightens : c.tightens = true)
    (drops : w.state.drops = true) : (World.act (.os c) w).2.state.drops = true := by
  rcases World.act_os c w with ⟨_, carried⟩ | ⟨_, _, same⟩
  · rw [carried]
    exact drops_of_tightens tightens drops
  · rw [same]
    exact drops

theorem output_drop_act (c : Command) (w : World)
    (kept : ∀ hook, c ≠ .os (.iptablesPolicy hook .accept))
    (drop : w.state.iptables.output.policy = .drop) :
    (World.act c w).2.state.iptables.output.policy = .drop := by
  cases c with
  | file => exact drop
  | os c =>
    rcases World.act_os c w with ⟨_, carried⟩ | ⟨_, _, same⟩
    · rw [carried]
      exact output_drop_run (fun eq => kept .output (congrArg Command.os eq)) drop
    · rw [same]
      exact drop

theorem drops_of_output {h : Host} (drop : h.iptables.output.policy = .drop) : h.drops = true := by
  simp [Host.drops, drop]

theorem drops_of_addChain (ok : ∀ err, (World.act (.os (.nftAddChain .output)) w).1 ≠ .error err) :
    (World.act (.os (.nftAddChain .output)) w).2.state.drops = true := by
  rcases World.act_os (.nftAddChain .output) w with ⟨reply, carried⟩ | ⟨err, failed, _⟩
  · rw [carried]
    cases nft : w.state.nft with
    | none =>
      refine absurd ?_ (ok exitStatus)
      rw [reply, OsCommand.run, nft]
    | some t => simp [OsCommand.run, nft, Host.drops, Host.nftPolicy, Table.addChain]
  · exact absurd failed (ok err)

end commands

section calls
variable {w : World}

theorem ensures_setBlock (w : World) :
    Linux.setBlock.Ends World.act
      (fun r w => r = .ok () → w.state.drops = true) w := by
  have failed : ∀ err (w : World), (do
      let _ ← run (.iptablesPolicy .output .drop)
      let _ ← run (.iptablesPolicy .input .drop)
      pure (.error err) : Fw (Except String Unit)).Ends World.act
        (fun r w => r = .ok () → w.state.drops = true) w :=
    fun err w => ⟨trivial, trivial, trivial, nofun⟩
  refine Script.Ensures.step trivial ?_
  cases (World.act (.os .nftAddTable) w).1 with
  | error err => exact failed err _
  | ok =>
    generalize (World.act (.os .nftAddTable) w).2 = w
    refine Script.Ensures.step trivial ?_
    have chain := drops_of_addChain (w := w)
    cases out : (World.act (.os (.nftAddChain .output)) w).1 with
    | error err => exact failed err _
    | ok =>
      have drops := chain fun err eq => by rw [out] at eq; cases eq
      have still := drops_act (.nftAddChain .input) _ rfl drops
      refine Script.Ensures.step trivial ?_
      cases (World.act (.os (.nftAddChain .input)) (World.act (.os (.nftAddChain .output)) w).2).1
        with
      | error err => exact failed err _
      | ok => exact ⟨trivial, fun _ => still⟩

theorem ensures_writeSentinel (m : Manager) (s : Sentinel) (drops : w.state.drops = true) :
    (m.writeSentinel s).Ensures World.act (fun w => w.state.drops = true)
      (fun _ w => w.state.drops = true) w := by
  unfold Manager.writeSentinel
  split
  · exact ⟨drops, drops⟩
  · exact ⟨drops, drops, drops⟩

theorem ensures_enableChecked (m : Manager) (mode : Mode) (endpointIP : String) (endpointPort : ℤ)
    (tunAddr : String) (w : World) :
    (m.enableChecked linuxBackend mode endpointIP endpointPort tunAddr).Ends World.act
      (fun r w => r.1 = .ok () → r.2.active = true ∧ w.state.drops = true) w := by
  refine (ensures_true _ w).seq fun _ w _ _ => ?_
  refine (ensures_true _ w).seq fun policy w _ _ => ?_
  cases policy with
  | error err => exact ⟨trivial, nofun⟩
  | ok policy =>
    have engaged : (Manager.engage linuxBackend
        ⟨endpointIP, endpointPort, tunAddr, m.lanAllowed⟩).Ensures
        World.act (fun _ => True) (fun r w => r = .ok () → w.state.drops = true) w := by
      refine (ensures_true _ w).seq fun res w _ _ => ?_
      cases res with
      | error err => exact (ensures_true _ w).seq fun _ w _ _ => ⟨trivial, nofun⟩
      | ok =>
        refine (ensures_setBlock w).seq fun res w _ drops => ?_
        cases res with
        | error err => exact (ensures_true _ w).seq fun _ w _ _ => ⟨trivial, nofun⟩
        | ok => exact ⟨trivial, drops⟩
    refine engaged.seq fun res w _ drops => ?_
    cases res with
    | error err => exact ⟨trivial, nofun⟩
    | ok =>
      refine ((ensures_writeSentinel m _ (drops rfl)).ends fun _ _ _ h => h).seq ?_
      exact fun _ w _ drops => ⟨trivial, fun _ => ⟨rfl, drops⟩⟩

/-- A call that does not disable leaves an active manager active. -/
theorem ensures_active {m : Manager} (active : m.active = true) {call : Call}
    (enabled : call.disables = false) (w : World) :
    (call.script linuxBackend m).Ends World.act (fun r _ => r.2.active = true) w := by
  cases call with
  | disable => cases enabled
  | failClosed => exact (ensures_true _ w).seq fun _ w _ _ => ⟨trivial, active⟩
  | enable mode endpointIP endpointPort tunAddr =>
    have on : mode ≠ .off := of_decide_eq_false enabled
    simp only [Call.script, Manager.enable, if_neg on]
    split
    · exact ⟨trivial, active⟩
    · refine (ensures_true _ w).seq fun _ w _ _ => ?_
      refine (ensures_true _ w).seq fun policy w _ _ => ?_
      cases policy with
      | error err => exact ⟨trivial, active⟩
      | ok policy =>
        refine (ensures_true _ w).seq fun res w _ _ => ?_
        cases res with
        | error err => exact ⟨trivial, active⟩
        | ok => exact (ensures_true _ w).seq fun _ w _ _ => ⟨trivial, rfl⟩

end calls

section moments

/-- On a machine that blocks, an `Enable` that finds no old rules and whose commands all work
blocks at every moment. -/
theorem ensures_enableChecked_calm {m : Manager} {h : Host} (drops : h.drops = true)
    (fresh : staleRules ⟨h, m⟩ = []) (mode : Mode) (endpointIP : String) (endpointPort : ℤ)
    (tunAddr : String) :
    (m.enableChecked linuxBackend mode endpointIP endpointPort tunAddr).Ensures works
      (fun h => h.drops = true) (fun _ h => h.drops = true) h := by
  have keeps : ∀ (c : OsCommand) (h : Host), c.tightens = true → h.drops = true →
      (c.run h).2.drops = true := fun _ _ => drops_of_tightens
  have looks : ∀ (c : OsCommand) (h : Host), c.looks = true → h.drops = true →
      (c.run h).2.drops = true := by
    intro c h looks drops
    rw [run_of_looks looks]
    exact drops
  have stale : (m.removeStale linuxBackend).Ensures works (fun h => h.drops = true)
      (fun _ h => h.drops = true) h := by
    refine (ensures_readSentinel m drops).seq ?_
    rintro s h' - ⟨rfl, same⟩
    have none : ((h.sentinel.load m.sentinelPaths).getD ⟨[], "", "", .off⟩).rules = [] := by
      unfold staleRules at fresh
      cases loaded : h.sentinel.load m.sentinelPaths with
      | none => rfl
      | some s => simpa [loaded] using fresh
    rw [if_pos none, same]
    exact ⟨drops, drops⟩
  refine stale.seq fun _ h _ drops => ?_
  refine (ensures_of_class works _ Linux.only_currentPolicy looks drops).seq fun policy h _ drops =>
    ?_
  cases policy with
  | error err => exact ⟨drops, drops⟩
  | ok policy =>
    have engaged : (Manager.engage linuxBackend
        ⟨endpointIP, endpointPort, tunAddr, m.lanAllowed⟩).Ensures
        works (fun h => h.drops = true) (fun r h => r = .ok () ∧ h.drops = true) h := by
      have rules := (ensures_of_class works _
          (Linux.only_enable ⟨endpointIP, endpointPort, tunAddr, m.lanAllowed⟩)
        keeps drops).and (Linux.ensures_enable _ h)
      refine (rules.mono (fun _ h => h.1) fun _ _ _ h => h).seq ?_
      rintro _ h _ ⟨drops, rfl, -⟩
      have block := (ensures_of_class works _ Linux.only_setBlock keeps drops).and
          (Linux.ensures_setBlock h)
      refine (block.mono (fun _ h => h.1) fun _ _ _ h => h).seq ?_
      rintro _ h _ ⟨drops, rfl, -⟩
      exact ⟨drops, rfl, drops⟩
    refine engaged.seq ?_
    rintro _ h _ ⟨rfl, drops⟩
    have written : ∀ s, (m.writeSentinel s).Ensures works (fun h => h.drops = true)
        (fun _ h => h.drops = true) h := by
      intro s
      unfold Manager.writeSentinel
      split
      · exact ⟨drops, drops⟩
      · exact ⟨drops, drops, drops⟩
    exact (written _).seq fun _ h _ drops => ⟨drops, drops⟩

/-- A guarded call that does not disable blocks at every moment. -/
theorem ensures_guarded {s : State} {op : Op} (drops : s.host.drops = true)
    (enabled : op.call.disables = false) (guarded : Guarded s op) :
    (op.script s).Ensures World.act (fun w => w.state.drops = true)
      (fun _ w => w.state.drops = true) (Fated.start s.host op.fates) := by
  obtain ⟨h, m⟩ := s
  obtain ⟨call, fates⟩ := op
  cases call with
  | disable => cases enabled
  | failClosed =>
    exact (ensures_of_class _ _ (Platform.linux.only_failClosed m) drops_act drops).seq
      fun _ w _ drops => ⟨drops, drops⟩
  | enable mode endpointIP endpointPort tunAddr =>
    have on : mode ≠ .off := of_decide_eq_false enabled
    simp only [Op.script, Call.script, Manager.enable, if_neg on]
    cases checked : Manager.checkArgs endpointIP endpointPort tunAddr with
    | error err => exact ⟨drops, drops⟩
    | ok =>
      have engages : (Call.enable mode endpointIP endpointPort tunAddr).engages = true := by
        simp [Call.engages, on, checked, Except.isOk, Except.toBool]
      rcases guarded engages with drop | ⟨fresh, calm⟩
      · have only := Platform.linux.only_enableChecked m mode endpointIP endpointPort tunAddr
        exact (ensures_of_only only output_drop_act drop).mono (fun _ => drops_of_output)
          fun _ _ _ => drops_of_output
      · have calmly :=
          ensures_enableChecked_calm drops fresh mode endpointIP endpointPort tunAddr
        exact Script.Ensures.fated (w := Fated.start h fates) calm calmly

end moments

structure Holds (s : State) : Prop where
  active : s.manager.active = true
  drops : s.host.drops = true

theorem holds_step (op : Op) (cond : op.call.disables = false ∧ Guarded s op)
    (holds : Holds s) : Holds (step s op) :=
  ⟨(ensures_active holds.active cond.1 _).exec, (ensures_guarded holds.drops cond.1 cond.2).exec⟩

theorem holds_of_success {s : State} {mode : Mode} {endpointIP : String} {endpointPort : ℤ}
    {tunAddr : String} {fates : List Fate} (on : mode ≠ .off)
    (success : (Op.exec ⟨.enable mode endpointIP endpointPort tunAddr, fates⟩ s).1.1 = .ok ()) :
    Holds (step s ⟨.enable mode endpointIP endpointPort tunAddr, fates⟩) := by
  have enabled : (Op.script ⟨.enable mode endpointIP endpointPort tunAddr, fates⟩ s).Ends World.act
      (fun r w => r.1 = .ok () → r.2.active = true ∧ w.state.drops = true)
      (Fated.start s.host fates) := by
    simp only [Op.script, Call.script, Manager.enable, if_neg on]
    split
    · exact ⟨trivial, nofun⟩
    · exact ensures_enableChecked _ _ _ _ _ _
  obtain ⟨active, drops⟩ := enabled.exec success
  exact ⟨active, drops⟩

/-- After a successful `Enable`, in every run of guarded calls that do not disable, an output
chain that drops, or the drop policy of OUTPUT, is in force at every moment of every call, and the
manager is active between them. -/
theorem block_holds_after_enable (s : State) (mode : Mode) (endpointIP : String)
    (endpointPort : ℤ) (tunAddr : String) (fates : List Fate) (on : mode ≠ .off)
    (success : (Op.exec ⟨.enable mode endpointIP endpointPort tunAddr, fates⟩ s).1.1 = .ok ())
    (ops : List Op) (enabled : ∀ op ∈ ops, op.call.disables = false)
    (guarded : Run.Along step Guarded
      (step s ⟨.enable mode endpointIP endpointPort tunAddr, fates⟩) ops) :
    Run.Along step (fun s op => ∀ k, (moment s op k).drops = true)
        (step s ⟨.enable mode endpointIP endpointPort tunAddr, fates⟩) ops ∧
      Run.Throughout step (fun s => s.manager.active = true ∧ s.host.drops = true)
        (step s ⟨.enable mode endpointIP endpointPort tunAddr, fates⟩) ops := by
  have start := holds_of_success on success
  have premise : Run.Along step (fun s op => op.call.disables = false ∧ Guarded s op)
      (step s ⟨.enable mode endpointIP endpointPort tunAddr, fates⟩) ops :=
    (Run.along_of_mem fun op member _ => enabled op member).and guarded
  constructor
  · refine Run.along_of_invariant start holds_step ?_ premise
    exact fun s op cond holds k => (ensures_guarded holds.drops cond.1 cond.2).after k
  · exact (Run.throughout_of_invariant start holds_step premise).mono
      fun s holds => ⟨holds.active, holds.drops⟩

section instances

def otherEnable : Call := .enable .alwaysOn "198.51.100.9" 51820 "10.89.0.2"

def fail : Fate := .fails "exit status 1" none

/-- The second tunnel loss meets a broken nft, so that OUTPUT of iptables is closed; then
one `Enable` fails and one succeeds. -/
def someOps : List Op :=
  [⟨.failClosed, []⟩, ⟨.failClosed, [fail]⟩, ⟨someEnable, List.replicate 20 fail⟩,
    ⟨otherEnable, [.works, fail]⟩, ⟨.failClosed, [fail, fail, fail]⟩]

theorem block_holds_in_some_run :
    Run.Along step (fun s op => ∀ k, (moment s op k).drops = true)
        (step ⟨.bare, Manager.new .single false⟩ ⟨someEnable, []⟩) someOps ∧
      Run.Throughout step (fun s => s.manager.active = true ∧ s.host.drops = true)
        (step ⟨.bare, Manager.new .single false⟩ ⟨someEnable, []⟩) someOps :=
  block_holds_after_enable _ .alwaysOn "203.0.113.7" 51820 "10.89.0.2" [] (by decide)
    (by decide) someOps (by decide) (by decide)

/-- A second `Enable` opens after its second command, and when the new chains cannot be
made, it stays open with the manager active. -/
theorem block_opens_on_enable :
    let s := step ⟨.bare, Manager.new .single false⟩ ⟨someEnable, []⟩
    (Op.exec ⟨someEnable, []⟩ ⟨.bare, Manager.new .single false⟩).1.1 = .ok () ∧
      (moment s ⟨otherEnable, []⟩ 2).drops = false ∧
      (step s ⟨otherEnable, List.replicate 13 .works ++ List.replicate 8 fail⟩).manager.active =
        true ∧
      (step s ⟨otherEnable, List.replicate 13 .works ++ List.replicate 8 fail⟩).host.drops =
        false := by
  decide

end instances

end VeilNet.Guarantees.KillswitchHolds
