import VeilNet.Source.Firewall.Killswitch

/-!
What the kill-switch functions can do to the machine: which commands each of them
issues, and what those commands do to the default policies and to the sentinel file.
-/
namespace VeilNet.Source.Firewall
open Lib Script

/-- The machine on which every command works. -/
abbrev works : Machine Command.Reply Host := Command.act .works

/-- A firewall with the fates of its commands. -/
abbrev World := Fated Command Fate Host

abbrev World.act : Machine Command.Reply World := fated .works Command.act

theorem World.act_calm {w : World} (calm : w.fates = []) (c : Command) :
    World.act c w = ((works c w.state).1, ⟨(works c w.state).2, [], w.trail ++ [(c, .works)]⟩) := by
  simp [World.act, fated, calm]

variable {inv : Host → Prop}

/-- Without fates a program does what it does when every command works. -/
theorem ensures_start {α : Type} {x : Script Command.Reply α}
    {post : α → Host → Prop} {h : Host} (spec : x.Ensures works inv post h) :
    x.Ensures World.act (fun w => inv w.state) (fun a w => post a w.state) (Fated.start h []) :=
  Ensures.fated (fun _ member => nomatch member) spec

/-- A command is carried out or, when its fate is to fail, changes nothing. -/
theorem World.act_os (c : OsCommand) (w : World) :
    (World.act (.os c) w).1 = (c.run w.state).1 ∧
        (World.act (.os c) w).2.state = (c.run w.state).2 ∨
      ∃ err, (World.act (.os c) w).1 = .error err ∧ (World.act (.os c) w).2.state = w.state := by
  simp only [World.act, fated]
  cases w.fates.headD .works with
  | works => exact .inl ⟨rfl, rfl⟩
  | fails err left => exact .inr ⟨err, rfl, rfl⟩

/-- The commands that add rules and set a default to deny. -/
def OsCommand.tightens : OsCommand → Bool
  | .nftAddTable | .nftAddChain _ | .nftAddRule _ _ | .iptablesPolicy _ .drop | .iptablesInsert _ _
  | .netshAdd _ => true
  | .netshPolicy policy => policy = "blockinbound,blockoutbound"
  | .nftList | .nftDelete | .iptablesPolicy _ .accept | .iptablesDelete _ _ | .netshDelete _
  | .netshShow => false

def OsCommand.removes : OsCommand → Bool
  | .nftDelete | .iptablesDelete _ _ | .netshDelete _ => true
  | .nftAddTable | .nftAddChain _ | .nftAddRule _ _ | .iptablesPolicy _ _ | .iptablesInsert _ _
  | .netshAdd _ | .netshPolicy _ | .nftList | .netshShow => false

def OsCommand.looks : OsCommand → Bool
  | .nftList | .netshShow => true
  | .nftAddTable | .nftAddChain _ | .nftAddRule _ _ | .iptablesPolicy _ _ | .iptablesInsert _ _
  | .netshAdd _ | .netshPolicy _ | .nftDelete | .iptablesDelete _ _ | .netshDelete _ => false

/-- An OS command of the class. -/
def Command.Of (class_ : OsCommand → Bool) : Command → Prop
  | .os c => class_ c = true
  | .file _ => False

section only
variable {p : Command → Prop}

theorem only_runSteps {cs : List OsCommand} (each : ∀ c ∈ cs, p (.os c)) :
    (runSteps cs).Only p := by
  induction cs with
  | nil => trivial
  | cons c rest ih =>
    obtain ⟨first, later⟩ := List.forall_mem_cons.mp each
    refine Only.bind ((only_perform _).mpr first) fun reply => ?_
    cases reply with
    | error err => trivial
    | ok out => exact ih later

theorem only_runAll {cs : List OsCommand} (each : ∀ c ∈ cs, p (.os c)) : (runAll cs).Only p := by
  induction cs with
  | nil => trivial
  | cons c rest ih =>
    obtain ⟨first, later⟩ := List.forall_mem_cons.mp each
    exact Only.bind ((only_perform _).mpr first) fun _ => ih later

theorem only_removeFiles {places : List Place} (each : ∀ place, p (.file (.remove place))) :
    (Manager.removeFiles places).Only p := by
  induction places with
  | nil => trivial
  | cons place rest ih => exact Only.bind ((only_perform _).mpr (each place)) fun _ => ih

end only

section classes
variable {α : Type} {x : Fw α} {class_ : OsCommand → Bool}

theorem only_class {q : Command → Prop} (only : x.Only (Command.Of class_))
    (each : ∀ c, class_ c = true → q (.os c)) : x.Only q := by
  refine only.mono fun c member => ?_
  cases c with
  | os c => exact each c member
  | file => cases member

/-- A program whose commands are of a class that keeps an invariant. -/
theorem ensures_of_class {σ : Type} (act : Machine Command.Reply σ) (inv : σ → Prop) {s : σ}
    (only : x.Only (Command.Of class_))
    (keeps : ∀ c s, class_ c = true → inv s → inv (act (.os c) s).2) (start : inv s) :
    x.Ensures act inv (fun _ => inv) s := by
  refine ensures_of_only only ?_ start
  intro c s member now
  cases c with
  | os c => exact keeps c s member now
  | file => cases member

theorem ensures_removeFiles_of (inv : Host → Prop) {h : Host} (places : List Place)
    (keeps : ∀ place h, inv h → inv (works (.file (.remove place)) h).2) (start : inv h) :
    (Manager.removeFiles places).Ensures works inv (fun _ => inv) h := by
  induction places generalizing h with
  | nil => exact ⟨start, start⟩
  | cons place rest ih => exact Ensures.step start (ih (keeps place h start))

end classes

namespace Linux

theorem tightens_nftSteps (spec : Spec) : ∀ c ∈ nftSteps spec, c.tightens = true := by
  cases lan : spec.lanAllowed <;> simp [nftSteps, lan, OsCommand.tightens]

theorem tightens_iptablesSteps (spec : Spec) : ∀ c ∈ iptablesSteps spec, c.tightens = true := by
  cases lan : spec.lanAllowed <;> simp [iptablesSteps, commented, lan, OsCommand.tightens]

theorem only_enable (spec : Spec) : (enable spec).Only (Command.Of OsCommand.tightens) := by
  refine Only.bind (only_runSteps (tightens_nftSteps spec)) fun nft => ?_
  cases nft with
  | ok => trivial
  | error err =>
    refine Only.bind (only_runSteps (tightens_iptablesSteps spec)) fun iptables => ?_
    cases iptables <;> trivial

theorem only_deleteCommented (names : List String) :
    (runAll (names.flatMap deleteCommented ++ deleteCommented "veilnet-ks-fallback")).Only
      (Command.Of OsCommand.removes) := by
  refine only_runAll fun c member => ?_
  simp only [List.mem_append, List.mem_flatMap, deleteCommented, List.mem_cons, List.not_mem_nil,
    or_false] at member
  rcases member with ⟨_, _, rfl | rfl⟩ | rfl | rfl <;> rfl

theorem only_remove (names : List String) :
    (remove names).Only (Command.Of OsCommand.removes) :=
  Only.bind ((only_perform _).mpr rfl) fun _ =>
    Only.bind (only_deleteCommented names) fun _ => trivial

/-- What `SetBlock` does after its steps. -/
def dropIfFailed : Except String Unit → Fw (Except String Unit)
  | .error err => do
    let _ ← run (.iptablesPolicy .output .drop)
    let _ ← run (.iptablesPolicy .input .drop)
    pure (.error err)
  | .ok () => pure (.ok ())

theorem setBlockFrom_eq (cs : List OsCommand) : setBlockFrom cs = runSteps cs >>= dropIfFailed := by
  induction cs with
  | nil => rfl
  | cons c rest ih =>
    refine congrArg (Script.call (Command.os c)) (funext fun reply => ?_)
    cases reply with
    | error err => rfl
    | ok out => exact ih

theorem only_setBlockFrom {p : Command → Prop} {cs : List OsCommand} (each : ∀ c ∈ cs, p (.os c))
    (drop : ∀ hook, p (.os (.iptablesPolicy hook .drop))) : (setBlockFrom cs).Only p := by
  rw [setBlockFrom_eq]
  refine Only.bind (only_runSteps each) fun res => ?_
  cases res with
  | error err => exact ⟨drop .output, fun _ => ⟨drop .input, fun _ => trivial⟩⟩
  | ok => trivial

theorem only_setBlock : setBlock.Only (Command.Of OsCommand.tightens) := by
  have each : ∀ c ∈ [OsCommand.nftAddTable, .nftAddChain .output, .nftAddChain .input],
      c.tightens = true := by decide
  exact only_setBlockFrom each fun _ => rfl

theorem only_currentPolicy : currentPolicy.Only (Command.Of OsCommand.looks) := by
  refine Only.bind ((only_perform _).mpr rfl) fun reply => ?_
  cases reply with
  | error err => trivial
  | ok out => dsimp only; split <;> trivial

end Linux

namespace Windows

theorem only_enable (spec : Spec) : (enable spec).Only (Command.Of OsCommand.tightens) := by
  refine Only.bind (only_runSteps fun c member => ?_) fun res => ?_
  · obtain ⟨rule, _, rfl⟩ := List.mem_map.mp member
    rfl
  · cases res <;> trivial

theorem only_remove (names : List String) :
    (remove names).Only (Command.Of OsCommand.removes) := by
  induction names with
  | nil => trivial
  | cons name rest ih =>
    exact Only.bind ((only_perform _).mpr rfl) fun _ => Only.bind ih fun _ => trivial

theorem only_setBlock : setBlock.Only (Command.Of OsCommand.tightens) :=
  Only.bind ((only_perform _).mpr rfl) fun _ => trivial

theorem only_currentPolicy : currentPolicy.Only (Command.Of OsCommand.looks) := by
  refine Only.bind ((only_perform _).mpr rfl) fun reply => ?_
  cases reply <;> trivial

end Windows

/-! The default policies. -/

inductive Platform where
  | linux | windows

def Platform.backend : Platform → Backend
  | .linux => linuxBackend
  | .windows => windowsBackend

/-- The default policies of a platform: those of the chains of the table `inet veilnet` and
of iptables, or those of the profiles. -/
inductive Defaults where
  | linux (nftOutput nftInput : Option Policy) (output input : Policy)
  | windows (profiles : Profiles)
  deriving DecidableEq

def Host.nftPolicy (h : Host) : Hook → Option Policy
  | .output => h.nft.bind fun t => t.output.map Chain.policy
  | .input => h.nft.bind fun t => t.input.map Chain.policy

def Host.defaults (h : Host) : Platform → Defaults
  | .linux => .linux (h.nftPolicy .output) (h.nftPolicy .input) h.iptables.output.policy
      h.iptables.input.policy
  | .windows => .windows h.profiles

def OsCommand.setsDefault : OsCommand → Bool
  | .nftAddChain _ | .iptablesPolicy _ _ | .netshPolicy _ => true
  | .nftList | .nftAddTable | .nftAddRule _ _ | .nftDelete | .iptablesInsert _ _
  | .iptablesDelete _ _ | .netshAdd _ | .netshDelete _ | .netshShow => false

section commands
variable {h : Host} {c : OsCommand}

theorem run_of_looks (looks : c.looks = true) : (c.run h).2 = h := by
  cases c <;> simp only [OsCommand.looks, Bool.false_eq_true] at looks
  · simp only [OsCommand.run]
    split <;> rfl
  · rfl

theorem sentinel_run (c : OsCommand) (h : Host) : (c.run h).2.sentinel = h.sentinel := by
  cases c <;> simp only [OsCommand.run] <;> (try split) <;> rfl

theorem nftPolicy_addRule (hook hook' : Hook) (rule : List String) :
    ((OsCommand.nftAddRule hook rule).run h).2.nftPolicy hook' = h.nftPolicy hook' := by
  simp only [OsCommand.run]
  split
  · rfl
  · next t added =>
    obtain ⟨t₀, table, added⟩ := Option.bind_eq_some_iff.mp added
    cases hook <;> obtain ⟨chain, found, rfl⟩ := Option.map_eq_some_iff.mp added <;>
      cases hook' <;> simp [Host.nftPolicy, table, found]

/-- Only a new chain and the removal of the table change a policy of the table. -/
theorem nftPolicy_run (silent : c.setsDefault = false) (kept : c.removes = false) (hook : Hook) :
    (c.run h).2.nftPolicy hook = h.nftPolicy hook := by
  cases c with
  | nftAddTable =>
    cases table : h.nft <;> cases hook <;> simp [OsCommand.run, Host.nftPolicy, table]
  | nftAddRule hook' rule => exact nftPolicy_addRule hook' hook rule
  | nftList => rw [run_of_looks rfl]
  | netshShow => rfl
  | iptablesInsert | netshAdd => rfl
  | nftAddChain | iptablesPolicy | netshPolicy => cases silent
  | nftDelete | iptablesDelete | netshDelete => cases kept

/-- What the command does to the chains of iptables. -/
def OsCommand.filter (f : Filter) : OsCommand → Filter
  | .iptablesPolicy hook policy => f.set { f.chain hook with policy } hook
  | .iptablesInsert hook rule =>
    f.set { f.chain hook with rules := rule :: (f.chain hook).rules } hook
  | .iptablesDelete hook rule =>
    f.set { f.chain hook with rules := (f.chain hook).rules.erase rule } hook
  | .nftList | .nftAddTable | .nftAddChain _ | .nftAddRule _ _ | .nftDelete | .netshAdd _
  | .netshDelete _ | .netshPolicy _ | .netshShow => f

theorem Filter.set_chain (f : Filter) (hook : Hook) : f.set (f.chain hook) hook = f := by
  cases hook <;> rfl

theorem iptables_eq_filter (c : OsCommand) (h : Host) :
    (c.run h).2.iptables = c.filter h.iptables := by
  cases c with
  | iptablesPolicy | iptablesInsert | nftAddTable | netshAdd | netshShow => rfl
  | iptablesDelete hook rule =>
    simp only [OsCommand.run, OsCommand.filter]
    split
    · rfl
    · next absent => rw [List.erase_of_not_mem absent, Filter.set_chain]
  | nftList | nftAddChain | nftAddRule | nftDelete | netshDelete | netshPolicy =>
    simp only [OsCommand.run, OsCommand.filter]
    split <;> rfl

theorem policy_filter (other : ∀ hook policy, c ≠ .iptablesPolicy hook policy) (f : Filter)
    (hook : Hook) : ((c.filter f).chain hook).policy = (f.chain hook).policy := by
  cases c with
  | iptablesPolicy hook' policy => exact absurd rfl (other hook' policy)
  | iptablesInsert hook' rule => cases hook' <;> cases hook <;> rfl
  | iptablesDelete hook' rule => cases hook' <;> cases hook <;> rfl
  | nftList | nftAddTable | nftAddChain | nftAddRule | nftDelete | netshAdd | netshDelete
  | netshPolicy | netshShow => rfl

theorem policy_run (other : ∀ hook policy, c ≠ .iptablesPolicy hook policy)
    (hook : Hook) : ((c.run h).2.iptables.chain hook).policy = (h.iptables.chain hook).policy := by
  rw [iptables_eq_filter, policy_filter other]

theorem iptables_run (silent : c.setsDefault = false) (hook : Hook) :
    ((c.run h).2.iptables.chain hook).policy = (h.iptables.chain hook).policy := by
  apply policy_run
  intro hook' policy same
  rw [same] at silent
  cases silent

theorem profiles_run (silent : c.setsDefault = false) : (c.run h).2.profiles = h.profiles := by
  cases c with
  | nftAddChain | iptablesPolicy | netshPolicy => cases silent
  | nftAddTable | iptablesInsert | netshAdd | netshShow => rfl
  | nftList | nftAddRule | nftDelete | iptablesDelete | netshDelete =>
    simp only [OsCommand.run]
    split <;> rfl

theorem defaults_run (silent : c.setsDefault = false) (kept : c.removes = false) (p : Platform) :
    (c.run h).2.defaults p = h.defaults p := by
  cases p with
  | windows => exact congrArg Defaults.windows (profiles_run silent)
  | linux =>
    have output : (c.run h).2.iptables.output.policy = h.iptables.output.policy :=
      iptables_run silent .output
    have input : (c.run h).2.iptables.input.policy = h.iptables.input.policy :=
      iptables_run silent .input
    simp only [Host.defaults, nftPolicy_run silent kept, output, input]

theorem nft_removes (removes : c.removes = true) :
    (c.run h).2.nft = h.nft ∨ (c.run h).2.nft = none := by
  cases c with
  | nftDelete =>
    simp only [OsCommand.run]
    split
    · exact .inl rfl
    · exact .inr rfl
  | iptablesDelete hook' rule =>
    refine .inl ?_
    simp only [OsCommand.run]
    split <;> rfl
  | netshDelete name =>
    refine .inl ?_
    simp only [OsCommand.run]
    split <;> rfl
  | nftList | nftAddTable | nftAddChain | nftAddRule | iptablesPolicy | iptablesInsert | netshAdd
  | netshPolicy | netshShow => cases removes

/-- The output chain of the table, or OUTPUT of iptables, drops what no rule accepts. -/
def Host.drops (h : Host) : Bool :=
  h.nftPolicy .output = some .drop || h.iptables.output.policy = .drop

theorem drops_of_tightens (tightens : c.tightens = true) (drops : h.drops = true) :
    (c.run h).2.drops = true := by
  have removes : c.removes = false := by cases c <;> first | rfl | cases tightens
  cases sets : c.setsDefault with
  | false =>
    have output : (c.run h).2.iptables.output.policy = h.iptables.output.policy :=
      iptables_run sets .output
    rw [Host.drops, nftPolicy_run sets removes, output]
    exact drops
  | true =>
    simp only [Host.drops, Bool.or_eq_true, decide_eq_true_eq] at drops ⊢
    cases c with
    | nftAddChain hook =>
      cases nft : h.nft with
      | none => simpa [OsCommand.run, nft] using drops
      | some t => cases hook <;> simp_all [OsCommand.run, Host.nftPolicy, Table.addChain]
    | iptablesPolicy hook policy =>
      cases policy with
      | accept => cases tightens
      | drop =>
        cases hook
        · exact .inr rfl
        · exact drops
    | netshPolicy policy =>
      simp only [OsCommand.run]
      split <;> exact drops
    | nftList | nftAddTable | nftAddRule | nftDelete | iptablesInsert | iptablesDelete | netshAdd
    | netshDelete | netshShow => cases sets

/-- Only `iptables -P OUTPUT ACCEPT` lifts the policy of OUTPUT. -/
theorem output_drop_run (kept : c ≠ .iptablesPolicy .output .accept)
    (drop : h.iptables.output.policy = .drop) : (c.run h).2.iptables.output.policy = .drop := by
  by_cases sets : ∃ hook policy, c = .iptablesPolicy hook policy
  · obtain ⟨hook, policy, rfl⟩ := sets
    cases hook with
    | input => exact drop
    | output =>
      cases policy with
      | accept => exact absurd rfl kept
      | drop => rfl
  · exact (policy_run (fun hook policy same => sets ⟨hook, policy, same⟩) .output).trans drop

/-- Outbound traffic that no rule allows is denied. -/
def Host.denies (h : Host) : Platform → Bool
  | .linux => h.drops
  | .windows => h.profiles.domainProfile.outbound = .block &&
      h.profiles.privateProfile.outbound = .block && h.profiles.publicProfile.outbound = .block

theorem denies_of_tightens (tightens : c.tightens = true) (p : Platform)
    (denies : h.denies p = true) : (c.run h).2.denies p = true := by
  cases p with
  | linux => exact drops_of_tightens tightens denies
  | windows =>
    cases sets : c.setsDefault with
    | false =>
      rw [Host.denies, profiles_run sets]
      exact denies
    | true =>
      cases c with
      | nftAddChain hook =>
        simp only [OsCommand.run]
        split <;> exact denies
      | iptablesPolicy => exact denies
      | netshPolicy policy =>
        obtain rfl : policy = "blockinbound,blockoutbound" := of_decide_eq_true tightens
        rfl
      | nftList | nftAddTable | nftAddRule | nftDelete | iptablesInsert | iptablesDelete | netshAdd
      | netshDelete | netshShow => cases sets

end commands

/-! What the functions do when every command works. -/

/-- Both chains are there and drop what no rule accepts. -/
def Engaged (h : Host) : Prop := ∃ o i, h.nft = some ⟨some ⟨.drop, o⟩, some ⟨.drop, i⟩⟩

theorem Engaged.nftPolicy {h : Host} (engaged : Engaged h) (hook : Hook) :
    h.nftPolicy hook = some .drop := by
  obtain ⟨o, i, nft⟩ := engaged
  cases hook <;> simp [Host.nftPolicy, nft]

/-- The loop over commands that are carried out. -/
theorem ensures_accepted {cs : List OsCommand} {h : Host}
    (accepted : ∀ c ∈ cs, ∀ h, inv h → (∃ out, (c.run h).1 = .ok out) ∧ inv (c.run h).2)
    (start : inv h) : (runSteps cs).Ends works (fun r h => r = .ok () ∧ inv h) h := by
  induction cs generalizing h with
  | nil => exact ⟨trivial, rfl, start⟩
  | cons c rest ih =>
    obtain ⟨here, later⟩ := List.forall_mem_cons.mp accepted
    obtain ⟨⟨out, ok⟩, still⟩ := here h start
    refine Ensures.step trivial ?_
    rw [show (works (.os c) h).1 = .ok out from ok]
    exact ih later still

namespace Linux

theorem run_addRule {h : Host} (engaged : Engaged h) (hook : Hook) (rule : List String) :
    ((OsCommand.nftAddRule hook rule).run h).1 = .ok "" ∧
      Engaged ((OsCommand.nftAddRule hook rule).run h).2 := by
  obtain ⟨o, i, nft⟩ := engaged
  cases hook
  · simp [OsCommand.run, nft, Table.addRule, Engaged]
  · simp [OsCommand.run, nft, Table.addRule, Engaged]

/-- The rules of `enableNft` come after the table and its chains. -/
theorem nftSteps_rules (spec : Spec) : ∀ c ∈ (nftSteps spec).drop 3,
    ∃ hook rule, c = .nftAddRule hook rule := by
  cases lan : spec.lanAllowed <;> simp [nftSteps, lan]

theorem ensures_enableNft (spec : Spec) (h : Host) :
    (enableNft spec).Ends works (fun r h => r = .ok () ∧ Engaged h) h := by
  refine ⟨trivial, trivial, trivial, ensures_accepted ?_ ⟨_, _, rfl⟩⟩
  intro c member h engaged
  obtain ⟨hook, rule, rfl⟩ := nftSteps_rules spec c member
  obtain ⟨ok, still⟩ := run_addRule engaged hook rule
  exact ⟨⟨_, ok⟩, still⟩

theorem ensures_enable (spec : Spec) (h : Host) :
    (enable spec).Ends works (fun r h => r = .ok () ∧ Engaged h) h := by
  refine (ensures_enableNft spec h).seq ?_
  rintro _ h _ ⟨rfl, engaged⟩
  exact ⟨trivial, rfl, engaged⟩

theorem ensures_setBlock (h : Host) :
    setBlock.Ends works (fun r h => r = .ok () ∧ Engaged h) h :=
  ⟨trivial, trivial, trivial, trivial, rfl, _, _, rfl⟩

theorem ensures_remove (names : List String) (h : Host) :
    (remove names).Ends works (fun _ h' => h'.nft = none) h := by
  have gone : (OsCommand.nftDelete.run h).2.nft = none := by
    simp only [OsCommand.run]
    split
    · assumption
    · rfl
  have still : ∀ (c : OsCommand) (h : Host), c.removes = true → h.nft = none →
      (c.run h).2.nft = none := by
    intro c h removes none
    rcases nft_removes (h := h) removes with same | gone
    · exact same.trans none
    · exact gone
  have rest := ensures_of_class works (·.nft = none) (only_deleteCommented names) still gone
  refine Ensures.step trivial (Ensures.seq (rest.ends fun _ _ _ h => h) ?_)
  exact fun _ h _ none => ⟨trivial, none⟩

/-- `Restore` of anything but a block of its own opens both defaults. -/
theorem ensures_restore {policy : String} (other : policy ≠ "veilnet-drop") (h : Host) :
    (restore policy).Ends works
      (fun _ h' => h'.defaults .linux = .linux none none .accept .accept) h := by
  rw [restore, if_neg other]
  refine ⟨trivial, trivial, trivial, trivial, ?_⟩
  cases nft : h.nft <;>
    simp [works, Command.act, OsCommand.run, nft, Host.defaults, Host.nftPolicy, Filter.set,
      Filter.chain]

/-- Without chains of the table, the policy is read as `accept`. -/
theorem ensures_currentPolicy {h : Host} (output : h.nftPolicy .output = none)
    (input : h.nftPolicy .input = none) :
    currentPolicy.Ensures works (fun h' => h' = h) (fun r h' => r = .ok "accept" ∧ h' = h) h := by
  have bare : GoText.contains (Table.listing ⟨none, none⟩) "veilnet-ks-" = false := by
    decide
  have looked : (works (.os .nftList) h).2 = h := run_of_looks rfl
  refine Ensures.step rfl ?_
  rw [looked]
  cases nft : h.nft with
  | none =>
    simp only [works, Command.act, OsCommand.run, nft]
    exact ⟨rfl, rfl, rfl⟩
  | some t =>
    have output : t.output = none := by simpa [Host.nftPolicy, nft] using output
    have input : t.input = none := by simpa [Host.nftPolicy, nft] using input
    have table : t = ⟨none, none⟩ := by cases t; simp_all
    simp only [works, Command.act, OsCommand.run, nft, table, bare, Bool.false_eq_true, if_false]
    exact ⟨rfl, rfl, rfl⟩

end Linux

namespace Windows

theorem ensures_enable (spec : Spec) (h : Host) :
    (enable spec).Ends works (fun r _ => r = .ok ()) h := by
  have accepted : ∀ c ∈ (allowRules spec).map OsCommand.netshAdd, ∀ h : Host, True →
      (∃ out, (c.run h).1 = .ok out) ∧ True := by
    intro c member h _
    obtain ⟨rule, _, rfl⟩ := List.mem_map.mp member
    exact ⟨⟨_, rfl⟩, trivial⟩
  refine Ensures.seq (ensures_accepted accepted trivial) ?_
  rintro _ h _ ⟨rfl, _⟩
  exact ⟨trivial, rfl⟩

theorem ensures_restore {policy : String} {profile : ProfilePolicy}
    (known : ProfilePolicy.ofText policy = some profile) (h : Host) :
    (restore policy).Ends works
      (fun _ h' => h'.defaults .windows = .windows ⟨profile, profile, profile⟩) h := by
  refine ⟨trivial, trivial, ?_⟩
  simp [works, Command.act, OsCommand.run, known, Host.defaults]

/-- The text that `CurrentPolicy` makes of the outbound half. -/
def policyText : Outbound → String
  | .allow => "blockinbound,allowoutbound"
  | .block => "blockinbound,blockoutbound"

theorem blocksOutbound_text (p : ProfilePolicy) :
    blocksOutbound ("Firewall Policy                       " ++ p.text) =
      decide (p.outbound = .block) := by
  obtain ⟨inbound, outbound⟩ := p
  cases inbound <;> cases outbound <;>
    simp only [blocksOutbound, GoText.contains, GoText.toLower, GoText.trimSpace,
      ProfilePolicy.text, String.toList_ofList, String.reduceAppend, String.reduceToList] <;>
    decide

theorem newline_notMem_text (p : ProfilePolicy) :
    '\n' ∉ ("Firewall Policy                       " ++ p.text).toList := by
  have parts : ∀ part ∈ ["Firewall Policy                       ", "BlockInbound",
      "BlockInboundAlways",
      "AllowInbound", ",AllowOutbound", ",BlockOutbound"], '\n' ∉ part.toList := by decide
  simp only [List.forall_mem_cons, List.not_mem_nil, IsEmpty.forall_iff, implies_true,
    and_true] at parts
  obtain ⟨heading, block, always, allow, allowOut, blockOut⟩ := parts
  obtain ⟨inbound, outbound⟩ := p
  simp only [ProfilePolicy.text, String.toList_append, List.mem_append, not_or]
  refine ⟨heading, ?_, ?_⟩
  · cases inbound with
    | block => exact block
    | blockAlways => exact always
    | allow => exact allow
  · cases outbound with
    | allow => exact allowOut
    | block => exact blockOut

/-- Any profile that blocks outbound traffic decides; the inbound half is always read as
blocked. -/
theorem readPolicy_report (p : Profiles) :
    readPolicy (GoText.split ("\n".intercalate p.report) '\n') =
      policyText (if p.domainProfile.outbound = .block ∨ p.privateProfile.outbound = .block ∨
        p.publicProfile.outbound = .block then .block else .allow) := by
  have free : ∀ line ∈ p.report, '\n' ∉ line.toList := by
    have headings : ∀ line ∈ ["Domain Profile Settings: ", "Private Profile Settings: ",
        "Public Profile Settings: ", "Ok.", ""], '\n' ∉ line.toList := by decide
    simp only [Profiles.report, List.forall_mem_cons, List.not_mem_nil, IsEmpty.forall_iff,
      implies_true, newline_notMem_text, not_false_eq_true, true_and, and_true] at headings ⊢
    exact headings
  have lines : GoText.split ("\n".intercalate p.report) '\n' = p.report :=
    GoText.split_intercalate '\n' (List.cons_ne_nil _ _) free
  have headings : ["Domain Profile Settings: ", "Private Profile Settings: ",
      "Public Profile Settings: ", "Ok.", ""].map blocksOutbound =
      [false, false, false, false, false] := by decide
  simp only [List.map_cons, List.map_nil, List.cons.injEq, and_true] at headings
  obtain ⟨domain, privateHeading, publicHeading, ok, blank⟩ := headings
  rw [lines, readPolicy]
  simp only [Profiles.report, List.any_cons, List.any_nil, blocksOutbound_text, domain,
    privateHeading, publicHeading, ok, blank, Bool.false_or, Bool.or_false, Bool.or_eq_true,
    decide_eq_true_eq]
  split <;> rfl

theorem ensures_currentPolicy {h : Host} {profile : ProfilePolicy}
    (same : h.profiles = ⟨profile, profile, profile⟩) :
    currentPolicy.Ensures works (fun h' => h' = h)
      (fun r h' => r = .ok (policyText profile.outbound) ∧ h' = h) h := by
  have read := readPolicy_report h.profiles
  refine Ensures.step rfl ⟨rfl, ?_, rfl⟩
  refine congrArg Except.ok (read.trans ?_)
  rw [same]
  cases profile.outbound <;> rfl

end Windows

theorem ensures_readSentinel {h : Host} (m : Manager) (now : inv h) :
    m.readSentinel.Ensures works inv
      (fun s h' => s = (h.sentinel.load m.sentinelPaths).getD ⟨[], "", "", .off⟩ ∧ h' = h) h :=
  Ensures.step now ⟨now, rfl, rfl⟩

namespace Platform
variable (p : Platform)

theorem only_enable (spec : Spec) :
    (p.backend.enable spec).Only (Command.Of OsCommand.tightens) := by
  cases p
  · exact Linux.only_enable spec
  · exact Windows.only_enable spec

theorem only_remove (names : List String) :
    (p.backend.remove names).Only (Command.Of OsCommand.removes) := by
  cases p
  · exact Linux.only_remove names
  · exact Windows.only_remove names

theorem only_setBlock : p.backend.setBlock.Only (Command.Of OsCommand.tightens) := by
  cases p
  · exact Linux.only_setBlock
  · exact Windows.only_setBlock

theorem only_failClosed (m : Manager) :
    (m.failClosed p.backend).Only (Command.Of OsCommand.tightens) := by
  unfold Manager.failClosed
  split
  · exact p.only_setBlock
  · trivial

theorem only_currentPolicy : p.backend.currentPolicy.Only (Command.Of OsCommand.looks) := by
  cases p
  · exact Linux.only_currentPolicy
  · exact Windows.only_currentPolicy

theorem only_restore {q : Command → Prop} {policy : String} (delete : q (.os .nftDelete))
    (accept : ∀ hook, q (.os (.iptablesPolicy hook .accept)))
    (netsh : q (.os (.netshPolicy policy))) : (p.backend.restore policy).Only q := by
  cases p
  · change (Linux.restore policy).Only _
    unfold Linux.restore
    split
    · trivial
    · exact ⟨delete, fun _ => ⟨accept .output, fun _ => ⟨accept .input, fun _ => trivial⟩⟩⟩
  · exact ⟨netsh, fun _ => trivial⟩

theorem ensures_setBlock (h : Host) :
    p.backend.setBlock.Ends works (fun r h => r = .ok () ∧ h.denies p = true) h := by
  cases p with
  | linux =>
    refine (Linux.ensures_setBlock h).mono (fun _ h => h) fun _ h _ ⟨ok, engaged⟩ => ⟨ok, ?_⟩
    simp [Host.denies, Host.drops, engaged.nftPolicy]
  | windows => exact ⟨trivial, trivial, rfl, rfl⟩

theorem ensures_engage (spec : Spec) (h : Host) :
    (Manager.engage p.backend spec).Ends works (fun r h => r = .ok () ∧ h.denies p = true) h := by
  have enable : (p.backend.enable spec).Ends works (fun r _ => r = .ok ()) h := by
    cases p
    · exact (Linux.ensures_enable spec h).mono (fun _ h => h) fun _ _ _ h => h.1
    · exact Windows.ensures_enable spec h
  refine Ensures.seq enable ?_
  rintro _ h _ rfl
  refine Ensures.seq (p.ensures_setBlock h) ?_
  rintro _ h _ ⟨rfl, denies⟩
  exact ⟨trivial, rfl, denies⟩

theorem ruleNames_ne_nil (spec : Spec) : p.backend.ruleNames spec ≠ [] := by
  cases p with
  | linux => exact List.cons_ne_nil _ _
  | windows =>
    have named : "VeilNet-KS-Allow-Endpoint" ∈ Windows.ruleNames spec := by
      refine List.mem_flatMap.mpr ⟨_, List.mem_cons_self, List.mem_filterMap.mpr
        ⟨"name=VeilNet-KS-Allow-Endpoint", by simp, ?_⟩⟩
      decide
    exact List.ne_nil_of_mem named

theorem only_engage (spec : Spec) : (Manager.engage p.backend spec).Only
    (Command.Of fun c => c.tightens || c.removes) := by
  have tightens : ∀ c : OsCommand, c.tightens = true → (c.tightens || c.removes) = true :=
    fun c h => Bool.or_eq_true_iff.mpr (.inl h)
  have removes : ∀ names, (p.backend.remove names).Only
      (Command.Of fun c => c.tightens || c.removes) :=
    fun names => only_class (p.only_remove names) fun c h => Bool.or_eq_true_iff.mpr (.inr h)
  refine Only.bind (only_class (p.only_enable spec) tightens) fun res => ?_
  cases res with
  | error err => exact Only.bind (removes _) fun _ => trivial
  | ok =>
    refine Only.bind (only_class p.only_setBlock tightens) fun res => ?_
    cases res with
    | error err => exact Only.bind (removes _) fun _ => trivial
    | ok => trivial

theorem only_enableChecked (m : Manager) (mode : Mode) (endpointIP : String) (endpointPort : ℤ)
    (tunAddr : String) :
    (m.enableChecked p.backend mode endpointIP endpointPort tunAddr).Only
      (fun c => ∀ hook, c ≠ .os (.iptablesPolicy hook .accept)) := by
  have of : ∀ {class_ : OsCommand → Bool}, (∀ hook, class_ (.iptablesPolicy hook .accept) = false) →
      ∀ c, Command.Of class_ c → ∀ hook, c ≠ .os (.iptablesPolicy hook .accept) := by
    rintro class_ not _ h hook rfl
    rw [Command.Of, not hook] at h
    cases h
  have stale : (m.removeStale p.backend).Only
      (fun c => ∀ hook, c ≠ .os (.iptablesPolicy hook .accept)) := by
    refine Only.bind ⟨nofun, fun _ => trivial⟩ fun s => ?_
    split
    · trivial
    · exact Only.bind ((p.only_remove _).mono (of fun _ => rfl)) fun _ => only_removeFiles nofun
  refine Only.bind stale fun _ => ?_
  refine Only.bind (p.only_currentPolicy.mono (of fun _ => rfl)) fun policy => ?_
  cases policy with
  | error err => trivial
  | ok policy =>
    refine Only.bind ((p.only_engage _).mono (of fun _ => rfl)) fun res => ?_
    cases res with
    | error err => trivial
    | ok =>
      refine Only.bind ?_ fun _ => trivial
      unfold Manager.writeSentinel
      split
      · trivial
      · exact ⟨nofun, fun _ => trivial⟩

end Platform

end VeilNet.Source.Firewall
