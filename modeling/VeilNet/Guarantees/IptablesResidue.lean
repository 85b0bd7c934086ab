import VeilNet.Source.Firewall.Faults

/-!
# What the kill switch leaves in iptables

`Remove` asks iptables for rules that have nothing but a comment, and all that `enableIptables`
inserts have more. So none is ever removed; and policies that a failing `Enable` has set to drop
are not set back.
-/
namespace VeilNet.Guarantees.IptablesResidue
open Lib Source Source.Firewall Source.Firewall.Faults

/-- The rule has one of the comments of the kill switch. -/
def ofVeilNet (rule : List String) : Bool :=
  rule.any fun arg => "veilnet-ks-".toList.isPrefixOf arg.toList

/-- No rule of iptables is one of the kill switch. -/
def Unmarked (f : Filter) : Prop := ∀ hook, ∀ rule ∈ (f.chain hook).rules, ofVeilNet rule = false

/-- Every rule of the kill switch has more than its comment. -/
def NoBare (f : Filter) : Prop :=
  ∀ hook, ∀ rule ∈ (f.chain hook).rules, ofVeilNet rule = true → rule.length ≠ 6

/-- The rules that the commands insert into the chain, the last one first. -/
def insertedBy (cs : List OsCommand) (hook : Hook) : List (List String) :=
  (cs.filterMap fun
    | .iptablesInsert hook' rule => if hook' = hook then some rule else none
    | _ => none).reverse

/-- The command sets a policy, or inserts a rule of the kill switch with more than a comment. -/
def Builds : OsCommand → Prop
  | .iptablesPolicy _ _ => True
  | .iptablesInsert _ rule => ofVeilNet rule = true ∧ rule.length ≠ 6
  | _ => False

section rules
variable {f : Filter} {hook : Hook}

theorem builds_iptablesSteps (spec : Spec) : ∀ c ∈ Linux.iptablesSteps spec, Builds c := by
  cases lan : spec.lanAllowed <;>
    simp [Linux.iptablesSteps, Linux.commented, lan, Builds, ofVeilNet]

variable {cs : List OsCommand}

theorem rules_foldl (builds : ∀ c ∈ cs, Builds c) :
    ((cs.foldl OsCommand.filter f).chain hook).rules = insertedBy cs hook ++
      (f.chain hook).rules := by
  induction cs generalizing f with
  | nil => rfl
  | cons c rest ih =>
    obtain ⟨here, later⟩ := List.forall_mem_cons.mp builds
    rw [List.foldl_cons, ih later]
    cases c with
    | iptablesPolicy hook' policy => cases hook' <;> cases hook <;> rfl
    | iptablesInsert hook' rule =>
      have inserted : insertedBy (.iptablesInsert hook' rule :: rest) hook =
          insertedBy rest hook ++ if hook' = hook then [rule] else [] := by
        unfold insertedBy
        rw [List.filterMap_cons]
        split <;> simp_all
      rw [inserted, OsCommand.filter, chain_set]
      by_cases same : hook' = hook
      · rw [if_pos same, if_pos same.symm, same, List.append_assoc]
        rfl
      · rw [if_neg same, if_neg fun eq => same eq.symm, List.append_nil]
    | nftList | nftAddTable | nftAddChain | nftAddRule | nftDelete | iptablesDelete | netshAdd
    | netshDelete | netshPolicy | netshShow => exact here.elim

/-- What the commands insert are rules of the kill switch with more than a comment. -/
theorem of_mem_insertedBy (builds : ∀ c ∈ cs, Builds c) {rule : List String}
    (member : rule ∈ insertedBy cs hook) : ofVeilNet rule = true ∧ rule.length ≠ 6 := by
  obtain ⟨c, among, here⟩ := List.mem_filterMap.mp (List.mem_reverse.mp member)
  have built := builds c among
  cases c with
  | iptablesInsert hook' rule' =>
    by_cases same : hook' = hook
    · simp only [same, if_true, Option.some.injEq] at here
      exact here ▸ built
    · simp only [same, if_false] at here
      cases here
  | iptablesPolicy | nftList | nftAddTable | nftAddChain | nftAddRule | nftDelete | iptablesDelete
  | netshAdd | netshDelete | netshPolicy | netshShow => cases here

theorem noBare_foldl (builds : ∀ c ∈ cs, Builds c) (bare : NoBare f) :
    NoBare (cs.foldl OsCommand.filter f) := by
  intro hook rule member
  rw [rules_foldl builds] at member
  rcases List.mem_append.mp member with inserted | before
  · exact fun _ => (of_mem_insertedBy builds inserted).2
  · exact bare hook rule before

/-- The rules that are inserted, and no others, are rules of the kill switch. -/
theorem unmarked_foldl_iff (builds : ∀ c ∈ cs, Builds c)
    (unmarked : Unmarked f) :
    Unmarked (cs.foldl OsCommand.filter f) ↔ ∀ hook, insertedBy cs hook = [] := by
  constructor
  · intro still hook
    apply List.eq_nil_iff_forall_not_mem.mpr
    intro rule member
    have marked := (of_mem_insertedBy builds member).1
    have among : rule ∈ ((cs.foldl OsCommand.filter f).chain hook).rules := by
      rw [rules_foldl builds]
      exact List.mem_append_left _ member
    rw [still hook rule among] at marked
    cases marked
  · intro none hook rule member
    rw [rules_foldl builds, none hook] at member
    exact unmarked hook rule member

theorem Unmarked.noBare (unmarked : Unmarked f) : NoBare f := by
  intro hook rule member marked
  rw [unmarked hook rule member] at marked
  cases marked

theorem removed_eq (none : NoBare f) {names : List String}
    (marked : ∀ name ∈ names, ofVeilNet (bare name) = true) : removed names f = f := by
  have each : ∀ c ∈ removals names, c.filter f = f := by
    intro c member
    obtain ⟨hook, name, named, rfl⟩ := mem_removals member
    have here : ofVeilNet (bare name) = true := by
      rcases named with among | rfl
      · exact marked name among
      · decide
    have absent : bare name ∉ (f.chain hook).rules := fun member => none hook _ member here rfl
    simp only [OsCommand.filter]
    rw [List.erase_of_not_mem absent]
    exact f.set_chain hook
  exact foldl_filter_of_fixed each

theorem marked_ruleNames (spec : Spec) : ∀ name ∈ Linux.ruleNames spec,
    ofVeilNet (bare name) = true := by
  cases lan : spec.lanAllowed <;> simp [Linux.ruleNames, lan, ofVeilNet, bare]

/-- Of the commands of the fallback, the first two insert nothing and the third does. -/
theorem insertedBy_take_iff (spec : Spec) (k : ℕ) :
    (∀ hook, insertedBy ((Linux.iptablesSteps spec).take k) hook = []) ↔ k < 3 := by
  obtain ⟨rule, rest, steps, -⟩ := iptablesSteps_eq spec
  rw [steps]
  rcases k with _ | _ | _ | k
  · exact iff_of_true (fun _ => rfl) (by omega)
  · exact iff_of_true (fun _ => rfl) (by omega)
  · exact iff_of_true (fun _ => rfl) (by omega)
  · refine iff_of_false (fun none => ?_) (by omega)
    have output := none .output
    unfold insertedBy at output
    simp at output

theorem insertedBy_worked_iff (spec : Spec) (fates : List Fate) :
    (∀ hook, insertedBy ((Linux.iptablesSteps spec).take
      (worked (Linux.iptablesSteps spec).length fates)) hook = []) ↔ allWork 3 fates = false := by
  obtain ⟨rule, rest, steps, -⟩ := iptablesSteps_eq spec
  have length : 3 ≤ (Linux.iptablesSteps spec).length := by
    rw [steps]
    simp only [List.length_cons]
    omega
  rw [insertedBy_take_iff, ← Nat.not_le, le_worked_iff, and_iff_right length, Bool.not_eq_true]

theorem builds_partly (spec : Spec) (k : ℕ) : ∀ c ∈ (Linux.iptablesSteps spec).take k, Builds c :=
  fun c member => builds_iptablesSteps spec c (List.mem_of_mem_take member)

end rules

/-- The chains of iptables after `enableIptables` and `Remove`. -/
def afterRemoval (spec : Spec) (h : Host) (fates : List Fate) : Filter :=
  ((Linux.remove (Linux.ruleNames spec)).exec killAct
    ((Linux.enableIptables spec).exec killAct (Script.Fated.start h fates)).2).2.state.iptables

/-- For every `Spec`, every machine without rules of the kill switch and every choice of failing
commands: after `enableIptables` and `Remove`, the inserted rules stand before those from the
beginning. The lists are the old ones exactly when a command up to the first insertion failed. -/
theorem removal_restores_iff (spec : Spec) (h : Host) (fates : List Fate)
    (unmarked : Unmarked h.iptables) :
    (∀ hook, ((afterRemoval spec h fates).chain hook).rules =
        insertedBy ((Linux.iptablesSteps spec).take
          (worked (Linux.iptablesSteps spec).length fates)) hook ++ (h.iptables.chain hook).rules) ∧
      ((∀ hook, ((afterRemoval spec h fates).chain hook).rules = (h.iptables.chain hook).rules) ↔
        allWork 3 fates = false) := by
  have start : Tracked h.sentinel h.iptables (Script.Fated.start h fates) := ⟨rfl, rfl⟩
  obtain ⟨-, -, ran⟩ := (ensures_iptables spec start).exec
  obtain ⟨-, gone⟩ := (ensures_remove (Linux.ruleNames spec) ran).exec
  have builds := builds_partly spec (worked (Linux.iptablesSteps spec).length fates)
  have chains : afterRemoval spec h fates = partly (Linux.iptablesSteps spec) fates h.iptables :=
    gone.chains.trans (removed_eq (noBare_foldl builds unmarked.noBare) (marked_ruleNames spec))
  have rules : ∀ hook, ((afterRemoval spec h fates).chain hook).rules =
      insertedBy ((Linux.iptablesSteps spec).take (worked (Linux.iptablesSteps spec).length fates))
        hook ++ (h.iptables.chain hook).rules := by
    intro hook
    rw [chains, partly, rules_foldl builds]
  refine ⟨rules, ?_⟩
  simp only [rules, List.append_left_eq_self]
  exact insertedBy_worked_iff spec fates

section sample

/-- A machine that accepts by default, with one rule of its own. -/
def openHost : Host :=
  { Host.bare with iptables := ⟨⟨.accept, [["-o", "lo", "-j", "ACCEPT"]]⟩, ⟨.accept, []⟩⟩ }

theorem unmarked_openHost : Unmarked openHost.iptables := by
  intro hook
  cases hook <;> decide

def someSpec : Spec := ⟨"203.0.113.7", 51820, "10.7.0.2", false⟩

/-- The first command fails, no rule is inserted, and the lists are the old ones. -/
theorem firstFails_restores :
    (afterRemoval someSpec openHost [.fails "exit status 1" none]).output.rules =
        [["-o", "lo", "-j", "ACCEPT"]] ∧
      (afterRemoval someSpec openHost [.fails "exit status 1" none]).input.rules = [] := by
  have restored := (removal_restores_iff someSpec openHost [.fails "exit status 1" none]
    unmarked_openHost).2.mpr (by decide)
  exact ⟨restored .output, restored .input⟩

/-- All commands succeed, and five rules stay: those for the endpoint, the tunnel and DHCP
in OUTPUT, and two in INPUT. -/
theorem allWork_leaves :
    (afterRemoval someSpec openHost []).output.rules =
        [["-p", "udp", "-d", "255.255.255.255", "--dport", "67", "-m", "comment", "--comment",
            "veilnet-ks-dhcp", "-j", "ACCEPT"],
          ["-s", "10.7.0.2", "-m", "comment", "--comment", "veilnet-ks-fallback", "-j", "ACCEPT"],
          ["-p", "udp", "-d", "203.0.113.7", "--dport", "51820", "-m", "comment", "--comment",
            "veilnet-ks-endpoint", "-j", "ACCEPT"],
          ["-o", "lo", "-j", "ACCEPT"]] ∧
      (afterRemoval someSpec openHost []).input.rules.length = 2 := by
  decide

end sample

section enabling
variable {f : Filter}

/-- A rule of the fallback gets in: nftables fails, and the first three commands of the fallback
work. -/
def inserts (spec : Spec) (fates : List Fate) : Bool :=
  !nftWorks spec fates && allWork 3 (fallback spec fates)

/-- The policies are the old ones, and nothing of the kill switch is there. -/
structure Restored (h h' : Host) : Prop where
  policies : ∀ hook, (h'.iptables.chain hook).policy = (h.iptables.chain hook).policy
  table : h'.nft = none
  unmarked : Unmarked h'.iptables

theorem ruled_rules (spec : Spec) (fates : List Fate) (unmarked : Unmarked f) :
    NoBare (ruled spec fates f) ∧ (Unmarked (ruled spec fates f) ↔ inserts spec fates = false) := by
  unfold ruled inserts
  cases nftWorks spec fates with
  | true => exact ⟨unmarked.noBare, iff_of_true unmarked rfl⟩
  | false =>
    have builds := builds_partly spec (worked (Linux.iptablesSteps spec).length
        (fallback spec fates))
    refine ⟨noBare_foldl builds unmarked.noBare, ?_⟩
    exact (unmarked_foldl_iff builds unmarked).trans
      (insertedBy_worked_iff spec (fallback spec fates))

theorem rules_closing (fates : List Fate) (hook : Hook) :
    ((closing fates f).chain hook).rules = (f.chain hook).rules := by
  unfold closing
  cases hook <;> cases allWork 1 fates <;> cases allWork 1 fates.tail <;> rfl

/-- What is left of the rules of a failing `Enable` is what the fallback has inserted. -/
theorem unmarked_left_iff {spec : Spec} {fates : List Fate} (unmarked : Unmarked f)
    (fails : engages spec fates = false) :
    Unmarked (left spec fates f) ↔ inserts spec fates = false := by
  obtain ⟨noBare, iff⟩ := ruled_rules spec fates unmarked
  have closed : NoBare (closing (remaining 3 (blocking spec fates)) (ruled spec fates f)) := by
    intro hook
    rw [rules_closing]
    exact noBare hook
  unfold left
  rw [if_neg (by rw [fails]; exact Bool.false_ne_true)]
  split
  · rw [removed_eq closed (marked_ruleNames spec), ← iff]
    unfold Unmarked
    simp only [rules_closing]
  · rw [removed_eq noBare (marked_ruleNames spec), iff]

theorem policy_left_eq_iff (spec : Spec) (fates : List Fate) (hook : Hook) :
    ((left spec fates f).chain hook).policy = (f.chain hook).policy ↔
      (setsDropOn spec fates hook = true → (f.chain hook).policy = .drop) := by
  rw [policy_left]
  split
  · next denied => simp [denied, eq_comm]
  · next kept => simp [kept]

theorem restored_left_iff {spec : Spec} {fates : List Fate} {h h' : Host} (absent : h'.nft = none)
    (unmarked : Unmarked h.iptables) (fails : engages spec fates = false)
    (chains : h'.iptables = left spec fates h.iptables) :
    Restored h h' ↔ inserts spec fates = false ∧
      ∀ hook, setsDropOn spec fates hook = true → (h.iptables.chain hook).policy = .drop := by
  rw [← unmarked_left_iff unmarked fails, ← chains]
  constructor
  · intro restored
    refine ⟨restored.unmarked, fun hook => (policy_left_eq_iff spec fates hook).mp ?_⟩
    rw [← chains]
    exact restored.policies hook
  · rintro ⟨still, kept⟩
    refine ⟨fun hook => ?_, absent, still⟩
    rw [chains]
    exact (policy_left_eq_iff spec fates hook).mpr (kept hook)

theorem ne_off_of_failed {m : Manager} {mode : Mode} {endpointIP : String} {endpointPort : ℤ}
    {tunAddr : String} {w : World}
    (failed : ((m.enable linuxBackend mode endpointIP endpointPort tunAddr).exec killAct
      w).1.1.isOk = false) : mode ≠ .off := by
  intro off
  rw [Manager.enable, if_pos off] at failed
  simp only [Manager.disable, Script.exec_bind, Script.exec_pure] at failed
  cases failed

end enabling

/-- For every manager, every machine without sentinel, table or rules of the kill switch, and
every choice of failing commands: an `Enable` that returns an error leaves the policies and
nothing of its own exactly when its arguments are refused, or no rule of the fallback gets in and
no policy is set to drop that was not. -/
theorem refusedEnable_restores_iff (m : Manager) (mode : Mode) (endpointIP : String)
    (endpointPort : ℤ)
    (tunAddr : String) (h : Host) (fates : List Fate) (unrecorded : h.sentinel = Files.empty)
    (absent : h.nft = none) (unmarked : Unmarked h.iptables)
    (failed : ((m.enable linuxBackend mode endpointIP endpointPort tunAddr).exec killAct
      (Script.Fated.start h fates)).1.1.isOk = false) :
    Restored h ((m.enable linuxBackend mode endpointIP endpointPort tunAddr).exec killAct
        (Script.Fated.start h fates)).2.state ↔
      ((Call.enable mode endpointIP endpointPort tunAddr).engages = true →
        let spec : Spec := ⟨endpointIP, endpointPort, tunAddr, m.lanAllowed⟩
        inserts spec (fates.drop 2) = false ∧
          ∀ hook, setsDropOn spec (fates.drop 2) hook = true →
            (h.iptables.chain hook).policy = .drop) := by
  have on := ne_off_of_failed failed
  have accepted : (Call.enable mode endpointIP endpointPort tunAddr).engages =
      (Manager.checkArgs endpointIP endpointPort tunAddr).isOk := by
    simp [Call.engages, decide_eq_true on]
  rw [accepted]
  rw [Manager.enable, if_neg on] at failed ⊢
  cases args : Manager.checkArgs endpointIP endpointPort tunAddr with
  | error err => exact iff_of_true ⟨fun _ => rfl, absent, unmarked⟩ nofun
  | ok u =>
    rw [args] at failed
    obtain ⟨result, -, chains, -, rest⟩ :=
      (ensures_enableChecked (w := Script.Fated.start h fates) m mode
      endpointIP endpointPort tunAddr unrecorded absent).exec
    have fails := result.symm.trans failed
    rw [show Except.isOk _ = false from failed, if_neg Bool.false_ne_true] at rest
    have iff := restored_left_iff rest.2 unmarked fails chains
    exact ⟨fun restored _ => iff.mp restored, fun spared => iff.mpr (spared rfl)⟩

section sample

def missing : Fate := .fails "executable file not found" none

def enableOpen (fates : List Fate) : (Except String Unit × Manager) × World :=
  ((Manager.new .single false).enable linuxBackend .alwaysOn "203.0.113.7" 51820 "10.7.0.2").exec
    killAct (Script.Fated.start openHost fates)

/-- Neither nft nor iptables is there: `Enable` fails and leaves all as it was. -/
theorem noTools_restores :
    (enableOpen [.works, missing, missing, missing]).1.1.isOk = false ∧
      Restored openHost (enableOpen [.works, missing, missing, missing]).2.state := by
  have failed : (enableOpen [.works, missing, missing, missing]).1.1.isOk = false := by
    decide
  refine ⟨failed, (refusedEnable_restores_iff
    (Manager.new .single false) .alwaysOn "203.0.113.7" 51820
    "10.7.0.2" openHost [.works, missing, missing, missing] rfl rfl unmarked_openHost failed).mpr
    ?_⟩
  intro _
  refine ⟨by decide, fun hook => ?_⟩
  cases hook <;> decide

/-- nft is not there, and iptables is. The rules are inserted, the block by nft fails, and
so does `Enable`; both policies stay at drop, and the five rules stay. -/
theorem withoutNft_cut_off :
    let result := enableOpen ([.works, missing, missing] ++ List.replicate 7 .works ++ [missing])
    result.1.1.isOk = false ∧
      (openHost.iptables.output.policy, openHost.iptables.input.policy) = (.accept, .accept) ∧
      (result.2.state.iptables.output.policy, result.2.state.iptables.input.policy) =
        (.drop, .drop) ∧
      (result.2.state.iptables.output.rules.length, result.2.state.iptables.input.rules.length) =
        (4, 2) := by
  decide

end sample

end VeilNet.Guarantees.IptablesResidue
