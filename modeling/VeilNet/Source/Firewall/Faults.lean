import VeilNet.Source.Firewall.Recovery

/-!
What `Enable` of the Linux backend leaves when commands fail. Rules of nftables are then replaced
by rules of iptables, and a block that fails is followed by `iptables -P .. DROP`, as the fates of
the commands have it. Removals, and whatever else undoes, always work.
-/
namespace VeilNet.Source.Firewall.Faults
open Lib
open Script (Fated ensures_of_only)

def undoes : Command → Bool
  | .os c => c.removes || match c with
    | .iptablesPolicy _ .accept => true
    | _ => false
  | .file (.remove _) => true
  | .file _ => false

/-- The kill switch of a failing attempt; commands that undo succeed. -/
def killAct : Machine Command.Reply World :=
  Script.fated .works fun fate c => Command.act (if undoes c then .works else fate) c

/-- The next `n` commands work. -/
def allWork : ℕ → List Fate → Bool
  | 0, _ => true
  | n + 1, fates => fates.headD .works = .works && allWork n fates.tail

/-- The fates that are left after `n` commands, or after the first that fails. -/
def remaining : ℕ → List Fate → List Fate
  | 0, fates => fates
  | n + 1, fates => if fates.headD .works = .works then remaining n fates.tail else fates.tail

/-- How many of the next `n` commands work before one fails. -/
def worked : ℕ → List Fate → ℕ
  | 0, _ => 0
  | n + 1, fates => if fates.headD .works = .works then worked n fates.tail + 1 else 0

/-- The chains of iptables after the commands that work, up to the first that fails. -/
def partly (cs : List OsCommand) (fates : List Fate) (f : Filter) : Filter :=
  (cs.take (worked cs.length fates)).foldl OsCommand.filter f

/-- The two commands with which `SetBlock` ends when it fails. -/
def closing (fates : List Fate) (f : Filter) : Filter :=
  let f := if allWork 1 fates then (OsCommand.iptablesPolicy .output .drop).filter f else f
  if allWork 1 fates.tail then (OsCommand.iptablesPolicy .input .drop).filter f else f

/-- The commands with which `Remove` asks for the rules of iptables. -/
def removals (names : List String) : List OsCommand :=
  names.flatMap Linux.deleteCommented ++ Linux.deleteCommented "veilnet-ks-fallback"

/-- The rule that has nothing but a comment. -/
def bare (name : String) : List String := ["-m", "comment", "--comment", name, "-j", "ACCEPT"]

theorem mem_removals {names : List String} {c : OsCommand} (member : c ∈ removals names) :
    ∃ hook name, (name ∈ names ∨ name = "veilnet-ks-fallback") ∧
      c = .iptablesDelete hook (bare name) := by
  have each : ∀ name, c ∈ Linux.deleteCommented name → ∃ hook,
      c = .iptablesDelete hook (bare name) := by
    intro name member
    rcases List.mem_cons.mp member with here | later
    · exact ⟨.output, here⟩
    · exact ⟨.input, List.mem_singleton.mp later⟩
  rcases List.mem_append.mp member with named | fallback
  · obtain ⟨name, among, here⟩ := List.mem_flatMap.mp named
    obtain ⟨hook, same⟩ := each name here
    exact ⟨hook, name, .inl among, same⟩
  · obtain ⟨hook, same⟩ := each _ fallback
    exact ⟨hook, _, .inr rfl, same⟩

def removed (names : List String) (f : Filter) : Filter := (removals names).foldl OsCommand.filter f

section course
variable (spec : Spec) (fates : List Fate)

def nftWorks : Bool := allWork (Linux.nftSteps spec).length fates

/-- The fates that the fallback meets. -/
def fallback : List Fate := remaining (Linux.nftSteps spec).length fates

def rulesWork : Bool :=
  nftWorks spec fates || allWork (Linux.iptablesSteps spec).length (fallback spec fates)

/-- The fates that `SetBlock` meets. -/
def blocking : List Fate :=
  if nftWorks spec fates then fallback spec fates
  else remaining (Linux.iptablesSteps spec).length (fallback spec fates)

/-- The rules and the block get in place. -/
def engages : Bool := rulesWork spec fates && allWork 3 (blocking spec fates)

/-- `iptables -P .. DROP` works: the first command of the fallback, or one of the two with which
`SetBlock` ends when it fails. -/
def setsDrop : Bool :=
  !nftWorks spec fates && allWork 1 (fallback spec fates) ||
    rulesWork spec fates && !allWork 3 (blocking spec fates) &&
      let last := remaining 3 (blocking spec fates)
      (allWork 1 last || allWork 1 last.tail)

/-- The policy of the chain is set to drop. -/
def setsDropOn : Hook → Bool
  | .output => !nftWorks spec fates && allWork 1 (fallback spec fates) ||
    rulesWork spec fates && !allWork 3 (blocking spec fates) &&
      allWork 1 (remaining 3 (blocking spec fates))
  | .input => !nftWorks spec fates && allWork 2 (fallback spec fates) ||
    rulesWork spec fates && !allWork 3 (blocking spec fates) &&
      allWork 1 (remaining 3 (blocking spec fates)).tail

/-- The chains of iptables after the rules. -/
def ruled (f : Filter) : Filter :=
  if nftWorks spec fates then f else partly (Linux.iptablesSteps spec) (fallback spec fates) f

/-- The chains of iptables after the rules and the block, and what is removed again. -/
def left (f : Filter) : Filter :=
  if engages spec fates then ruled spec fates f
  else removed (Linux.ruleNames spec)
    (if rulesWork spec fates then closing (remaining 3 (blocking spec fates)) (ruled spec fates f)
      else ruled spec fates f)

def written (dir : StateDir) : Bool :=
  engages spec fates && dir ≠ .homeless && allWork 1 (remaining 3 (blocking spec fates))

end course

section kill
variable {w : World} {s : Files Sentinel} {f : Filter}

variable {c : OsCommand}

/-- A command that does not undo works or fails as its fate has it. -/
theorem killAct_os (forward : undoes (.os c) = false) (w : World) :
    (killAct (.os c) w).2.fates = w.fates.tail ∧
      (w.fates.headD .works = .works ∧ (killAct (.os c) w).1 = (c.run w.state).1 ∧
          (killAct (.os c) w).2.state = (c.run w.state).2 ∨
        w.fates.headD .works ≠ .works ∧ (∃ err, (killAct (.os c) w).1 = .error err) ∧
          (killAct (.os c) w).2.state = w.state) := by
  refine ⟨rfl, ?_⟩
  simp only [killAct, Script.fated, forward, Bool.false_eq_true, if_false]
  cases w.fates.headD .works with
  | works => exact .inl ⟨rfl, rfl, rfl⟩
  | fails err left => exact .inr ⟨fun same => (by cases same), ⟨err, rfl⟩, rfl⟩

theorem killAct_removes (removes : c.removes = true) (w : World) :
    (killAct (.os c) w).2.state = (c.run w.state).2 := by
  have undo : undoes (.os c) = true := by simp [undoes, removes]
  simp [killAct, Script.fated, undo, Command.act]

theorem allWork_one {fates : List Fate} :
    allWork 1 fates = decide (fates.headD .works = .works) := by
  rw [allWork, allWork, Bool.and_true]

/-- The sentinel files and the chains of iptables. -/
structure Tracked (s : Files Sentinel) (f : Filter) (w : World) : Prop where
  sentinel : w.state.sentinel = s
  chains : w.state.iptables = f

theorem Tracked.run (tracked : Tracked s f w) {w' : World} (state : w'.state = (c.run w.state).2) :
    Tracked s (c.filter f) w' := by
  obtain ⟨sentinel, chains⟩ := tracked
  exact ⟨by rw [state, sentinel_run, sentinel], by rw [state, iptables_eq_filter, chains]⟩

theorem Tracked.same (tracked : Tracked s f w) {w' : World} (state : w'.state = w.state) :
    Tracked s f w' :=
  ⟨state ▸ tracked.sentinel, state ▸ tracked.chains⟩

/-- A command that does not undo has its effect unless it fails. -/
theorem Tracked.forward (tracked : Tracked s f w) (forward : undoes (.os c) = false) :
    Tracked s (if allWork 1 w.fates then c.filter f else f) (killAct (.os c) w).2 := by
  rw [allWork_one]
  obtain ⟨-, ⟨worked, -, state⟩ | ⟨failed, -, state⟩⟩ := killAct_os forward w
  · rw [if_pos (decide_eq_true worked)]
    exact tracked.run state
  · rw [decide_eq_false failed, if_neg Bool.false_ne_true]
    exact tracked.same state

def afterStep (rest : List OsCommand) : Except String String → Fw (Except String Unit)
  | .error err => pure (.error err)
  | .ok _ => runSteps rest

variable {cs : List OsCommand}

/-- The loop over commands that can all be carried out stops at the first that fails. -/
theorem ensures_runSteps (forward : ∀ c ∈ cs, undoes (.os c) = false)
    (fine : (runSteps cs).Ends works (fun r _ => r = .ok ()) w.state) (tracked : Tracked s f w) :
    (runSteps cs).Ends killAct
      (fun r w' => r.isOk = allWork cs.length w.fates ∧ w'.fates = remaining cs.length w.fates ∧
        Tracked s (partly cs w.fates f) w') w := by
  induction cs generalizing w f with
  | nil => exact ⟨trivial, rfl, rfl, tracked⟩
  | cons c rest ih =>
    obtain ⟨here, later⟩ := List.forall_mem_cons.mp forward
    obtain ⟨fates, run⟩ := killAct_os here w
    refine Script.Ensures.step trivial ?_
    have next : (afterStep rest (c.run w.state).1).Ends works (fun r _ => r = .ok ())
        (c.run w.state).2 := fine.2
    rcases run with ⟨worked, reply, state⟩ | ⟨failed, ⟨err, reply⟩, state⟩
    · rw [reply]
      cases out : (c.run w.state).1 with
      | error err =>
        rw [out] at next
        cases next.2
      | ok text =>
        rw [out, ← state] at next
        simp only [partly, List.length_cons, allWork, remaining, Faults.worked, worked, decide_true,
          Bool.true_and, if_true, List.take_succ_cons, List.foldl_cons]
        rw [← fates]
        exact ih later next (tracked.run state)
    · rw [reply]
      simp only [partly, List.length_cons, allWork, remaining, Faults.worked, failed, decide_false,
        Bool.false_and, if_false, List.take_zero, List.foldl_nil]
      exact ⟨trivial, rfl, fates, tracked.same state⟩

theorem undoes_of_tightens (tightens : c.tightens = true) : undoes (.os c) = false := by
  cases c with
  | iptablesPolicy hook policy => cases policy <;> first | rfl | cases tightens
  | nftList | nftAddTable | nftAddChain | nftAddRule | nftDelete | iptablesInsert | iptablesDelete
  | netshAdd | netshDelete | netshPolicy | netshShow => first | rfl | cases tightens

theorem foldl_filter_of_fixed (fixed : ∀ c ∈ cs, c.filter f = f) :
    cs.foldl OsCommand.filter f = f := by
  induction cs with
  | nil => rfl
  | cons c rest ih =>
    obtain ⟨here, later⟩ := List.forall_mem_cons.mp fixed
    rw [List.foldl_cons, here, ih later]

theorem ensures_nft (spec : Spec) (tracked : Tracked s f w) :
    (Linux.enableNft spec).Ends killAct
      (fun r w' => r.isOk = nftWorks spec w.fates ∧ w'.fates = fallback spec w.fates ∧
      Tracked s f w') w := by
  have other : ∀ c ∈ Linux.nftSteps spec, c.filter f = f := by
    cases lan : spec.lanAllowed <;> simp [Linux.nftSteps, lan, OsCommand.filter]
  have unchanged : partly (Linux.nftSteps spec) w.fates f = f :=
    foldl_filter_of_fixed fun c member => other c (List.mem_of_mem_take member)
  have ran := ensures_runSteps (w := w)
    (fun c member => undoes_of_tightens (Linux.tightens_nftSteps spec c member))
    ((Linux.ensures_enableNft spec w.state).mono (fun _ h => h) fun _ _ _ h => h.1) tracked
  rw [unchanged] at ran
  exact ran

theorem ensures_iptablesSteps (spec : Spec) (h : Host) :
    (Linux.enableIptables spec).Ends works (fun r _ => r = .ok ()) h := by
  have accepted : ∀ c ∈ Linux.iptablesSteps spec, ∀ h : Host, True →
      (∃ out, (c.run h).1 = .ok out) ∧ True := by
    cases lan : spec.lanAllowed <;> simp [Linux.iptablesSteps, Linux.commented, lan, OsCommand.run]
  exact (ensures_accepted accepted trivial).ends fun _ _ _ h => h.1

theorem ensures_iptables (spec : Spec) (tracked : Tracked s f w) :
    (Linux.enableIptables spec).Ends killAct
      (fun r w' => r.isOk = allWork (Linux.iptablesSteps spec).length w.fates ∧
        w'.fates = remaining (Linux.iptablesSteps spec).length w.fates ∧
        Tracked s (partly (Linux.iptablesSteps spec) w.fates f) w') w :=
  ensures_runSteps (fun c member => undoes_of_tightens (Linux.tightens_iptablesSteps spec c member))
    (ensures_iptablesSteps spec w.state) tracked

/-- The rules of `Enable`, with nftables or else with iptables. -/
theorem ensures_rules (spec : Spec) (tracked : Tracked s f w) :
    (Linux.enable spec).Ends killAct
      (fun r w' => r.isOk = rulesWork spec w.fates ∧ w'.fates = blocking spec w.fates ∧
        Tracked s (ruled spec w.fates f) w') w := by
  refine (ensures_nft spec tracked).seq ?_
  rintro nft w' - ⟨result, fates, tracked⟩
  rw [rulesWork, blocking, ruled, ← result]
  cases nft with
  | ok => exact ⟨trivial, rfl, fates, tracked⟩
  | error err =>
    refine (ensures_iptables spec tracked).seq ?_
    rintro iptables w' - ⟨result, fates', tracked⟩
    rw [fates] at result fates' tracked
    cases iptables <;> exact ⟨trivial, result, fates', tracked⟩

/-- `SetBlock`: at the first failure, both policies are set. -/
theorem ensures_block (tracked : Tracked s f w) :
    Linux.setBlock.Ends killAct (fun r w' => r.isOk = allWork 3 w.fates ∧
        if r.isOk then w'.fates = remaining 3 w.fates ∧ Tracked s f w'
        else Tracked s (closing (remaining 3 w.fates) f) w') w := by
  let steps : List OsCommand := [.nftAddTable, .nftAddChain .output, .nftAddChain .input]
  have fine : (runSteps steps).Ends works (fun r _ => r = .ok ()) w.state :=
    ⟨trivial, trivial, trivial, trivial, rfl⟩
  have other : ∀ c ∈ steps, c.filter f = f := by simp [steps, OsCommand.filter]
  have unchanged : partly steps w.fates f = f :=
    foldl_filter_of_fixed fun c member => other c (List.mem_of_mem_take member)
  rw [Linux.setBlock, Linux.setBlockFrom_eq]
  refine (ensures_runSteps (by decide) fine tracked).seq ?_
  rintro res w' - ⟨result, fates, tracked⟩
  rw [unchanged] at tracked
  cases res with
  | ok => exact ⟨trivial, result, fates, tracked⟩
  | error err =>
    have output := tracked.forward (c := .iptablesPolicy .output .drop) rfl
    have both := output.forward (c := .iptablesPolicy .input .drop) rfl
    rw [← show w'.fates = remaining 3 w.fates from fates]
    exact ⟨trivial, trivial, trivial, result, both⟩

/-- Removals always work. -/
theorem ensures_runAll (removes : ∀ c ∈ cs, c.removes = true)
    (tracked : Tracked s f w) (absent : w.state.nft = none) :
    (runAll cs).Ends killAct
      (fun _ w' => w'.state.nft = none ∧ Tracked s (cs.foldl OsCommand.filter f) w') w := by
  induction cs generalizing w f with
  | nil => exact ⟨trivial, absent, tracked⟩
  | cons c rest ih =>
    obtain ⟨here, later⟩ := List.forall_mem_cons.mp removes
    have state := killAct_removes here w
    refine Script.Ensures.step trivial (ih later (tracked.run state) ?_)
    rw [state]
    rcases nft_removes (h := w.state) here with same | gone
    · exact same.trans absent
    · exact gone

theorem ensures_remove (names : List String) (tracked : Tracked s f w) :
    (Linux.remove names).Ends killAct
      (fun _ w => w.state.nft = none ∧ Tracked s (removed names f) w) w := by
  have state := killAct_removes (c := .nftDelete) rfl w
  have gone : (killAct (.os .nftDelete) w).2.state.nft = none := by
    rw [state]
    simp only [OsCommand.run]
    split
    · assumption
    · rfl
  have removes : ∀ c ∈ removals names, c.removes = true := by
    intro c member
    obtain ⟨_, _, _, rfl⟩ := mem_removals member
    rfl
  refine Script.Ensures.step trivial ((ensures_runAll removes (tracked.run state) gone).seq ?_)
  exact fun _ w _ h => ⟨trivial, h⟩

theorem ensures_engage (spec : Spec) (tracked : Tracked s f w) :
    (Manager.engage linuxBackend spec).Ends killAct
      (fun r w' => r.isOk = engages spec w.fates ∧ Tracked s (left spec w.fates f) w' ∧
        if r.isOk then w'.fates = remaining 3 (blocking spec w.fates) else w'.state.nft = none)
          w := by
  refine (ensures_rules spec tracked).seq ?_
  rintro rules w' - ⟨ruled, fates, tracked⟩
  rw [left, engages, ← ruled]
  cases rules with
  | error err =>
    refine (ensures_remove _ tracked).seq ?_
    rintro _ w' - ⟨away, tracked⟩
    exact ⟨trivial, rfl, tracked, away⟩
  | ok =>
    refine (ensures_block tracked).seq ?_
    rintro block w' - ⟨result, rest⟩
    rw [fates] at result rest
    rw [← result]
    cases block with
    | error err =>
      refine (ensures_remove _ rest).seq ?_
      rintro _ w' - ⟨away, tracked⟩
      exact ⟨trivial, rfl, tracked, away⟩
    | ok => exact ⟨trivial, rfl, rest.2, rest.1⟩

end kill

section policies
variable {f : Filter} {fates : List Fate} {hook : Hook}

theorem le_worked_iff {k n : ℕ} : k ≤ worked n fates ↔ k ≤ n ∧ allWork k fates = true := by
  induction n generalizing k fates with
  | zero => cases k <;> simp [allWork, worked]
  | succ n ih =>
    cases k with
    | zero => simp [allWork]
    | succ k =>
      simp only [worked, allWork]
      split
      · next works =>
        rw [decide_eq_true works, Bool.true_and, Nat.add_le_add_iff_right, Nat.add_le_add_iff_right,
          ih]
      · next fails =>
        rw [decide_eq_false fails, Bool.false_and]
        simp

theorem chain_set {c : Chain} {hook' : Hook} :
    (f.set c hook).chain hook' = if hook' = hook then c else f.chain hook' := by
  cases hook <;> cases hook' <;> rfl

theorem policy_foldl {cs : List OsCommand}
    (other : ∀ c ∈ cs, ∀ hook policy, c ≠ .iptablesPolicy hook policy) :
    ((cs.foldl OsCommand.filter f).chain hook).policy = (f.chain hook).policy := by
  induction cs generalizing f with
  | nil => rfl
  | cons c rest ih =>
    obtain ⟨here, later⟩ := List.forall_mem_cons.mp other
    rw [List.foldl_cons, ih later, policy_filter here]

/-- The fallback sets both policies, and then inserts rules, the first into OUTPUT. -/
theorem iptablesSteps_eq (spec : Spec) : ∃ rule rest,
    Linux.iptablesSteps spec = .iptablesPolicy .output .drop :: .iptablesPolicy .input .drop ::
      .iptablesInsert .output rule :: rest ∧
    ∀ c ∈ rest, ∃ hook rule, c = .iptablesInsert hook rule := by
  refine ⟨_, _, rfl, ?_⟩
  cases lan : spec.lanAllowed <;> simp [Linux.commented]

/-- The place of the policy among the commands of the fallback. -/
def turn : Hook → ℕ
  | .output => 1
  | .input => 2

theorem policy_partly (spec : Spec) :
    ((partly (Linux.iptablesSteps spec) fates f).chain hook).policy =
      if allWork (turn hook) fates then .drop else (f.chain hook).policy := by
  obtain ⟨rule, rest, steps, inserts⟩ := iptablesSteps_eq spec
  have reached : allWork (turn hook) fates = true ↔
      turn hook ≤ worked (Linux.iptablesSteps spec).length fates := by
    rw [le_worked_iff, and_iff_right]
    rw [steps]
    cases hook <;> simp [turn]
  simp only [reached, partly, steps]
  rcases worked _ fates with _ | _ | k
  · cases hook <;> rfl
  · cases hook <;> rfl
  · have other : ∀ c ∈ (.iptablesInsert .output rule :: rest).take k,
        ∀ hook policy, c ≠ .iptablesPolicy hook policy := by
      intro c member hook policy same
      rcases List.mem_cons.mp (List.mem_of_mem_take member) with first | later
      · cases first.symm.trans same
      · obtain ⟨_, _, insert⟩ := inserts c later
        cases insert.symm.trans same
    rw [List.take_succ_cons, List.take_succ_cons, List.foldl_cons, List.foldl_cons,
      policy_foldl other]
    cases hook <;> simp [turn, OsCommand.filter, chain_set]

theorem policy_ruled (spec : Spec) :
    ((ruled spec fates f).chain hook).policy =
      if !nftWorks spec fates && allWork (turn hook) (fallback spec fates) then .drop
      else (f.chain hook).policy := by
  unfold ruled
  cases nftWorks spec fates with
  | true => rfl
  | false => exact policy_partly spec

theorem policy_closing :
    ((closing fates f).chain hook).policy =
      if allWork 1 (match hook with | .output => fates | .input => fates.tail) then .drop
      else (f.chain hook).policy := by
  cases hook <;> cases first : allWork 1 fates <;> cases second : allWork 1 fates.tail <;>
    simp [closing, first, second, OsCommand.filter, chain_set]

theorem policy_removed (names : List String) :
    ((removed names f).chain hook).policy = (f.chain hook).policy := by
  apply policy_foldl
  intro c member hook policy same
  obtain ⟨_, _, _, delete⟩ := mem_removals member
  rw [delete] at same
  cases same

/-- Whether or not `Enable` succeeds, it leaves the policy of a chain or sets it to drop. -/
theorem policy_left (spec : Spec) (hook : Hook) :
    ((left spec fates f).chain hook).policy =
      if setsDropOn spec fates hook then .drop else (f.chain hook).policy := by
  have ruled : ((ruled spec fates f).chain hook).policy = _ := policy_ruled spec
  unfold left engages
  cases rules : rulesWork spec fates with
  | false =>
    rw [Bool.false_and, if_neg Bool.false_ne_true, if_neg Bool.false_ne_true, policy_removed, ruled]
    cases hook <;> simp [setsDropOn, rules, turn]
  | true =>
    cases block : allWork 3 (blocking spec fates) with
    | true =>
      rw [Bool.true_and, if_pos rfl, ruled]
      cases hook <;> simp [setsDropOn, rules, block, turn]
    | false =>
      rw [Bool.and_false, if_neg Bool.false_ne_true, if_pos rfl, policy_removed, policy_closing,
        ruled]
      cases hook with
      | output =>
        simp only [setsDropOn, rules, block, turn, Bool.not_false, Bool.true_and]
        cases allWork 1 (remaining 3 (blocking spec fates)) <;> simp
      | input =>
        simp only [setsDropOn, rules, block, turn, Bool.not_false, Bool.true_and]
        cases allWork 1 (remaining 3 (blocking spec fates)).tail <;> simp

end policies

section drops
variable {w : World} {drop : Bool} {f : Filter}

/-- Some chain of iptables drops by default. -/
def dropsByDefault (h : Host) : Bool :=
  h.iptables.output.policy = .drop || h.iptables.input.policy = .drop

/-- Nothing is on record, and iptables drops or not. -/
structure Holding (drop : Bool) (w : World) : Prop where
  empty : w.state.sentinel = Files.empty
  drops : dropsByDefault w.state = drop

/-- Where no chain dropped before, one does exactly if a policy is set. -/
theorem dropsByDefault_left {h h' : Host} {spec : Spec} {fates : List Fate}
    (before : dropsByDefault h = false) (chains : h'.iptables = left spec fates h.iptables) :
    dropsByDefault h' = setsDrop spec fates := by
  have output : h'.iptables.output.policy =
      if setsDropOn spec fates .output then .drop else h.iptables.output.policy := by
    rw [chains]
    exact policy_left spec .output
  have input : h'.iptables.input.policy =
      if setsDropOn spec fates .input then .drop else h.iptables.input.policy := by
    rw [chains]
    exact policy_left spec .input
  have either : setsDrop spec fates =
      (setsDropOn spec fates .output || setsDropOn spec fates .input) := by
    have second : allWork 2 (fallback spec fates) = true →
        allWork 1 (fallback spec fates) = true := by
      simp only [allWork, Bool.and_true, Bool.and_eq_true]
      exact And.left
    simp only [setsDrop, setsDropOn]
    grind
  simp only [dropsByDefault, Bool.or_eq_false_iff, decide_eq_false_iff_not] at before
  rw [dropsByDefault, output, input, either]
  cases setsDropOn spec fates .output <;> cases setsDropOn spec fates .input <;> simp [before]

/-- The sentinel is there or not, and iptables drops or not. -/
structure Enabled (dir : StateDir) (drop written : Bool) (h : Host) : Prop where
  drops : dropsByDefault h = drop
  legacy : h.sentinel.legacy = none
  recorded : written = true → Recorded .linux (.linux none none .accept .accept) dir h
  unloaded : written = false → h.sentinel.load dir.paths = none

theorem Holding.enabled (holding : Holding drop w) (dir : StateDir) :
    Enabled dir drop false w.state :=
  ⟨holding.drops, by rw [holding.empty]; rfl, nofun,
    fun _ => by rw [holding.empty, Files.load_empty]⟩

theorem ensures_writeSentinel (m : Manager) {s : Sentinel} (rules : s.rules ≠ [])
    (policy : s.policy = "accept") (holding : Holding drop w) :
    (m.writeSentinel s).Ends killAct (fun _ w' => w'.state.iptables = w.state.iptables ∧
        Enabled m.dir drop (m.dir ≠ .homeless && allWork 1 w.fates) w'.state) w := by
  unfold Manager.writeSentinel
  by_cases home : m.dir = .homeless
  · have paths : m.sentinelPaths = [] := by rw [Manager.sentinelPaths, home]; rfl
    rw [paths]
    exact ⟨trivial, rfl, by simpa [home] using holding.enabled m.dir⟩
  · obtain ⟨rest, paths⟩ := StateDir.paths_of_located home
    rw [Manager.sentinelPaths, paths]
    have sentinel : (killAct (.file (.write .primary s)) w).2.state.sentinel =
        ((FileOp.write .primary s).act (w.fates.headD .works) Files.empty).2 := by
      simp [killAct, Script.fated, undoes, Command.act, holding.empty]
    refine ⟨trivial, trivial, rfl, ?_⟩
    rw [allWork_one, decide_eq_true home, Bool.true_and]
    refine ⟨holding.drops, ?_, fun recorded => ?_, fun unrecorded => ?_⟩
    · rw [sentinel]
      cases w.fates.headD .works with
      | works => rfl
      | fails err left => cases left <;> rfl
    · rw [of_decide_eq_true recorded] at sentinel
      refine ⟨restoring_linux, s, ?_, rules, policy⟩
      rw [sentinel, paths]
      rfl
    · have failed := of_decide_eq_false unrecorded
      rw [sentinel]
      cases fate : w.fates.headD .works with
      | works => exact absurd fate failed
      | fails err left =>
        cases left with
        | none => exact Files.load_empty _
        | some text => cases m.dir <;> rfl

theorem ensures_removeStale (m : Manager) (empty : w.state.sentinel = Files.empty) :
    (m.removeStale linuxBackend).Ends killAct
      (fun _ w' => w'.state = w.state ∧ w'.fates = w.fates.tail) w := by
  have found : (killAct (.file (.load m.sentinelPaths)) w).1 = none := by
    simp [killAct, Script.fated, Command.act, empty, FileOp.act, Files.load_empty]
  refine Script.Ensures.step trivial ?_
  rw [found]
  exact ⟨trivial, rfl, rfl⟩

/-- A table that is not there cannot be listed, whether or not nft works. -/
theorem ensures_currentPolicy_absent {sentinel : Files Sentinel} (tracked : Tracked sentinel f w)
    (absent : w.state.nft = none) :
    Linux.currentPolicy.Ends killAct
      (fun r w' => r = .ok "accept" ∧ Tracked sentinel f w' ∧ w'.fates = w.fates.tail) w := by
  obtain ⟨looked, run⟩ := killAct_os (c := .nftList) rfl w
  have unlisted : ∃ err, (killAct (.os .nftList) w).1 = .error err := by
    rcases run with ⟨-, reply, -⟩ | ⟨-, failed, -⟩
    · exact ⟨exitStatus, by rw [reply]; simp [OsCommand.run, absent]⟩
    · exact failed
  obtain ⟨err, unlisted⟩ := unlisted
  have kept := tracked.forward (c := .nftList) rfl
  rw [show OsCommand.nftList.filter f = f from rfl, ite_self] at kept
  refine Script.Ensures.step trivial ?_
  rw [unlisted]
  exact ⟨trivial, rfl, kept, looked⟩

/-- `Enable` on a machine without a table and without a sentinel. The first two commands look
for them, so their fates do not matter. -/
theorem ensures_enableChecked (m : Manager) (mode : Mode) (endpointIP : String) (endpointPort : ℤ)
    (tunAddr : String) (empty : w.state.sentinel = Files.empty) (absent : w.state.nft = none) :
    (m.enableChecked linuxBackend mode endpointIP endpointPort tunAddr).Ends killAct (fun r w' =>
        let spec : Spec := ⟨endpointIP, endpointPort, tunAddr, m.lanAllowed⟩
        let fates := w.fates.drop 2
        r.1.isOk = engages spec fates ∧ r.2.dir = m.dir ∧
          w'.state.iptables = left spec fates w.state.iptables ∧
          Enabled m.dir (dropsByDefault w'.state) (written spec fates m.dir) w'.state ∧
          if r.1.isOk then r.2.active = true else r.2.active = m.active ∧ w'.state.nft = none)
            w := by
  refine (ensures_removeStale m empty).seq ?_
  rintro _ w₁ - ⟨state, fates⟩
  have tracked : Tracked Files.empty w.state.iptables w₁ := ⟨state ▸ empty, state ▸ rfl⟩
  refine (ensures_currentPolicy_absent tracked (state ▸ absent)).seq ?_
  rintro _ w₂ - ⟨rfl, tracked, fates'⟩
  have dropped : w₂.fates = w.fates.drop 2 := by
    rw [fates', fates, ← List.drop_one, ← List.drop_one, List.drop_drop]
  refine (ensures_engage _ tracked).seq ?_
  rintro res w₃ - ⟨result, tracked, rest⟩
  rw [dropped] at result tracked rest
  have holding : Holding (dropsByDefault w₃.state) w₃ := ⟨tracked.sentinel, rfl⟩
  cases res with
  | error err =>
    have unwritten : written ⟨endpointIP, endpointPort, tunAddr, m.lanAllowed⟩
        (w.fates.drop 2) m.dir = false := by rw [written, ← result]; rfl
    exact ⟨trivial, result, rfl, tracked.chains, by rw [unwritten]; exact holding.enabled _, rfl,
      rest⟩
  | ok =>
    refine (ensures_writeSentinel m (Platform.ruleNames_ne_nil .linux _) rfl holding).seq ?_
    rintro _ w₄ - ⟨chains, enabled⟩
    have drops : dropsByDefault w₄.state = dropsByDefault w₃.state := by
      unfold dropsByDefault
      rw [chains]
    refine ⟨trivial, result, rfl, chains.trans tracked.chains, ?_, rfl⟩
    rw [written, ← result, drops]
    rw [show w₃.fates = _ from rest] at enabled
    exact enabled

end drops

/-- A chain of the table or of iptables drops by default. -/
def dropping (h : Host) : Bool :=
  h.nftPolicy .output = some .drop || h.nftPolicy .input = some .drop || dropsByDefault h

section lift
variable {dir : StateDir} {drop written : Bool} {h : Host} {m : Manager}

theorem Enabled.unrecorded (enabled : Enabled dir drop false h) :
    Unrecorded dir (fun hook => (h.iptables.chain hook).policy) h :=
  ⟨enabled.legacy, enabled.unloaded rfl, fun _ => rfl⟩

theorem dropping_of_unrecorded {h' : Host} (nft : h'.nft = none)
    (unrecorded : Unrecorded dir (fun hook => (h.iptables.chain hook).policy) h') :
    dropping h' = dropsByDefault h := by
  have output : h'.iptables.output.policy = h.iptables.output.policy := unrecorded.policies .output
  have input : h'.iptables.input.policy = h.iptables.input.policy := unrecorded.policies .input
  simp [dropping, Host.nftPolicy, nft, dropsByDefault, output, input]

theorem dropping_of_defaults (same : h.defaults .linux = .linux none none .accept .accept) :
    dropping h = false := by
  simp only [Host.defaults, Defaults.linux.injEq] at same
  simp [dropping, dropsByDefault, same]

/-- `Disable`, once or twice, leaves the policies of iptables only without a sentinel. -/
theorem dropping_disable (enabled : Enabled m.dir drop written h)
    (idle : m.active = false → h.nft = none ∧ written = false) :
    let once := (m.disable linuxBackend).exec works h
    let twice := (once.1.2.disable linuxBackend).exec works once.2
    dropping once.2 = (drop && !written) ∧ dropping twice.2 = (drop && !written) := by
  intro once twice
  cases written with
  | true =>
    have recorded := enabled.recorded rfl
    have kept : Kept .linux (.linux none none .accept .accept) m.dir h :=
      ⟨enabled.legacy, .inl recorded⟩
    obtain ⟨first, kept, same⟩ := (ensures_disable kept fun _ => recorded).exec
    have second : Kept .linux (.linux none none .accept .accept) once.1.2.dir once.2 := by
      rw [show once.1 = _ from first]
      exact kept
    have inactive : once.1.2.active = false := by rw [show once.1 = _ from first]
    obtain ⟨-, -, same'⟩ := (ensures_disable second fun active => by
      rw [inactive] at active
      cases active).exec
    rw [Bool.not_true, Bool.and_false]
    exact ⟨dropping_of_defaults same, dropping_of_defaults same'⟩
  | false =>
    obtain ⟨first, unrecorded, nft⟩ := (ensures_disable_unrecorded enabled.unrecorded).exec
    have gone : once.2.nft = none := by
      rw [show once.2.nft = _ from nft]
      cases active : m.active with
      | true => rfl
      | false => exact (idle active).1
    have second : Unrecorded once.1.2.dir (fun hook => (h.iptables.chain hook).policy) once.2 := by
      rw [show once.1 = _ from first]
      exact unrecorded
    obtain ⟨-, unrecorded', nft'⟩ := (ensures_disable_unrecorded second).exec
    have gone' : twice.2.nft = none := by
      rw [show twice.2.nft = _ from nft', gone, ite_self]
    rw [Bool.not_false, Bool.and_true, ← enabled.drops]
    exact ⟨dropping_of_unrecorded gone unrecorded, dropping_of_unrecorded gone' unrecorded'⟩

end lift

end VeilNet.Source.Firewall.Faults
