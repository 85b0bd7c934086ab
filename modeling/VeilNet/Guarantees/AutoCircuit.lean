import VeilNet.Guarantees.StickyGuard

/-!
# The ends of an automatic circuit

`AutoCircuitHops` puts its picks in front of the connected node and repairs the path by dropping
the second. So the first pick, which alone looks at the entry region, becomes the middle of three
hops, and of two hops that cannot be told apart the exit is dropped.
-/
namespace VeilNet.Guarantees.AutoCircuit
open Lib Source Source.Client

variable {F : Type} [GoFloatDiff F] {codec : Multihop.Codec} {first exit : NodeInfo F}
  {nodes rest kept : List (NodeInfo F)}

/-- Only a second node that cannot stay next to the first is dropped at last. -/
theorem rejected_of_separate (separated : separate codec first rest = .ok [first])
    (last : rest.getLast? = some exit) : ¬ Accepted codec [first, exit] := by
  induction rest with
  | nil => cases last
  | cons second rest ih =>
    rw [separate] at separated
    split at separated
    · cases separated
    · next rejected =>
      cases rest with
      | nil =>
        obtain rfl : second = exit := by simpa using last
        intro accepted
        simp [checkRoute_ok_iff.mpr accepted] at rejected
      | cons third rest => exact ih separated (by simpa using last)

theorem autoCircuitHops_ok {a : App F} {call : AutoBuilding F}
    (success : (a.autoCircuitHops codec call).1 = none) :
    ∃ path, planAuto codec a.cfg a.nodes a.currentID call = .ok path ∧
      (a.autoCircuitHops codec call).2 = a.setCircuit path call.clock := by
  unfold App.autoCircuitHops at success ⊢
  split at success
  · cases success
  · next path planned => exact ⟨path, planned, rfl⟩

theorem hopCount_eq (n : ℤ) : (hopCount n : ℤ) = if n ≤ 0 then 2 else min n 3 := by
  unfold hopCount
  split_ifs <;> omega

/-- The entry that is picked, if any, can stay next to the exit. -/
def ExitStays (codec : Multihop.Codec) (a : App F) (call : AutoBuilding F) : Prop :=
  ∀ exit nodes entry middle, findNode a.nodes (call.look 0) a.currentID = .ok exit →
    listNodes a.nodes (call.look 1) = .ok nodes →
    growPath a.cfg.selectPolicy nodes a.cfg.entryRegion (hopCount call.hops - 1) [a.currentID]
      [exit] = entry :: (middle ++ [exit]) → Accepted codec [entry, exit]

/-- The recorded path is accepted and not too long. It ends at the connected node, with two hops
if so many are asked for, exactly when the picked entry can stay next to that node. -/
theorem auto_ends_iff (codec : Multihop.Codec) (a : App F) (call : AutoBuilding F)
    (success : (a.autoCircuitHops codec call).1 = none) :
    ∃ path, planAuto codec a.cfg a.nodes a.currentID call = .ok path ∧
      (a.autoCircuitHops codec call).2 = a.setCircuit path call.clock ∧
      (path.length : ℤ) ≤ (if call.hops ≤ 0 then 2 else min call.hops 3) ∧ Accepted codec path ∧
      (path.getLast?.map NodeInfo.nodeID = some a.currentID ∧ (2 ≤ call.hops → 2 ≤ path.length) ↔
        ExitStays codec a call) := by
  obtain ⟨path, planned, recorded⟩ := autoCircuitHops_ok success
  obtain ⟨exit, nodes, first, rest, found, listed, grown, alone, separated⟩ := of_planAuto planned
  obtain ⟨accepted, kept, rfl, suffix⟩ := of_separate separated
  obtain ⟨front, whole, few, fresh⟩ := growPath_spec a.cfg.selectPolicy nodes a.cfg.entryRegion
    (hopCount call.hops - 1) [a.currentID] [exit]
  have named : exit.nodeID = a.currentID := (of_findNode found).1
  rw [whole] at grown
  refine ⟨_, planned, recorded, ?_, accepted, ?_⟩
  · have short := suffix.length_le
    have total := congrArg List.length grown
    simp only [List.length_append, List.length_cons, List.length_nil] at total ⊢
    rw [← hopCount_eq]
    unfold hopCount at few ⊢
    split_ifs at few ⊢ <;> omega
  · cases front with
    | nil =>
      obtain ⟨rfl, rfl⟩ : exit = first ∧ rest = [] := by simpa using grown
      obtain rfl : kept = [] := by simpa using suffix
      have one := hopCount_eq call.hops
      have least := alone rfl
      refine ⟨fun _ => ?_, fun _ => ⟨by simp [named], by split_ifs at one <;> omega⟩⟩
      intro exit' nodes' entry middle found' listed' grown'
      cases found.symm.trans found'
      cases listed.symm.trans listed'
      simp [whole] at grown'
    | cons entry middle =>
      obtain ⟨rfl, rfl⟩ : entry = first ∧ middle ++ [exit] = rest := by simpa using grown
      rcases kept with _ | ⟨second, kept⟩
      · -- The exit was dropped, so it could not stay.
        have rejected : ¬ Accepted codec [entry, exit] := rejected_of_separate separated (by simp)
        refine ⟨fun ends => ?_, fun stays => absurd (stays _ _ _ _ found listed whole) rejected⟩
        have same : entry.nodeID = a.currentID := by simpa using ends.1
        exact absurd (fresh entry List.mem_cons_self).2 (by simp [same])
      · have ends : (second :: kept).getLast? = some exit := by
          rw [List.getLast?_eq_some_getLast (List.cons_ne_nil _ _),
            suffix.getLast (List.cons_ne_nil _ _)]
          simp
        refine ⟨fun _ => ?_, fun _ => ⟨by simp [List.getLast?_cons_cons, ends, named], by simp⟩⟩
        intro exit' nodes' entry' middle' found' listed' grown'
        cases found.symm.trans found'
        cases listed.symm.trans listed'
        obtain ⟨rfl, _⟩ : entry = entry' ∧ _ := by simpa [whole] using grown'
        refine accepted.sublist (.cons_cons _ ?_) (List.cons_ne_nil _ _)
        exact List.singleton_sublist.mpr (List.mem_of_getLast? ends)

/-- The second pick of `AutoCircuitHops(3)`, if any, lies in the entry region too. -/
def NextInRegion (a : App F) (nodes : List (NodeInfo F)) : Prop :=
  ∀ pick, bestExcept a.cfg.selectPolicy nodes [a.currentID] a.cfg.entryRegion = .ok pick →
    ∀ next, bestExcept a.cfg.selectPolicy nodes [pick.nodeID, a.currentID] "" = .ok next →
    next.region = a.cfg.entryRegion

theorem nil_of_bestOf {α : Type} {rate : α → F} {l : List α} (none : bestOf rate l = none) :
    l = [] := by
  cases l with
  | nil => rfl
  | cons => cases none

theorem bestExcept_region {policy : SelectPolicy} {exclude : List String} {region : String}
    (configured : region ≠ "") {n : NodeInfo F} (member : n ∈ nodes) (fresh : n.nodeID ∉ exclude)
    (eligible : n.eligible = true) (there : n.region = region) :
    ∃ pick, bestExcept policy nodes exclude region = .ok pick ∧ pick.region = region := by
  have candidate : n ∈ nodes.filter fun n =>
      decide (n.nodeID ∉ exclude) && n.eligible && (region = "" || n.region = region) := by
    simp [member, fresh, eligible, there]
  cases best : bestIn policy nodes exclude region with
  | none =>
    rw [nil_of_bestOf best] at candidate
    cases candidate
  | some pick =>
    have inside := (List.mem_filter.mp (mem_of_bestOf best)).2
    simp only [Bool.and_eq_true, Bool.or_eq_true, decide_eq_true_eq, configured, false_or] at inside
    exact ⟨pick, by simp [bestExcept, best], inside.2⟩

theorem growPath_pick {policy : SelectPolicy} {wantEntry : String} {exclude : List String} {k : ℕ}
    {path : List (NodeInfo F)} {next : NodeInfo F}
    (picked : bestExcept policy nodes exclude (if path.length = 1 then wantEntry else "") =
      .ok next) :
    growPath policy nodes wantEntry (k + 1) exclude path =
      growPath policy nodes wantEntry k (next.nodeID :: exclude) (next :: path) := by
  rw [growPath, picked]

/-- With a node of the entry region to pick, the recorded path starts there exactly when two
hops are asked for, or the second pick lies there too. -/
theorem entry_in_region_iff (codec : Multihop.Codec) (a : App F) (call : AutoBuilding F)
    (nodes : List (NodeInfo F)) (listed : listNodes a.nodes (call.look 1) = .ok nodes)
    (configured : a.cfg.entryRegion ≠ "")
    (there : ∃ n ∈ nodes, n.nodeID ≠ a.currentID ∧ n.eligible = true ∧ n.region = a.cfg.entryRegion)
    (count : call.hops = 2 ∨ call.hops = 3) (success : (a.autoCircuitHops codec call).1 = none) :
    ∃ first rest, planAuto codec a.cfg a.nodes a.currentID call = .ok (first :: rest) ∧
      (a.autoCircuitHops codec call).2 = a.setCircuit (first :: rest) call.clock ∧
      (first.region = a.cfg.entryRegion ↔ call.hops = 2 ∨ NextInRegion a nodes) := by
  obtain ⟨path, planned, recorded⟩ := autoCircuitHops_ok success
  obtain ⟨exit, _, first, rest, found, listed', grown, _, separated⟩ := of_planAuto planned
  cases listed.symm.trans listed'
  obtain ⟨_, kept, rfl, _⟩ := of_separate separated
  obtain ⟨n, member, other, eligible, region⟩ := there
  obtain ⟨pick, picked, inRegion⟩ : ∃ pick, bestExcept a.cfg.selectPolicy nodes [a.currentID]
      a.cfg.entryRegion = .ok pick ∧ pick.region = a.cfg.entryRegion :=
    bestExcept_region configured member (by simpa using other) eligible region
  have start : ∀ k, growPath a.cfg.selectPolicy nodes a.cfg.entryRegion (k + 1) [a.currentID]
      [exit] =
      growPath a.cfg.selectPolicy nodes a.cfg.entryRegion k [pick.nodeID, a.currentID]
        [pick, exit] :=
    fun k => growPath_pick picked
  refine ⟨first, kept, planned, recorded, ?_⟩
  rcases count with two | three
  · rw [two, show hopCount 2 - 1 = 0 + 1 from rfl, start] at grown
    cases grown
    simp [two, inRegion]
  · rw [three, show hopCount 3 - 1 = 1 + 1 from rfl, start] at grown
    have next : first.region = a.cfg.entryRegion ↔ NextInRegion a nodes := by
      simp only [NextInRegion, picked, Except.ok.injEq, forall_eq']
      cases second : bestExcept a.cfg.selectPolicy nodes [pick.nodeID, a.currentID] "" with
      | error e =>
        simp only [growPath, List.length_cons, List.length_nil, Nat.reduceAdd, Nat.reduceEqDiff,
          if_false, second] at grown
        cases grown
        simp [inRegion]
      | ok next =>
        rw [growPath_pick second] at grown
        cases grown
        simp
    simpa [three] using next

section instances

/-- A client that prefers an entry in Switzerland, connected to the node `a`. -/
def connected (nodes : List (NodeInfo ℚ)) : App ℚ :=
  Run.run (step (.plain ℚ)) (newApp { someSettings with entryRegion := "ch" } (.ok nodes)
    (some someEngine)) [someConnect "a"]

def auto (hops : ℤ) : AutoBuilding ℚ := ⟨hops, fun _ => unobserved, ⟨4, 4⟩⟩

def swiss : NodeInfo ℚ := { someNode "b" with region := "ch" }

def plain : Multihop.Codec := (Library.plain ℚ).codec

/-- Two nodes on two boxes: the entry can stay, and the path ends at the connected node. -/
theorem twoBoxes_accepted :
    let a := connected [someNode "a", swiss]
    (a.autoCircuitHops plain (auto 2)).1.isNone = true ∧
      ∃ path, (a.autoCircuitHops plain (auto 2)).2 = a.setCircuit path ⟨4, 4⟩ ∧
        Accepted plain path ∧ path.getLast?.map NodeInfo.nodeID = some "a" ∧ 2 ≤ path.length := by
  intro a
  have success : (a.autoCircuitHops plain (auto 2)).1.isNone = true := by decide
  obtain ⟨path, _, recorded, _, accepted, ends⟩ :=
    auto_ends_iff plain a (auto 2) (Option.isNone_iff_eq_none.mp success)
  have stays : ExitStays plain a (auto 2) := by
    intro exit nodes entry middle found listed grown
    cases found
    cases listed
    have picked : growPath .fastest ([someNode "a", swiss].map fun n => n.observe ⟨none, none⟩) "ch"
        1 ["a"] [(someNode "a").observe ⟨none, none⟩] =
          [swiss.observe ⟨none, none⟩, (someNode "a").observe ⟨none, none⟩] := rfl
    obtain ⟨rfl, _⟩ := List.cons.inj (picked.symm.trans grown)
    exact checkRoute_ok_iff.mp rfl
  obtain ⟨last, long⟩ := ends.mpr stays
  exact ⟨success, path, recorded, accepted, last, long (by decide)⟩

/-- Two nodes on one box: the exit is dropped, and the path of one hop ends elsewhere. -/
theorem sharedBox_exitDropped :
    let a := connected [someNode "a", { swiss with endpoint := (someNode "a").endpoint }]
    a.currentID = "a" ∧ (a.autoCircuitHops plain (auto 2)).1.isNone = true ∧
      (a.autoCircuitHops plain (auto 2)).2.circuit.hops = ["b"] := by
  decide

theorem twoHops_swissEntry :
    ∃ first : NodeInfo ℚ, ∃ rest, first.region = "ch" ∧
      ((connected [someNode "a", swiss]).autoCircuitHops plain (auto 2)).2 =
        (connected [someNode "a", swiss]).setCircuit (first :: rest) ⟨4, 4⟩ := by
  obtain ⟨first, rest, _, recorded, region⟩ :=
    entry_in_region_iff plain (connected [someNode "a", swiss]) (auto 2)
      ([someNode "a", swiss].map fun n => n.observe (unobserved n.nodeID)) rfl (by decide)
      (by decide) (.inl rfl) (Option.isNone_iff_eq_none.mp (by decide))
  exact ⟨first, rest, region.mpr (.inl rfl), recorded⟩

/-- Of three hops the Swiss node is the middle. -/
theorem threeHops_entryElsewhere :
    let a := connected [someNode "a", swiss, someNode "c"]
    (a.autoCircuitHops plain (auto 3)).1.isNone = true ∧
      (a.autoCircuitHops plain (auto 3)).2.circuit.hops = ["c", "b", "a"] ∧
      (someNode "c").region ≠ a.cfg.entryRegion := by
  decide

end instances

end VeilNet.Guarantees.AutoCircuit
