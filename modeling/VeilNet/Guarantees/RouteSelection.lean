import VeilNet.Source.Multihop.Latency

/-!
# The path that `SelectRoute` picks

`SelectRoute` ranks the candidates and takes each one that is separated from those taken before.
The path cannot be extended. It is within the latency budget unless that left no candidate, and
longest unless the best-ranked stand in the way of others.
-/
namespace VeilNet.Guarantees.RouteSelection
open Lib Source.Multihop

variable {F : Type}

section builds
variable [GoFloatDiff F]

/-- `BuildOptions` with these two fields, the others zero. -/
def optionsFor (maxHops : ℤ) (tradeoff : Tradeoff) : BuildOptions F :=
  ⟨maxHops, tradeoff, GoFloat.ofInt 0, false⟩

/-- Some valid candidate is unmeasured or within the budget of the tradeoff. -/
def SomeInBudget (cands : List (Candidate F)) (tradeoff : Tradeoff) : Prop :=
  ∃ n ∈ validCandidates cands, n.slower tradeoff.latencyBudgetMs = false

variable {tradeoff : Tradeoff}

theorem latencyBudgetMs_pos [GoFloatExact F] (budgeted : tradeoff ≠ .balanced) :
    GoFloat.lt (GoFloat.ofInt 0 : F) tradeoff.latencyBudgetMs = true ∧
      GoFloat.le tradeoff.latencyBudgetMs (GoFloat.ofInt 0 : F) = false := by
  have positive : ∀ k : ℤ, 0 < k → k ≤ 800 →
      GoFloat.lt (GoFloat.ofInt 0 : F) (GoFloat.ofInt k) = true ∧
        GoFloat.le (GoFloat.ofInt k : F) (GoFloat.ofInt 0) = false := by
    intro k pos small
    rw [GoFloatExact.lt_ofInt 0 k (by decide) (by omega),
      GoFloatExact.le_ofInt k 0 (by omega) (by decide)]
    exact ⟨decide_eq_true pos, decide_eq_false (by omega)⟩
  cases tradeoff with
  | balanced => exact absurd rfl budgeted
  | fast => exact positive 150 (by omega) (by omega)
  | safe => exact positive 800 (by omega) (by omega)

theorem checkLatency_ok_iff [GoFloatExact F] {maxHops : ℤ} {nodes : List (NodeInfo F)} :
    (optionsFor maxHops tradeoff).checkLatency nodes = .ok () ↔
      tradeoff = .balanced ∨ ∀ n ∈ nodes, n.slower tradeoff.latencyBudgetMs = false := by
  have zero : GoFloat.lt (GoFloat.ofInt 0 : F) (GoFloat.ofInt 0) = false :=
    GoFloatExact.lt_ofInt 0 0 (by decide) (by decide)
  have budget : (optionsFor maxHops tradeoff : BuildOptions F).budgetMs =
      tradeoff.latencyBudgetMs := by
    simp only [BuildOptions.budgetMs, optionsFor, zero]
    cases tradeoff <;> rfl
  rw [BuildOptions.checkLatency, budget]
  by_cases budgeted : tradeoff = .balanced
  · simp [budgeted, Tradeoff.latencyBudgetMs, zero]
  · rw [or_iff_right budgeted, if_pos (latencyBudgetMs_pos budgeted).1, checkBudget_ok_iff]
    simp [NodeInfo.slower]

theorem filterByBudget_eq [GoFloatExact F] (budgeted : tradeoff ≠ .balanced)
    (cands : List (Candidate F)) :
    filterByBudget cands tradeoff.latencyBudgetMs =
      cands.filter fun n => !n.slower tradeoff.latencyBudgetMs := by
  rw [filterByBudget, (latencyBudgetMs_pos budgeted).2, if_neg Bool.false_ne_true]

/-- Either no eligible candidate is over the budget, or all are. -/
theorem slower_of_mem_eligible [GoFloatExact F] {cands : List (Candidate F)}
    (budgeted : tradeoff ≠ .balanced) {n : Candidate F} (member : n ∈ eligible cands tradeoff) :
    n.slower tradeoff.latencyBudgetMs = false ↔ SomeInBudget cands tradeoff := by
  have valid := mem_validCandidates_of_mem_eligible member
  refine ⟨fun within => ⟨n, valid, within⟩, ?_⟩
  rintro ⟨m, validM, withinM⟩
  have kept : m ∈ filterByBudget (validCandidates cands) tradeoff.latencyBudgetMs := by
    rw [filterByBudget_eq budgeted, List.mem_filter]
    exact ⟨validM, by rw [withinM]; rfl⟩
  unfold eligible at member
  dsimp only at member
  rw [if_pos (List.length_pos_of_mem kept), filterByBudget_eq budgeted, List.mem_filter] at member
  simpa using member.2

end builds

section picks
variable {codec : Codec}

/-- A separated path from the pool, up to the cap, that nothing of the pool extends. -/
structure Picked (codec : Codec) (cap : ℕ) (pool path : List (Candidate F)) : Prop where
  some : 1 ≤ path.length
  few : path.length ≤ cap
  drawn : ∀ n ∈ path, n ∈ pool
  accepted : Accepted codec path
  maximal : path.length < cap → ∀ n ∈ pool, ¬ Accepted codec (path ++ [n])

variable [GoFloatDiff F] {sorter : GoSort (Candidate F)} {a : Aggregator F}
  {cands path : List (Candidate F)} {maxHops : ℤ} {tradeoff : Tradeoff}

theorem selectRoute_ok (selected : a.selectRoute codec sorter cands maxHops tradeoff = .ok path) :
    ∃ f rest, a.rankFor sorter tradeoff (eligible cands tradeoff) = f :: rest ∧
      path = greedyPath codec tradeoff (hopCap maxHops) (f :: rest) ∧
      Picked codec (hopCap maxHops) (eligible cands tradeoff) path := by
  rw [selectRoute_eq] at selected
  split at selected
  · cases selected
  · next some =>
    obtain rfl := Except.ok.inj selected
    obtain ⟨f, rest, ranked, entry⟩ := exists_entry codec sorter a tradeoff maxHops some
    refine ⟨f, rest, ranked, by rw [ranked], entry.length_le, length_greedyPath_le, ?_,
      accepted_greedyPath, ?_⟩
    · intro n member
      exact mem_rankFor.mp (mem_of_mem_greedyPath member)
    · intro room n member
      exact greedyPath_maximal room (mem_rankFor.mpr member)

theorem selectRoute_error_iff :
    (∃ err, a.selectRoute codec sorter cands maxHops tradeoff = .error err) ↔
      ∀ n ∈ cands, n.validate ≠ .ok () := by
  have none : validCandidates cands = [] ↔ ∀ n ∈ cands, n.validate ≠ .ok () := by
    simp only [List.eq_nil_iff_forall_not_mem, mem_validCandidates, ne_eq,
      NodeInfo.validate_ok_iff, not_and]
  rw [← none, selectRoute_eq]
  split
  · next empty => exact iff_of_true ⟨.noValid, rfl⟩ empty
  · next some =>
    refine iff_of_false ?_ some
    rintro ⟨err, refused⟩
    cases refused

theorem Picked.exists_buildRoute_iff {stamp : Stamp}
    (picked : Picked codec (hopCap maxHops) (eligible cands tradeoff) path) :
    (∃ r, buildRoute codec stamp (path.map Candidate.toNodeInfo) (optionsFor maxHops tradeoff) =
      .ok r) ↔
      (optionsFor maxHops tradeoff).checkLatency (path.map Candidate.toNodeInfo) = .ok () := by
  have dialable : ∀ n ∈ path.map Candidate.toNodeInfo, n.Dialable := by
    rw [List.forall_mem_map]
    intro n member
    exact (mem_validCandidates.mp (mem_validCandidates_of_mem_eligible (picked.drawn n member))).2
  have apart : (path.map Candidate.toNodeInfo).Pairwise (Apart codec) :=
    checkDistinct_ok_iff.mp picked.accepted
  have some := picked.some
  have few := picked.few
  have capped := hopCap_le_three maxHops
  have length : (path.map Candidate.toNodeInfo).length ≠ 0 ∧
      (path.map Candidate.toNodeInfo).length ≤ (optionsFor maxHops tradeoff : BuildOptions F).cap ∧
      (path.map Candidate.toNodeInfo).length ≤ 3 := by
    rw [List.length_map]
    exact ⟨by omega, few, by omega⟩
  rw [Source.Multihop.exists_buildRoute_iff]
  constructor
  · intro built
    exact built.2.2.2.1
  · intro latency
    exact ⟨length, dialable, apart, latency, rfl⟩

end picks

/-- `SelectRoute` fails only without a valid candidate. `BuildRoute` accepts its path exactly when
the tradeoff has no budget or some valid candidate is within it. -/
theorem selectRoute_builds_iff [GoFloatDiff F] [GoFloatExact F] (codec : Codec)
    (sorter : GoSort (Candidate F)) (stamp : Stamp) (a : Aggregator F) (cands : List (Candidate F))
    (maxHops : ℤ) (tradeoff : Tradeoff) :
    ((∃ err, a.selectRoute codec sorter cands maxHops tradeoff = .error err) ↔
      ∀ n ∈ cands, n.validate ≠ .ok ()) ∧
    ∀ path, a.selectRoute codec sorter cands maxHops tradeoff = .ok path →
      (1 ≤ path.length ∧ path.length ≤ hopCap maxHops ∧ ∀ n ∈ path, n ∈ cands) ∧
      ((∃ r, buildRoute codec stamp (path.map Candidate.toNodeInfo) (optionsFor maxHops tradeoff) =
          .ok r) ↔
        tradeoff = .balanced ∨ SomeInBudget cands tradeoff) := by
  refine ⟨selectRoute_error_iff, fun path selected => ?_⟩
  obtain ⟨f, rest, _, _, picked⟩ := selectRoute_ok selected
  refine ⟨⟨picked.some, picked.few, fun n member => ?_⟩, ?_⟩
  · have valid := mem_validCandidates_of_mem_eligible (picked.drawn n member)
    exact (mem_validCandidates.mp valid).1
  · rw [picked.exists_buildRoute_iff, checkLatency_ok_iff, List.forall_mem_map]
    by_cases budgeted : tradeoff = .balanced
    · exact iff_of_true (.inl budgeted) (.inl budgeted)
    · rw [or_iff_right budgeted, or_iff_right budgeted]
      obtain ⟨entry, first⟩ := List.exists_mem_of_length_pos picked.some
      constructor
      · intro within
        exact (slower_of_mem_eligible budgeted (picked.drawn _ first)).mp (within _ first)
      · intro some n member
        exact (slower_of_mem_eligible budgeted (picked.drawn n member)).mpr some

section builtInstances

/-- A candidate with the key of an operator, on a host, at a latency. -/
def someCandidate (name key host : String) (latency : ℚ) : Candidate ℚ :=
  ⟨⟨name, key, host ++ ":51820", "", 0, latency⟩, 0, 1, 1⟩

/-- Two free nodes of no known country. -/
def freeRoute : Route ℚ :=
  ⟨"c-0", [(someCandidate "a" "k" "h" 0).hop, (someCandidate "b" "l" "i" 0).hop], false, 0⟩

/-- One of two candidates is within the fast budget, and a route over it is built. -/
theorem quickPath_builds : ∃ r, buildRoute plainCodec someStamp
    [(someCandidate "a" "k" "h" 100).toNodeInfo] (optionsFor 0 .fast) = .ok r := by
  have within : SomeInBudget [someCandidate "a" "k" "h" 100, someCandidate "b" "l" "i" 200] .fast :=
    ⟨someCandidate "a" "k" "h" 100, by decide, by decide⟩
  exact ((selectRoute_builds_iff plainCodec GoSort.insertion someStamp (newAggregator ℚ)
    [someCandidate "a" "k" "h" 100, someCandidate "b" "l" "i" 200] 0 .fast).2
    [someCandidate "a" "k" "h" 100] (by decide)).2.mpr (.inr within)

/-- The only candidate is over the fast budget: it is picked, and refused as a route. -/
theorem slowPath_not_built : ¬ ∀ (codec : Codec) (sorter : GoSort (Candidate ℚ)) (stamp : Stamp)
    (a : Aggregator ℚ) (cands : List (Candidate ℚ)) (maxHops : ℤ) (tradeoff : Tradeoff)
    (path : List (Candidate ℚ)), a.selectRoute codec sorter cands maxHops tradeoff = .ok path →
    ∃ r, buildRoute codec stamp (path.map Candidate.toNodeInfo) (optionsFor maxHops tradeoff) =
      .ok r := by
  intro holds
  obtain ⟨r, built⟩ := holds plainCodec GoSort.insertion someStamp (newAggregator ℚ)
    [someCandidate "a" "k" "h" 200] 0 .fast [someCandidate "a" "k" "h" 200] (by decide)
  have latency := (exists_buildRoute_iff.mp ⟨r, built⟩).2.2.2.1
  have within := (checkLatency_ok_iff.mp latency).resolve_left (by decide)
  exact absurd (within _ List.mem_cons_self) (by decide)

end builtInstances

section longest

/-- The best-ranked candidate `f` stands in no other's way: of two separated candidates one is
separated from `f`; of three, one is separated from `f` and from the candidate that follows it. -/
structure Unobstructed (codec : Codec) (tradeoff : Tradeoff) (cap : ℕ) (ranked : List (Candidate F))
    (f : Candidate F) : Prop where
  second : 2 ≤ cap → (∃ n ∈ ranked, ∃ m ∈ ranked, Accepted codec [n, m]) →
    ∃ n ∈ ranked, Accepted codec [f, n]
  third : 3 ≤ cap → (∃ n ∈ ranked, ∃ m ∈ ranked, ∃ k ∈ ranked, Accepted codec [n, m, k]) →
    ∀ g, follower codec tradeoff ranked f = some g → ∃ n ∈ ranked, Accepted codec [f, g, n]

/-- At every length that some separated list has, the path so far can be extended. -/
theorem extendable_iff (codec : Codec) (tradeoff : Tradeoff) {cap : ℕ} (capped : cap ≤ 3)
    (f : Candidate F) (rest : List (Candidate F)) :
    (∀ k < cap, (∃ other : List (Candidate F), (∀ n ∈ other, n ∈ f :: rest) ∧
        Accepted codec other ∧ other.length = k + 1) →
      ∃ n ∈ f :: rest, Accepted codec ((greedyPath codec tradeoff cap (f :: rest)).take k ++ [n])) ↔
    Unobstructed codec tradeoff cap (f :: rest) f := by
  have entry : ∀ room : 0 < cap, (greedyPath codec tradeoff cap (f :: rest)).take 1 = [f] :=
    fun room => (List.prefix_iff_eq_take.mp (entry_prefix_greedyPath room f rest)).symm
  have next : ∀ g, 1 < cap → follower codec tradeoff (f :: rest) f = some g →
      (greedyPath codec tradeoff cap (f :: rest)).take 2 = [f, g] :=
    fun g room found => (List.prefix_iff_eq_take.mp (follower_prefix_greedyPath room found)).symm
  constructor
  · intro extendable
    constructor
    · rintro two ⟨n, inN, m, inM, accepted⟩
      obtain ⟨k, inK, longer⟩ := extendable 1 (by omega)
        ⟨[n, m], by simpa using And.intro inN inM, accepted, rfl⟩
      rw [entry (by omega)] at longer
      exact ⟨k, inK, longer⟩
    · rintro three ⟨n, inN, m, inM, k, inK, accepted⟩ g found
      obtain ⟨l, inL, longer⟩ := extendable 2 (by omega)
        ⟨[n, m, k], by simpa using And.intro inN (And.intro inM inK), accepted, rfl⟩
      rw [next g (by omega) found] at longer
      exact ⟨l, inL, longer⟩
  · rintro free k small ⟨other, inPool, accepted, length⟩
    -- the path is non-empty, so only the second and the third hop are in question
    obtain rfl | rfl | rfl : k = 0 ∨ k = 1 ∨ k = 2 := by omega
    · exact ⟨f, List.mem_cons_self, by simpa using accepted_singleton f⟩
    · obtain ⟨n, m, rfl⟩ := List.length_eq_two.mp length
      rw [entry (by omega)]
      exact free.second small ⟨n, inPool n (by simp), m, inPool m (by simp), accepted⟩
    · obtain ⟨n, m, l, rfl⟩ := List.length_eq_three.mp length
      have two : Accepted codec [n, m] := accepted.sublist (by simp)
      obtain ⟨j, inJ, longer⟩ :=
        free.second (by omega) ⟨n, inPool n (by simp), m, inPool m (by simp), two⟩
      obtain ⟨g, found⟩ := exists_follower tradeoff inJ longer
      rw [next g (by omega) found]
      exact free.third small
        ⟨n, inPool n (by simp), m, inPool m (by simp), l, inPool l (by simp), accepted⟩ g found

end longest

/-- The picked path is the longest separated one of the eligible candidates, up to the
cap, exactly when the best-ranked candidates stand in no other's way. -/
theorem selectRoute_longest_iff [GoFloatDiff F] (codec : Codec) (sorter : GoSort (Candidate F))
    (a : Aggregator F) (cands : List (Candidate F)) (maxHops : ℤ) (tradeoff : Tradeoff)
    (path : List (Candidate F))
    (selected : a.selectRoute codec sorter cands maxHops tradeoff = .ok path) :
    (∀ other : List (Candidate F), (∀ n ∈ other, n ∈ eligible cands tradeoff) →
      other.length ≤ hopCap maxHops → checkDistinctCandidates codec other = .ok () →
      other.length ≤ path.length) ↔
    ∀ f, (a.rankFor sorter tradeoff (eligible cands tradeoff)).head? = some f →
      Unobstructed codec tradeoff (hopCap maxHops)
        (a.rankFor sorter tradeoff (eligible cands tradeoff)) f := by
  obtain ⟨f, rest, ranked, pathEq, picked⟩ := selectRoute_ok selected
  have same : ∀ n, n ∈ eligible cands tradeoff ↔ n ∈ f :: rest := by
    intro n
    rw [← ranked]
    exact mem_rankFor.symm
  have closed : ∀ {p q : List (Candidate F)}, p <+: q → Accepted codec q → Accepted codec p :=
    fun front accepted => accepted.sublist front.sublist
  have longest := Greedy.longest_iff closed picked.drawn picked.accepted picked.maximal
  have unobstructed := extendable_iff codec tradeoff (hopCap_le_three maxHops) f rest
  rw [← pathEq] at unobstructed
  simp only [same] at longest ⊢
  rw [ranked, List.head?_cons]
  simp only [Option.some.injEq, forall_eq']
  exact longest.trans unobstructed

section longestInstances

theorem accepted_of_isOk {codec : Codec} {path : List (Candidate F)}
    (ok : (checkDistinctCandidates codec path).isOk = true) : Accepted codec path :=
  Outcome.isOk_iff.mp ok

/-- One candidate has been measured. -/
def measured : Aggregator ℚ := (newAggregator ℚ).observe (someCandidate "a" "k" "h" 10) 15

/-- Three candidates of three operators on three hosts. -/
def apartPool : List (Candidate ℚ) :=
  [someCandidate "a" "k" "h" 10, someCandidate "b" "l" "i" 20, someCandidate "c" "m" "j" 30]

theorem apartPath_longest :
    measured.selectRoute plainCodec GoSort.insertion apartPool 3 .fast = .ok apartPool ∧
      ∀ other : List (Candidate ℚ), (∀ n ∈ other, n ∈ eligible apartPool .fast) →
        other.length ≤ hopCap 3 → checkDistinctCandidates plainCodec other = .ok () →
        other.length ≤ apartPool.length := by
  have selected : measured.selectRoute plainCodec GoSort.insertion apartPool 3 .fast =
      .ok apartPool := by decide
  refine ⟨selected, (selectRoute_longest_iff plainCodec GoSort.insertion measured apartPool 3 .fast
    apartPool selected).mpr ?_⟩
  have ranked : measured.rankFor GoSort.insertion .fast (eligible apartPool .fast) = apartPool := by
    decide
  have next : follower plainCodec .fast apartPool (someCandidate "a" "k" "h" 10) =
      some (someCandidate "b" "l" "i" 20) := by decide
  rw [ranked]
  intro f first
  obtain rfl := Option.some.inj first
  constructor
  · intro _ _
    exact ⟨someCandidate "b" "l" "i" 20, by decide, accepted_of_isOk (by decide)⟩
  · intro _ _ g found
    rw [next] at found
    obtain rfl := Option.some.inj found
    exact ⟨someCandidate "c" "m" "j" 30, by decide, accepted_of_isOk (by decide)⟩

/-- The quickest candidate shares a host with the second and an operator with the third,
which are separated from each other. -/
def obstructedPool : List (Candidate ℚ) :=
  [someCandidate "a" "k" "h" 10, someCandidate "b" "l" "h" 20, someCandidate "c" "k" "i" 30]

theorem obstructedPath_not_longest : ¬ ∀ (codec : Codec) (sorter : GoSort (Candidate ℚ))
    (a : Aggregator ℚ) (cands : List (Candidate ℚ)) (maxHops : ℤ) (tradeoff : Tradeoff)
    (path : List (Candidate ℚ)), a.selectRoute codec sorter cands maxHops tradeoff = .ok path →
    ∀ other : List (Candidate ℚ), (∀ n ∈ other, n ∈ eligible cands tradeoff) →
      other.length ≤ hopCap maxHops → checkDistinctCandidates codec other = .ok () →
      other.length ≤ path.length := by
  intro holds
  have longest := holds plainCodec GoSort.insertion (newAggregator ℚ) obstructedPool 3 .fast
    [someCandidate "a" "k" "h" 10] (by decide)
    [someCandidate "b" "l" "h" 20, someCandidate "c" "k" "i" 30] (by decide)
    (by decide) (accepted_of_isOk (by decide))
  exact absurd longest (by decide)

end longestInstances

end VeilNet.Guarantees.RouteSelection
