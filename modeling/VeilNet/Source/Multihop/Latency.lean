import VeilNet.Source.Multihop.Route
import VeilNet.Lib.GoSort
import VeilNet.Lib.Greedy

/-!
The choice of a path by latency: `internal/multihop/latency.go`. Sample times and node copies of
an `Aggregator` are written only, and left out. The sorting algorithm is an argument.
-/
namespace VeilNet.Source.Multihop
open Lib

/-- A node with the fields that only the ranking reads. -/
structure Candidate (F : Type) extends NodeInfo F where
  load : F
  uptime : F
  history : F
  deriving DecidableEq

structure Aggregator (F : Type) where
  ewma : GoMap String F
  samples : GoMap String ℤ

def newAggregator (F : Type) : Aggregator F := ⟨∅, ∅⟩

inductive SelectError where
  | noValid | noSeparated
  deriving DecidableEq

section ranking
variable {F : Type} [GoFloatDiff F]

def tenths (k : ℤ) : F := GoFloat.div (GoFloat.ofInt k) (GoFloat.ofInt 10)

def Aggregator.observe (a : Aggregator F) (node : Candidate F) (rttMs : F) : Aggregator F :=
  if GoFloat.lt rttMs (GoFloat.ofInt 0) then a
  else
    let id := node.nodeID
    let count := (a.samples.lookup id).getD 0
    let smoothed := if count = 0 then rttMs
      else GoFloatSum.add (GoFloat.mul (tenths 3) rttMs)
        (GoFloat.mul (tenths 7) ((a.ewma.lookup id).getD (GoFloat.ofInt 0)))
    ⟨a.ewma.insert id smoothed, a.samples.insert id (count + 1)⟩

/-- `Score`; there may be no sample. -/
def Candidate.score (n : Candidate F) (smoothed : Option F) : F :=
  let lat := smoothed.getD (GoFloat.ofInt 500)
  let off := fun x : F => GoFloatDiff.sub (GoFloat.ofInt 1) x
  let s := GoFloatSum.add (GoFloatSum.add (GoFloatSum.add (GoFloatSum.add lat
    (GoFloat.mul (GoFloat.ofInt 200) n.load)) (GoFloat.mul (GoFloat.ofInt 10) n.pricePerHour))
    (GoFloat.mul (GoFloat.ofInt 100) (off n.uptime)))
    (GoFloat.mul (GoFloat.ofInt 50) (off n.history))
  if GoFloat.lt s (GoFloat.ofInt 0) then GoFloat.ofInt 0 else s

variable (sorter : GoSort (Candidate F))

def Aggregator.rank (a : Aggregator F) (cands : List (Candidate F)) : List (Candidate F) :=
  sorter.sort (fun n m => GoFloat.lt (n.score (a.ewma.lookup n.nodeID))
    (m.score (a.ewma.lookup m.nodeID))) cands

/-- The latency that the fast tradeoff ranks by. -/
def Aggregator.fastLatency (a : Aggregator F) (n : Candidate F) : F :=
  match a.ewma.lookup n.nodeID with
  | some v => v
  | none => if GoFloat.le n.latency (GoFloat.ofInt 0) then GoFloat.ofInt 500 else n.latency

/-- The order in which `SelectRoute` tries the candidates. -/
def Aggregator.rankFor (a : Aggregator F) (tradeoff : Tradeoff) (cands : List (Candidate F)) :
    List (Candidate F) :=
  if tradeoff = .fast then
    sorter.sort (fun n m => GoFloat.lt (a.fastLatency n) (a.fastLatency m)) cands
  else a.rank sorter cands

end ranking

section filters
variable {F : Type} [GoFloat F]

/-- The node is measured and slower than the budget. -/
def NodeInfo.slower (n : NodeInfo F) (budgetMs : F) : Bool :=
  GoFloat.lt (GoFloat.ofInt 0) n.latency && GoFloat.lt budgetMs n.latency

def filterByBudget (cands : List (Candidate F)) (budgetMs : F) : List (Candidate F) :=
  if GoFloat.le budgetMs (GoFloat.ofInt 0) then cands
  else cands.filter fun n => !n.slower budgetMs

def Tradeoff.latencyBudgetMs : Tradeoff → F
  | .fast => GoFloat.ofInt 150
  | .safe => GoFloat.ofInt 800
  | .balanced => GoFloat.ofInt 0

def validCandidates (cands : List (Candidate F)) : List (Candidate F) :=
  cands.filter fun n => n.validate.isOk

/-- The valid candidates within the budget, or all valid ones when there are none. -/
def eligible (cands : List (Candidate F)) (tradeoff : Tradeoff) : List (Candidate F) :=
  let valid := validCandidates cands
  let filtered := filterByBudget valid tradeoff.latencyBudgetMs
  if filtered.length > 0 then filtered else valid

end filters

/-- `PickPair`: the two best-ranked usable nodes, if there are two. -/
def Aggregator.pickPair {F : Type} [GoFloatDiff F] (sorter : GoSort (Candidate F))
    (a : Aggregator F) (cands : List (Candidate F)) : Option (Candidate F × Candidate F) :=
  match validCandidates (a.rank sorter cands) with
  | entry :: exit :: _ => some (entry, exit)
  | _ => none

def hopCap (maxHops : ℤ) : ℕ := if maxHops ≤ 0 then 3 else if maxHops > 3 then 3 else maxHops.toNat

section path
variable {F : Type} (codec : Codec)

def checkDistinctCandidates (path : List (Candidate F)) : Except (Error F) Unit :=
  checkDistinct codec (path.map Candidate.toNodeInfo)

def Candidate.countryCode (n : Candidate F) : String := codec.toUpper (GoText.trimSpace n.country)

def containsNode (path : List (Candidate F)) (id : String) : Bool := path.any fun n => n.nodeID = id

/-- The variables of the loop. -/
structure Progress (F : Type) where
  path : List (Candidate F)
  usedCountries : GoMap String Bool

def Progress.append (s : Progress F) (n : Candidate F) : Progress F :=
  let c := n.countryCode codec
  ⟨s.path ++ [n], if c ≠ "" then s.usedCountries.insert c true else s.usedCountries⟩

/-- One candidate in one pass: `fresh` asks for a country that is not used yet, as the
first pass of the safe tradeoff does. -/
def Progress.visit (fresh : Bool) (cap : ℕ) (s : Progress F) (n : Candidate F) : Progress F :=
  if s.path.length ≥ cap then s
  else if containsNode s.path n.nodeID then s
  else
    let c := n.countryCode codec
    if fresh = true ∧ c ≠ "" ∧ c ∈ s.usedCountries then s
    else match checkDistinctCandidates codec (s.path ++ [n]) with
      | .error _ => s
      | .ok () => s.append codec n

def Progress.pass (fresh : Bool) (cap : ℕ) (s : Progress F) (ranked : List (Candidate F)) :
    Progress F :=
  ranked.foldl (fun s n => s.visit codec fresh cap n) s

/-- The two passes. The second is not made when the path is full. -/
def greedyPath (tradeoff : Tradeoff) (cap : ℕ) (ranked : List (Candidate F)) : List (Candidate F) :=
  let s := Progress.pass codec (tradeoff = .safe) cap ⟨[], ∅⟩ ranked
  if s.path.length < cap then (s.pass codec false cap ranked).path else s.path

variable [GoFloatDiff F] (sorter : GoSort (Candidate F))

def Aggregator.selectRoute (a : Aggregator F) (cands : List (Candidate F)) (maxHops : ℤ)
    (tradeoff : Tradeoff) : Except SelectError (List (Candidate F)) := do
  Outcome.refuseIf ((validCandidates cands).length = 0) .noValid
  let ranked := a.rankFor sorter tradeoff (eligible cands tradeoff)
  let path := greedyPath codec tradeoff (hopCap maxHops) ranked
  Outcome.refuseIf (path.length = 0) .noSeparated
  .ok path

end path

section scans
variable {F : Type} {codec : Codec}

/-- `checkDistinct` accepts the path. -/
def Accepted (codec : Codec) (path : List (Candidate F)) : Prop :=
  checkDistinctCandidates codec path = .ok ()

variable {path : List (Candidate F)}

theorem accepted_iff :
    Accepted codec path ↔ path.Pairwise fun n m => Apart codec n.toNodeInfo m.toNodeInfo := by
  rw [Accepted, checkDistinctCandidates, checkDistinct_ok_iff, List.pairwise_map]

theorem Accepted.sublist {path part : List (Candidate F)} (accepted : Accepted codec path)
    (sub : part.Sublist path) : Accepted codec part :=
  accepted_iff.mpr ((accepted_iff.mp accepted).sublist sub)

theorem accepted_singleton (n : Candidate F) : Accepted codec [n] :=
  accepted_iff.mpr (List.pairwise_singleton _ n)

/-- The candidate can be the next hop: the path stays separated and, if that is asked
for, the country is new. -/
def fits (codec : Codec) (fresh : Bool) (path : List (Candidate F)) (n : Candidate F) : Bool :=
  !(fresh && decide (n.countryCode codec ≠ "") &&
      decide (n.countryCode codec ∈ path.map fun p => p.countryCode codec)) &&
    (checkDistinctCandidates codec (path ++ [n])).isOk

variable {n : Candidate F} {fresh : Bool}

theorem fits_iff :
    fits codec fresh path n = true ↔
      (fresh = true → n.countryCode codec ≠ "" →
        n.countryCode codec ∉ path.map fun p => p.countryCode codec) ∧
      Accepted codec (path ++ [n]) := by
  rw [fits, Bool.and_eq_true, Outcome.isOk_iff, Accepted]
  refine and_congr_left' ?_
  simp only [Bool.not_eq_true', Bool.and_eq_false_iff, decide_eq_false_iff_not]
  rw [imp_iff_not_or, imp_iff_not_or, or_assoc, Bool.not_eq_true]

theorem fits_antitone {p q : List (Candidate F)} (front : p <+: q)
    (fit : fits codec fresh q n = true) : fits codec fresh p n = true := by
  obtain ⟨country, accepted⟩ := fits_iff.mp fit
  refine fits_iff.mpr ⟨fun asked named member => ?_, ?_⟩
  · exact country asked named ((front.map _).subset member)
  · exact accepted.sublist (front.sublist.append_right [n])

theorem not_accepted_of_mem (member : n ∈ path) :
    ¬ Accepted codec (path ++ [n]) := by
  intro accepted
  have apart := (List.pairwise_append.mp (accepted_iff.mp accepted)).2.2 n member n (by simp)
  exact apart.id rfl

/-- The used countries are those of the path. -/
def Progress.Records (codec : Codec) (s : Progress F) : Prop :=
  ∀ c, c ∈ s.usedCountries ↔ c ≠ "" ∧ c ∈ s.path.map fun n => n.countryCode codec

theorem fits_eq_false_of_containsNode
    (contained : containsNode path n.nodeID = true) : fits codec fresh path n = false := by
  rw [← Bool.not_eq_true, fits_iff]
  rintro ⟨_, accepted⟩
  obtain ⟨p, member, same⟩ := List.any_eq_true.mp contained
  have apart := (List.pairwise_append.mp (accepted_iff.mp accepted)).2.2 p member n (by simp)
  exact apart.id (of_decide_eq_true same)

variable {s : Progress F}

theorem Progress.Records.append (records : s.Records codec) (n : Candidate F) :
    (s.append codec n).Records codec := by
  intro c
  have path : c ∈ (s.append codec n).path.map (fun n => n.countryCode codec) ↔
      c ∈ s.path.map (fun n => n.countryCode codec) ∨ c = n.countryCode codec := by
    simp [Progress.append]
  have used : c ∈ (s.append codec n).usedCountries ↔
      (c ≠ "" ∧ c = n.countryCode codec) ∨ c ∈ s.usedCountries := by
    by_cases named : n.countryCode codec ≠ ""
    · simp only [Progress.append, if_pos named, AList.mem_insert]
      refine or_congr_left ⟨fun same => ⟨same ▸ named, same⟩, fun both => both.2⟩
    · simp only [Progress.append, if_neg named]
      refine (or_iff_right ?_).symm
      rintro ⟨nonempty, rfl⟩
      exact named nonempty
  rw [path, used, records c, and_or_left, or_comm]

theorem visit_eq {cap : ℕ} (records : s.Records codec)
    (n : Candidate F) :
    s.visit codec fresh cap n =
      if s.path.length < cap ∧ fits codec fresh s.path n = true then s.append codec n else s := by
  unfold Progress.visit
  split
  · next full => rw [if_neg fun taken => absurd taken.1 (by omega)]
  · next room =>
    split
    · next contained => rw [fits_eq_false_of_containsNode contained, if_neg (by simp)]
    · dsimp only
      split
      · next used =>
        rw [if_neg]
        rintro ⟨_, fit⟩
        exact (fits_iff.mp fit).1 used.1 used.2.1 ((records _).mp used.2.2).2
      · next unused =>
        split
        · next err refusal =>
          rw [if_neg]
          rintro ⟨_, fit⟩
          have accepted := (fits_iff.mp fit).2
          rw [Accepted, refusal] at accepted
          cases accepted
        · next accepted =>
          have fit : fits codec fresh s.path n = true := by
            refine fits_iff.mpr ⟨fun asked named member => ?_, accepted⟩
            exact unused ⟨asked, named, (records _).mpr ⟨named, member⟩⟩
          rw [if_pos ⟨by omega, fit⟩]

/-- A pass is a greedy scan. -/
theorem pass_spec (fresh : Bool) (cap : ℕ) (records : s.Records codec)
    (ranked : List (Candidate F)) :
    (s.pass codec fresh cap ranked).path = Greedy.scan (fits codec fresh) cap s.path ranked ∧
      (s.pass codec fresh cap ranked).Records codec := by
  unfold Progress.pass
  induction ranked generalizing s with
  | nil => exact ⟨rfl, records⟩
  | cons n rest ih =>
    rw [List.foldl_cons, visit_eq records, Greedy.scan]
    split
    · exact ih (records.append n)
    · exact ih records

theorem greedyPath_eq (codec : Codec) (tradeoff : Tradeoff) (cap : ℕ)
    (ranked : List (Candidate F)) :
    greedyPath codec tradeoff cap ranked = Greedy.scan (fits codec false) cap
      (Greedy.scan (fits codec (tradeoff = .safe)) cap [] ranked) ranked := by
  have start : Progress.Records codec (⟨[], ∅⟩ : Progress F) := by
    intro c
    simp
  obtain ⟨path, records⟩ := pass_spec (decide (tradeoff = .safe)) cap start ranked
  obtain ⟨second, _⟩ := pass_spec false cap records ranked
  unfold greedyPath
  dsimp only
  rw [second, path]
  split
  · rfl
  · next full => exact (Greedy.scan_of_full (Nat.le_of_not_lt full)).symm

/-- What a fitting candidate preserves, the two passes preserve. -/
theorem greedyPath_induction {P : List (Candidate F) → Prop} (tradeoff : Tradeoff) {cap : ℕ}
    {ranked : List (Candidate F)} (start : P [])
    (step : ∀ path n, n ∈ ranked → path.length < cap → Accepted codec (path ++ [n]) →
      P path → P (path ++ [n])) :
    P (greedyPath codec tradeoff cap ranked) := by
  rw [greedyPath_eq]
  refine Greedy.scan_induction (Greedy.scan_induction start ?_) ?_
  · exact fun path n member room fit => step path n member room (fits_iff.mp fit).2
  · exact fun path n member room fit => step path n member room (fits_iff.mp fit).2

section greedy
variable {tradeoff : Tradeoff} {cap : ℕ} {ranked : List (Candidate F)}

theorem mem_of_mem_greedyPath {n : Candidate F}
    (member : n ∈ greedyPath codec tradeoff cap ranked) : n ∈ ranked := by
  have drawn : ∀ m ∈ greedyPath codec tradeoff cap ranked, m ∈ ranked := by
    refine greedyPath_induction (P := fun path => ∀ m ∈ path, m ∈ ranked) tradeoff (by simp) ?_
    intro path m inRanked _ _ drawn k inPath
    rcases List.mem_append.mp inPath with old | new
    · exact drawn k old
    · rwa [List.mem_singleton.mp new]
  exact drawn n member

theorem length_greedyPath_le : (greedyPath codec tradeoff cap ranked).length ≤ cap := by
  refine greedyPath_induction (P := fun path => path.length ≤ cap) tradeoff (Nat.zero_le cap) ?_
  intro path n _ room _ _
  rw [List.length_append, List.length_singleton]
  omega

theorem accepted_greedyPath : Accepted codec (greedyPath codec tradeoff cap ranked) := by
  refine greedyPath_induction (P := Accepted codec) tradeoff (accepted_iff.mpr .nil) ?_
  intro path n _ _ accepted _
  exact accepted

/-- The second pass takes whatever the path can still be extended by. -/
theorem greedyPath_maximal (room : (greedyPath codec tradeoff cap ranked).length < cap)
    {n : Candidate F} (member : n ∈ ranked) :
    ¬ Accepted codec (greedyPath codec tradeoff cap ranked ++ [n]) := by
  intro accepted
  have fit : fits codec false (greedyPath codec tradeoff cap ranked) n = true :=
    fits_iff.mpr ⟨fun asked => absurd asked Bool.false_ne_true, accepted⟩
  have stuck : n ∈ greedyPath codec tradeoff cap ranked ∨
      cap ≤ (greedyPath codec tradeoff cap ranked).length := by
    rw [greedyPath_eq] at fit ⊢
    exact @Greedy.full_of_fits _ (fits codec false) cap _ ranked fits_antitone n member fit
  rcases stuck with taken | full
  · exact not_accepted_of_mem taken accepted
  · exact Nat.not_lt.mpr full room

theorem scan_entry {fresh : Bool} (room : 0 < cap) (f : Candidate F) (rest : List (Candidate F)) :
    Greedy.scan (fits codec fresh) cap [] (f :: rest) =
      Greedy.scan (fits codec fresh) cap [f] rest := by
  have fit : fits codec fresh [] f = true :=
    fits_iff.mpr ⟨fun _ _ => List.not_mem_nil, accepted_singleton f⟩
  rw [Greedy.scan, if_pos ⟨room, fit⟩, List.nil_append]

theorem entry_prefix_greedyPath (room : 0 < cap) (f : Candidate F) (rest : List (Candidate F)) :
    [f] <+: greedyPath codec tradeoff cap (f :: rest) := by
  rw [greedyPath_eq, scan_entry room]
  exact (Greedy.prefix_scan _ cap [f] rest).trans (Greedy.prefix_scan _ cap _ (f :: rest))

/-- The best-ranked candidate that can follow `f`; the safe tradeoff looks for one of
another country first. -/
def follower (codec : Codec) (tradeoff : Tradeoff) (ranked : List (Candidate F)) (f : Candidate F) :
    Option (Candidate F) :=
  (ranked.find? (fits codec (tradeoff = .safe) [f])).or (ranked.find? (fits codec false [f]))

theorem follower_prefix_greedyPath (room : 1 < cap) {f g : Candidate F} {rest : List (Candidate F)}
    (found : follower codec tradeoff (f :: rest) f = some g) :
    [f, g] <+: greedyPath codec tradeoff cap (f :: rest) := by
  have self : ∀ fresh, ¬ fits codec fresh [f] f = true := by
    intro fresh fit
    exact not_accepted_of_mem List.mem_cons_self (fits_iff.mp fit).2
  rw [greedyPath_eq, scan_entry (by omega)]
  rcases Option.or_eq_some_iff.mp found with first | ⟨none, second⟩
  · rw [List.find?_cons_of_neg (self _)] at first
    exact (Greedy.append_prefix_scan room first).trans (Greedy.prefix_scan _ cap _ (f :: rest))
  · rw [List.find?_cons_of_neg (self _)] at none
    rw [Greedy.scan_eq_self none]
    exact Greedy.append_prefix_scan room second

theorem exists_follower (tradeoff : Tradeoff) {f n : Candidate F} (member : n ∈ ranked)
    (accepted : Accepted codec [f, n]) :
    ∃ g, follower codec tradeoff ranked f = some g := by
  have fit : fits codec false [f] n = true :=
    fits_iff.mpr ⟨fun asked => absurd asked Bool.false_ne_true, accepted⟩
  rw [← Option.isSome_iff_exists, follower, Option.isSome_or, Bool.or_eq_true, List.find?_isSome,
    List.find?_isSome]
  exact .inr ⟨n, member, fit⟩

end greedy

end scans
section selection
variable {F : Type} {cands : List (Candidate F)} {tradeoff : Tradeoff}

theorem mem_validCandidates {n : Candidate F} :
    n ∈ validCandidates cands ↔ n ∈ cands ∧ n.Dialable := by
  rw [validCandidates, List.mem_filter, Outcome.isOk_iff, NodeInfo.validate_ok_iff]

section eligibles
variable [GoFloat F]

theorem mem_filterByBudget {budget : F} {n : Candidate F}
    (member : n ∈ filterByBudget cands budget) : n ∈ cands := by
  unfold filterByBudget at member
  split at member
  · exact member
  · exact List.mem_of_mem_filter member

theorem mem_validCandidates_of_mem_eligible {n : Candidate F}
    (member : n ∈ eligible cands tradeoff) : n ∈ validCandidates cands := by
  unfold eligible at member
  dsimp only at member
  split at member
  · exact mem_filterByBudget member
  · exact member

theorem eligible_eq_nil_iff : eligible cands tradeoff = [] ↔ validCandidates cands = [] := by
  constructor
  · intro none
    unfold eligible at none
    dsimp only at none
    split at none
    · next some =>
      rw [none] at some
      cases some
    · exact none
  · intro none
    rw [List.eq_nil_iff_forall_not_mem] at none ⊢
    exact fun n member => none n (mem_validCandidates_of_mem_eligible member)

end eligibles

variable [GoFloatDiff F] {a : Aggregator F}

theorem mem_rank {sorter : GoSort (Candidate F)} {n : Candidate F} :
    n ∈ a.rank sorter cands ↔ n ∈ cands :=
  sorter.mem_sort

theorem mem_rankFor {sorter : GoSort (Candidate F)} {n : Candidate F} :
    n ∈ a.rankFor sorter tradeoff cands ↔ n ∈ cands := by
  unfold Aggregator.rankFor
  split
  · exact sorter.mem_sort
  · exact mem_rank

theorem pickPair_eq_some_iff {sorter : GoSort (Candidate F)}
    {entry exit : Candidate F} : a.pickPair sorter cands = some (entry, exit) ↔
      ∃ rest, validCandidates (a.rank sorter cands) = entry :: exit :: rest := by
  unfold Aggregator.pickPair
  constructor
  · intro picked
    split at picked
    · next e x rest usable =>
      cases picked
      exact ⟨rest, usable⟩
    · cases picked
  · intro found
    obtain ⟨rest, usable⟩ := found
    rw [usable]

/-- `PickPair` answers as soon as two candidates are usable. -/
theorem isSome_pickPair {sorter : GoSort (Candidate F)} {n m : Candidate F}
    (inCands : n ∈ cands) (inCands' : m ∈ cands) (dialable : n.Dialable) (dialable' : m.Dialable)
    (different : n ≠ m) : (a.pickPair sorter cands).isSome = true := by
  have usable : n ∈ validCandidates (a.rank sorter cands) :=
    mem_validCandidates.mpr ⟨mem_rank.mpr inCands, dialable⟩
  have usable' : m ∈ validCandidates (a.rank sorter cands) :=
    mem_validCandidates.mpr ⟨mem_rank.mpr inCands', dialable'⟩
  unfold Aggregator.pickPair
  cases ranked : validCandidates (a.rank sorter cands) with
  | nil =>
    rw [ranked] at usable
    cases usable
  | cons first rest =>
    cases rest with
    | nil =>
      rw [ranked, List.mem_singleton] at usable usable'
      exact absurd (usable.trans usable'.symm) different
    | cons second more => rfl

theorem hopCap_pos (maxHops : ℤ) : 0 < hopCap maxHops := by
  unfold hopCap
  split
  · omega
  · split <;> omega

theorem hopCap_le_three (maxHops : ℤ) : hopCap maxHops ≤ 3 := by
  unfold hopCap
  split
  · omega
  · split <;> omega

/-- With a valid candidate there is a best-ranked one, and the path starts with it. -/
theorem exists_entry (codec : Codec) (sorter : GoSort (Candidate F)) (a : Aggregator F)
    (tradeoff : Tradeoff) (maxHops : ℤ) (some : validCandidates cands ≠ []) :
    ∃ f rest, a.rankFor sorter tradeoff (eligible cands tradeoff) = f :: rest ∧
      [f] <+: greedyPath codec tradeoff (hopCap maxHops)
        (a.rankFor sorter tradeoff (eligible cands tradeoff)) := by
  obtain ⟨n, member⟩ := List.exists_mem_of_ne_nil _ fun none => some (eligible_eq_nil_iff.mp none)
  have tried : n ∈ a.rankFor sorter tradeoff (eligible cands tradeoff) := mem_rankFor.mpr member
  obtain ⟨f, rest, ranked⟩ := List.exists_cons_of_ne_nil (List.ne_nil_of_mem tried)
  refine ⟨f, rest, ranked, ?_⟩
  rw [ranked]
  exact entry_prefix_greedyPath (hopCap_pos maxHops) f rest

/-- The second error of `SelectRoute` does not occur. -/
theorem selectRoute_eq (codec : Codec) (sorter : GoSort (Candidate F)) (a : Aggregator F)
    (cands : List (Candidate F)) (maxHops : ℤ) (tradeoff : Tradeoff) :
    a.selectRoute codec sorter cands maxHops tradeoff =
      if validCandidates cands = [] then .error .noValid
      else .ok (greedyPath codec tradeoff (hopCap maxHops)
        (a.rankFor sorter tradeoff (eligible cands tradeoff))) := by
  unfold Aggregator.selectRoute
  by_cases none : validCandidates cands = []
  · rw [if_pos none, Outcome.refuseIf, if_pos (List.length_eq_zero_iff.mpr none)]
    rfl
  · obtain ⟨f, rest, _, entry⟩ := exists_entry codec sorter a tradeoff maxHops none
    have nonempty := entry.length_le
    rw [if_neg none, Outcome.refuseIf, if_neg (by rwa [List.length_eq_zero_iff])]
    dsimp only
    rw [Outcome.refuseIf, if_neg fun zero => by simp [zero] at nonempty]
    rfl

end selection

end VeilNet.Source.Multihop
