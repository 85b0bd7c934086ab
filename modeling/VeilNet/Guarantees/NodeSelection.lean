import VeilNet.Source.Registry.Select
import VeilNet.Lib.Least
import VeilNet.Guarantees.RegistryIdentity

/-!
# The node that `Select` chooses

By the package comment a node is chosen by score, price and ID, and without an entry in `Stats` it
counts with the middle of the latency range. The code gives it the best latency: its score is 3/20
lower than documented. Scores are exact rationals.
-/
namespace VeilNet.Guarantees.NodeSelection
open Lib Source.Registry

section documented
variable (c : Criteria ℚ)

/-- The measured latency, if there is one. -/
def latency (n : Node ℚ) : Option ℚ :=
  (c.stats.lookup n.nodeID).bind fun st => if 0 < st.latencyMs then some st.latencyMs else none

/-- A signal in 0..1, or 1/2. -/
def signal (field : NodeStats ℚ → ℚ) (n : Node ℚ) : ℚ :=
  ((c.stats.lookup n.nodeID).bind fun st =>
    if 0 ≤ field st ∧ field st ≤ 1 then some (field st) else none).getD (1 / 2)

def history (n : Node ℚ) : ℚ :=
  match c.history with
  | some score => max 0 (min 1 (score n.nodeID))
  | none => 1 / 2

/-- The score of the package comment; what is unknown counts 1/2. A latency that is not
known enters the range of the latencies as 0. -/
def documentedScore (cands : List (Node ℚ)) (n : Node ℚ) : ℚ :=
  3 / 10 * minMax (cands.map (·.pricePerHourDERO)) n.pricePerHourDERO
    + 3 / 10 * ((latency c n).map (minMax (cands.map fun m => (latency c m).getD 0))).getD (1 / 2)
    + 3 / 20 * signal c (·.load) n + 3 / 20 * (1 - signal c (·.uptime) n)
    - 1 / 10 * history c n

/-- What a node without an entry is ahead of its documented score. -/
def headStart (n : Node ℚ) : ℚ := if (c.stats.lookup n.nodeID).isSome then 0 else 3 / 20

end documented

section score
variable {c : Criteria ℚ} {n : Node ℚ}

theorem latOf_eq : c.latOf = fun n => (latency c n).getD 0 := by
  funext n
  rw [Criteria.latOf, latency]
  cases c.stats.lookup n.nodeID with
  | none => rfl
  | some st =>
    by_cases positive : 0 < st.latencyMs
    · simp [GoFloat.lt, GoFloat.ofInt, positive]
    · simp [GoFloat.lt, GoFloat.ofInt, positive]

theorem latOf_nonneg (n : Node ℚ) : 0 ≤ c.latOf n := by
  simp only [latOf_eq, latency]
  cases c.stats.lookup n.nodeID with
  | none => rfl
  | some st =>
    by_cases positive : 0 < st.latencyMs
    · simp [positive, positive.le]
    · simp [positive]

/-- A candidate without an entry has the best latency of all. -/
theorem minMax_missing {cands : List (Node ℚ)} (member : n ∈ cands) (missing : c.latOf n = 0) :
    minMax (cands.map c.latOf) 0 = 0 := by
  have least : (cands.map c.latOf).min? = some 0 := by
    refine List.min?_eq_some_iff.mpr ⟨?_, ?_⟩
    · exact List.mem_map.mpr ⟨n, member, missing⟩
    · intro l other
      obtain ⟨m, _, rfl⟩ := List.mem_map.mp other
      exact latOf_nonneg m
  rw [minMax, least, Option.getD_some, sub_self, zero_div]

theorem history_eq (n : Node ℚ) :
    (c.history.map fun score => clip01 (score n.nodeID)).getD (1 / 2) = history c n := by
  unfold history
  cases c.history with
  | none => rfl
  | some score => exact clip01_rat _

theorem signal_eq {st : NodeStats ℚ} (found : c.stats.lookup n.nodeID = some st)
    (field : NodeStats ℚ → ℚ) : clip01 (inUnit (field st)) = signal c field n := by
  rw [clip01_inUnit, inUnit_rat, signal, found, Option.bind_some]
  split
  · rfl
  · rfl

theorem score_eq {first : Node ℚ} {rest : List (Node ℚ)} (member : n ∈ first :: rest) :
    c.score (c.ranges first rest) n = documentedScore c (first :: rest) n - headStart c n := by
  have half : (hundredths 50 : ℚ) = 1 / 2 := by norm_num [hundredths, GoFloat.div, GoFloat.ofInt]
  have halfUnit : clip01 (hundredths 50 : ℚ) = 1 / 2 := by
    rw [clip01_rat, half]
    norm_num
  rw [score_rat, history_eq, ranges_eq, documentedScore]
  simp only [norm_eq_minMax, Criteria.signals, ← latOf_eq]
  cases found : c.stats.lookup n.nodeID with
  | none =>
    have missing : c.latOf n = 0 := by
      rw [Criteria.latOf, found]
      rfl
    simp only [missing, minMax_missing member missing, latency, signal, headStart, found, halfUnit,
      Option.bind_none, Option.map_none, Option.getD_none, Option.isSome_none, Bool.false_eq_true,
      if_false]
    ring
  | some st =>
    simp only [signal_eq found fun st => st.load, signal_eq found fun st => st.uptime, latency,
      headStart, found, half, Option.bind_some, Option.isSome_some, if_true, sub_zero]
    by_cases positive : 0 < st.latencyMs
    · simp [GoFloat.lt, GoFloat.ofInt, positive]
    · simp [GoFloat.lt, GoFloat.ofInt, positive]

/-- The documented score does not depend on the order of the candidates. -/
theorem documentedScore_perm {cands cands' : List (Node ℚ)} (perm : cands.Perm cands') :
    documentedScore c cands = documentedScore c cands' := by
  funext n
  rw [documentedScore, documentedScore, minMax_perm (perm.map _), minMax_perm (perm.map _)]

end score

section choice

def Candidates (s : Store ℚ) (c : Criteria ℚ) : Set (Node ℚ) :=
  { n | (∃ id, s.nodes.lookup id = some n) ∧ n.status = statusActive ∧ c.passes n = true }

/-- Documented score, price and ID. -/
def documentedKey (s : Store ℚ) (c : Criteria ℚ) (n : Node ℚ) : ℚ ×ₗ ℚ ×ₗ String :=
  n.key (documentedScore c (c.candidates .forward s) n)

/-- The same with the head start of the nodes without an entry. -/
def actualKey (s : Store ℚ) (c : Criteria ℚ) (n : Node ℚ) : ℚ ×ₗ ℚ ×ₗ String :=
  n.key (documentedScore c (c.candidates .forward s) n - headStart c n)

variable {s : Store ℚ} {c : Criteria ℚ} {n : Node ℚ} {order : RangeOrder}
  {sorter : GoSort (Scored ℚ)}

theorem finite_candidates (s : Store ℚ) (c : Criteria ℚ) : (Candidates s c).Finite := by
  refine (List.finite_toSet (c.candidates .forward s)).subset fun n member => ?_
  exact mem_candidates.mpr member

theorem select_eq_error_iff_candidates {e : SelectError} :
    s.select order sorter c = .error e ↔ ∀ n, n ∉ Candidates s c := by
  rw [select_eq_error_iff, List.eq_nil_iff_forall_not_mem]
  exact forall_congr' fun n => not_congr mem_candidates

theorem key_scored {first : Node ℚ} {rest : List (Node ℚ)}
    (cands : c.candidates order s = first :: rest) (member : n ∈ first :: rest) :
    n.key (c.score (c.ranges first rest) n) = actualKey s c n := by
  rw [actualKey, score_eq member, ← cands, documentedScore_perm (candidates_perm order .forward)]

theorem leastBy_of_select (answer : s.select order sorter c = .ok n) :
    LeastBy (Candidates s c) (actualKey s c) n := by
  obtain ⟨first, rest, cands, a, head, rfl⟩ := select_eq_ok_iff.mp answer
  obtain ⟨inside, least⟩ := sorter.head_least strictWeak_less head
  obtain ⟨n, member, rfl⟩ := List.mem_map.mp inside
  refine ⟨mem_candidates.mp (cands ▸ member), fun m other => ?_⟩
  replace other : m ∈ first :: rest := cands ▸ mem_candidates.mpr other
  have ahead := (less_eq_false_iff _ _).mp (least _ (List.mem_map_of_mem other))
  rwa [key_scored cands member, key_scored cands other] at ahead

/-- An answer of `Select`, for some order of the map and some sorting algorithm. -/
def Answers (s : Store ℚ) (c : Criteria ℚ) (answer : Except SelectError (Node ℚ)) : Prop :=
  ∃ order sorter, s.select order sorter c = answer

/-- Each node that is least by the actual key is the answer of some run. -/
theorem exists_select (least : LeastBy (Candidates s c) (actualKey s c) n) :
    ∃ sorter, s.select .forward sorter c = .ok n := by
  have member : n ∈ c.candidates .forward s := mem_candidates.mpr least.1
  cases cands : c.candidates .forward s with
  | nil =>
    rw [cands] at member
    cases member
  | cons first rest =>
    rw [cands] at member
    refine ⟨GoSort.preferring ⟨n, c.score (c.ranges first rest) n⟩,
      select_eq_ok_iff.mpr ⟨first, rest, cands, _, GoSort.head_preferring ?_ ?_, rfl⟩⟩
    · exact List.mem_map_of_mem member
    · intro b other
      obtain ⟨m, otherMember, rfl⟩ := List.mem_map.mp other
      rw [less_eq_false_iff, key_scored cands member, key_scored cands otherMember]
      exact least.2 m (mem_candidates.mp (cands ▸ otherMember))

theorem answers_error_iff {e : SelectError} : Answers s c (.error e) ↔ ∀ n, n ∉ Candidates s c := by
  constructor
  · intro answers
    obtain ⟨order, sorter, answer⟩ := answers
    exact select_eq_error_iff_candidates.mp answer
  · intro none
    exact ⟨.forward, .insertion, select_eq_error_iff_candidates.mpr none⟩

theorem answers_ok_iff : Answers s c (.ok n) ↔ LeastBy (Candidates s c) (actualKey s c) n := by
  constructor
  · intro answers
    obtain ⟨order, sorter, answer⟩ := answers
    exact leastBy_of_select answer
  · intro least
    obtain ⟨sorter, answer⟩ := exists_select least
    exact ⟨.forward, sorter, answer⟩

end choice

section lead
variable {s : Store ℚ} {c : Criteria ℚ} {held : String → Prop}

/-- Some candidate that is not held is before all candidates that are, when `lead` is taken
off the documented scores of those. -/
def RestAhead (s : Store ℚ) (c : Criteria ℚ) (held : String → Prop) (lead : ℚ) : Prop :=
  ∃ m ∈ Candidates s c, ¬ held m.nodeID ∧ ∀ u ∈ Candidates s c, held u.nodeID →
    actualKey s c m < u.key (documentedScore c (c.candidates .forward s) u - lead)

theorem headStart_missing {n : Node ℚ} (missing : c.stats.lookup n.nodeID = none) :
    headStart c n = 3 / 20 := by
  rw [headStart, missing]
  rfl

theorem headStart_present {n : Node ℚ} (present : c.stats.lookup n.nodeID ≠ none) :
    headStart c n = 0 :=
  if_pos (Option.isSome_iff_ne_none.mpr present)

theorem headStart_nonneg (n : Node ℚ) : 0 ≤ headStart c n := by
  unfold headStart
  split
  · exact le_refl 0
  · norm_num

variable {key : Node ℚ → ℚ ×ₗ ℚ ×ₗ String}

theorem handicap_of_held (missing : ∀ id, held id → c.stats.lookup id = none)
    (heldKey : ∀ n : Node ℚ, held n.nodeID → key n = documentedKey s c n)
    (freeKey : ∀ n : Node ℚ, ¬ held n.nodeID → key n = actualKey s c n) :
    Handicap (Candidates s c) { n | held n.nodeID } (actualKey s c) key := by
  constructor
  · intro n _ free
    exact freeKey n free
  · intro n _
    by_cases isHeld : held n.nodeID
    · rw [heldKey n isHeld]
      exact key_mono n (sub_le_self _ (headStart_nonneg n))
    · exact (freeKey n isHeld).ge
  · intro a _ aHeld b _ bHeld
    rw [heldKey a aHeld, heldKey b bHeld, actualKey, actualKey, headStart_missing (missing _ aHeld),
      headStart_missing (missing _ bHeld), key_sub_le_key_sub]
    exact Iff.rfl
  · intro a _ aHeld b _ bFree
    have other : a.nodeID ≠ b.nodeID := by
      intro same
      apply bFree
      change held b.nodeID
      rw [← same]
      exact aHeld
    rw [heldKey a aHeld, freeKey b bFree]
    exact ⟨fun keys => other (nodeID_eq_of_key_eq keys), fun keys =>
      other (nodeID_eq_of_key_eq keys)⟩

/-- Taking away the head start of some nodes changes the choice exactly when that brings
another node before all of them. -/
theorem leastBy_held_iff (missing : ∀ id, held id → c.stats.lookup id = none)
    (heldKey : ∀ n : Node ℚ, held n.nodeID → key n = documentedKey s c n)
    (freeKey : ∀ n : Node ℚ, ¬ held n.nodeID → key n = actualKey s c n) :
    (∀ n, LeastBy (Candidates s c) key n ↔ LeastBy (Candidates s c) (actualKey s c) n) ↔
      (RestAhead s c held 0 → RestAhead s c held (3 / 20)) := by
  rw [(handicap_of_held missing heldKey freeKey).leastBy_iff (finite_candidates s c)]
  have without : FreeAhead (Candidates s c) { n | held n.nodeID } key ↔ RestAhead s c held 0 := by
    refine exists_congr fun m => and_congr_right fun _ => and_congr_right fun free => ?_
    refine forall_congr' fun u => forall_congr' fun _ => forall_congr' fun isHeld => ?_
    rw [freeKey m free, heldKey u isHeld, documentedKey, sub_zero]
  have withLead : FreeAhead (Candidates s c) { n | held n.nodeID } (actualKey s c) ↔
      RestAhead s c held (3 / 20) := by
    refine exists_congr fun m => and_congr_right fun _ => and_congr_right fun _ => ?_
    refine forall_congr' fun u => forall_congr' fun _ => forall_congr' fun isHeld => ?_
    rw [actualKey, actualKey, headStart_missing (missing _ isHeld)]
  rw [without, withLead]

end lead

section argmin
variable {s : Store ℚ} {c : Criteria ℚ}

/-- The answer that the comments promise: no candidates, or the one that is before all
others by documented score, price and ID. -/
def IsDocumentedChoice (s : Store ℚ) (c : Criteria ℚ) : Except SelectError (Node ℚ) → Prop
  | .error _ => ∀ n, n ∉ Candidates s c
  | .ok n => n ∈ Candidates s c ∧
    ∀ m ∈ Candidates s c, m ≠ n → documentedKey s c n < documentedKey s c m

/-- A node without an entry in `Stats`. -/
def Unmeasured (c : Criteria ℚ) (id : String) : Prop := c.stats.lookup id = none

variable (keyed : ∀ id n, s.nodes.lookup id = some n → n.nodeID = id)
include keyed

/-- Whatever the scores are, the keys tell the candidates apart by their IDs. -/
theorem keys_apart (score : Node ℚ → ℚ) : ∀ a ∈ Candidates s c, ∀ b ∈ Candidates s c,
    a.key (score a) = b.key (score b) → a = b := by
  intro a member b member' keys
  obtain ⟨⟨id, found⟩, _⟩ := member
  obtain ⟨⟨id', found'⟩, _⟩ := member'
  have same : a.nodeID = b.nodeID := nodeID_eq_of_key_eq keys
  obtain rfl : id = id' := (keyed id a found).symm.trans (same.trans (keyed id' b found'))
  exact Option.some.inj (found.symm.trans found')

theorem isDocumentedChoice_ok_iff {n : Node ℚ} : IsDocumentedChoice s c (.ok n) ↔
    LeastBy (Candidates s c) (documentedKey s c) n := by
  refine and_congr_right fun member => forall_congr' fun m => forall_congr' fun other => ?_
  constructor
  · intro ahead
    by_cases same : m = n
    · rw [same]
    · exact (ahead same).le
  · intro le different
    exact lt_of_le_of_ne le fun keys => different (keys_apart keyed _ m other n member keys.symm)

/-- The choice is as documented in every run exactly when both keys have the same least
candidate. -/
theorem isDocumentedChoice_iff :
    (∀ order sorter, IsDocumentedChoice s c (s.select order sorter c)) ↔
      ∀ n, LeastBy (Candidates s c) (documentedKey s c) n ↔
        LeastBy (Candidates s c) (actualKey s c) n := by
  constructor
  · intro documented
    have chosen : ∀ n, LeastBy (Candidates s c) (actualKey s c) n →
        LeastBy (Candidates s c) (documentedKey s c) n := by
      intro n least
      obtain ⟨sorter, answer⟩ := exists_select least
      have choice := documented .forward sorter
      rw [answer] at choice
      exact (isDocumentedChoice_ok_iff keyed).mp choice
    intro n
    constructor
    · intro least
      obtain ⟨n', least'⟩ := @exists_leastBy _ _ _ _ (actualKey s c) _
          (finite_candidates s c) least.1
      rw [least.eq (keys_apart keyed _) (chosen n' least')]
      exact least'
    · exact chosen n
  · intro agree order sorter
    cases answer : s.select order sorter c with
    | error e => exact select_eq_error_iff_candidates.mp answer
    | ok n =>
      exact (isDocumentedChoice_ok_iff keyed).mpr ((agree n).mpr (leastBy_of_select answer))

/-- The answer depends neither on the order of the map nor on the sorting algorithm. -/
theorem select_unique (order order' : RangeOrder) (sorter sorter' : GoSort (Scored ℚ)) :
    s.select order sorter c = s.select order' sorter' c := by
  cases answer : s.select order sorter c with
  | error e =>
    have none := select_eq_error_iff_candidates.mp answer
    exact (select_eq_error_iff_candidates.mpr none).symm
  | ok n =>
    cases answer' : s.select order' sorter' c with
    | error e =>
      have refused : s.select order sorter c = .error e :=
        select_eq_error_iff_candidates.mpr (select_eq_error_iff_candidates.mp answer')
      cases answer.symm.trans refused
    | ok n' => rw [(leastBy_of_select answer).eq (keys_apart keyed _) (leastBy_of_select answer')]

end argmin

/-- For every store with the IDs as keys, every iteration order and every sorting algorithm: there
is no answer exactly when no active node passes the filters, and it does not depend on order or
algorithm. It is the least candidate by documented score, price and ID exactly when: if some
measured candidate is before all unmeasured ones, then some is before them still when 3/20 is
taken off their scores. -/
theorem select_documented_iff (s : Store ℚ)
    (keyed : ∀ id n, s.nodes.lookup id = some n → n.nodeID = id) (c : Criteria ℚ) :
    (∀ order sorter, s.select order sorter c = .error .noCandidates ↔
        ∀ n, n ∉ Candidates s c) ∧
      (∀ order order' sorter sorter', s.select order sorter c = s.select order' sorter' c) ∧
      ((∀ order sorter, IsDocumentedChoice s c (s.select order sorter c)) ↔
        (RestAhead s c (Unmeasured c) 0 → RestAhead s c (Unmeasured c) (3 / 20))) := by
  refine ⟨fun order sorter => select_eq_error_iff_candidates, select_unique keyed, ?_⟩
  rw [isDocumentedChoice_iff keyed]
  refine leastBy_held_iff (fun id unmeasured => unmeasured) (fun n _ => rfl) fun n measured => ?_
  rw [actualKey, headStart_present measured, sub_zero, documentedKey]

section sample

def node (id : String) (price : ℚ) : Node ℚ :=
  { RegistryIdentity.sampleNode with nodeID := id, pricePerHourDERO := price }

def pool (nodes : List (Node ℚ)) : Store ℚ :=
  { nodes := nodes.foldl (fun m n => m.insert n.nodeID n) ∅, opKeys := ∅, mirror := false,
    path := "", minBond := 10 }

/-- Two nodes, at 10 ms and at 100 ms. -/
def pings : Criteria ℚ :=
  { region := "", maxPricePerHour := 0, history := none
    stats := AList.insert "a" ⟨10, 1 / 2, 1 / 2⟩ (AList.insert "z" ⟨100, 1 / 2, 1 / 2⟩ ∅) }

/-- A dear node that was not measured is not chosen. -/
theorem dearNode_documented :
    (pool [node "a" 1, node "b" 9]).select .forward .insertion pings = .ok (node "a" 1) ∧
      IsDocumentedChoice (pool [node "a" 1, node "b" 9]) pings (.ok (node "a" 1)) := by
  have keyed : ∀ id n, (pool [node "a" 1, node "b" 9]).nodes.lookup id = some n → n.nodeID = id :=
    GoMap.forall_lookup.mpr (by decide)
  have chosen : (pool [node "a" 1, node "b" 9]).select .forward .insertion pings =
      .ok (node "a" 1) := by decide +kernel
  have documented := ((select_documented_iff _ keyed pings).2.2.mpr ?_) .forward .insertion
  · rw [chosen] at documented
    exact ⟨chosen, documented⟩
  · intro _
    have both : pings.candidates .forward (pool [node "a" 1, node "b" 9]) =
        [node "b" 9, node "a" 1] := by decide
    have measured : ¬ Unmeasured pings "a" := fun missing => by cases missing
    refine ⟨node "a" 1, mem_candidates.mp (by rw [both]; decide), measured,
      fun u member unmeasured => ?_⟩
    have listed : u ∈ [node "b" 9, node "a" 1] := both ▸ mem_candidates.mpr member
    rw [List.mem_pair] at listed
    rw [actualKey, both]
    rcases listed with rfl | rfl
    · -- the scores are equal, and the prices decide
      exact Prod.Lex.toLex_lt_toLex.mpr (.inr ⟨by decide +kernel,
        Prod.Lex.toLex_lt_toLex.mpr (.inl (by decide))⟩)
    · exact absurd unmeasured measured

/-- Of three nodes with one price the unmeasured one is chosen before the one at 10 ms. -/
theorem unmeasuredNode_not_documented :
    (∀ id n, (pool [node "a" 1, node "b" 1, node "z" 1]).nodes.lookup id = some n → n.nodeID = id) ∧
      (pool [node "a" 1, node "b" 1, node "z" 1]).select .forward .insertion pings =
        .ok (node "b" 1) ∧
      ¬ IsDocumentedChoice (pool [node "a" 1, node "b" 1, node "z" 1]) pings
        (.ok (node "b" 1)) := by
  refine ⟨GoMap.forall_lookup.mpr (by decide), by decide +kernel, fun choice => ?_⟩
  have other : node "a" 1 ∈ Candidates (pool [node "a" 1, node "b" 1, node "z" 1]) pings :=
    mem_candidates.mp (by decide : node "a" 1 ∈ pings.candidates .forward _)
  have ahead : documentedScore pings (pings.candidates .forward
      (pool [node "a" 1, node "b" 1, node "z" 1])) (node "a" 1) < documentedScore pings
      (pings.candidates .forward (pool [node "a" 1, node "b" 1, node "z" 1])) (node "b" 1) := by
    decide +kernel
  exact lt_asymm (choice.2 _ other (by decide)) (Prod.Lex.toLex_lt_toLex.mpr (.inl ahead))

end sample

section neutral

/-- The entry that means: latency unknown, load and uptime in the middle. -/
def neutralStats : NodeStats ℚ := ⟨0, 1 / 2, 1 / 2⟩

/-- The criteria with this entry for some nodes. -/
def withNeutral (c : Criteria ℚ) (nodes : List (Node ℚ)) : Criteria ℚ :=
  { c with stats := nodes.foldl (fun stats n => stats.insert n.nodeID neutralStats) c.stats }

variable {c : Criteria ℚ} {nodes : List (Node ℚ)}

theorem lookup_withNeutral (id : String) : (withNeutral c nodes).stats.lookup id =
    if id ∈ nodes.map (·.nodeID) then some neutralStats else c.stats.lookup id :=
  GoMap.lookup_foldl_insert (fun n : Node ℚ => n.nodeID) nodes c.stats neutralStats id

variable (missing : ∀ n ∈ nodes, c.stats.lookup n.nodeID = none)
include missing

theorem missing_of_mem {id : String} (member : id ∈ nodes.map (·.nodeID)) :
    c.stats.lookup id = none := by
  obtain ⟨n, inside, rfl⟩ := List.mem_map.mp member
  exact missing n inside

theorem latency_withNeutral : latency (withNeutral c nodes) = latency c := by
  funext n
  rw [latency, latency, lookup_withNeutral]
  split
  · next member =>
    rw [missing_of_mem missing member]
    simp [neutralStats]
  · rfl

theorem signal_withNeutral (field : NodeStats ℚ → ℚ) (middle : field neutralStats = 1 / 2) :
    signal (withNeutral c nodes) field = signal c field := by
  funext n
  rw [signal, signal, lookup_withNeutral]
  split
  · next member =>
    rw [missing_of_mem missing member, Option.bind_some, middle]
    norm_num
  · rfl

/-- The documented scores say already what the entries say. -/
theorem documentedScore_withNeutral (cands : List (Node ℚ)) :
    documentedScore (withNeutral c nodes) cands = documentedScore c cands := by
  funext n
  have sameHistory : history (withNeutral c nodes) n = history c n := rfl
  have load := signal_withNeutral missing (fun st => st.load) rfl
  have uptime := signal_withNeutral missing (fun st => st.uptime) rfl
  rw [documentedScore, documentedScore, latency_withNeutral missing, load, uptime, sameHistory]

theorem actualKey_withNeutral_held (s : Store ℚ) {n : Node ℚ}
    (held : n.nodeID ∈ nodes.map (·.nodeID)) :
    actualKey s (withNeutral c nodes) n = documentedKey s c n := by
  have present : (withNeutral c nodes).stats.lookup n.nodeID ≠ none := by
    rw [lookup_withNeutral, if_pos held]
    exact Option.some_ne_none _
  rw [actualKey, headStart_present present, sub_zero, documentedScore_withNeutral missing]
  rfl

theorem actualKey_withNeutral_free (s : Store ℚ) {n : Node ℚ}
    (free : n.nodeID ∉ nodes.map (·.nodeID)) :
    actualKey s (withNeutral c nodes) n = actualKey s c n := by
  have start : headStart (withNeutral c nodes) n = headStart c n := by
    rw [headStart, headStart, lookup_withNeutral, if_neg free]
  rw [actualKey, start, documentedScore_withNeutral missing]
  rfl

end neutral

/-- Giving nodes without an entry in `Stats` the neutral entry leaves the possible answers of
`Select` exactly when: if another candidate is before all of them by their documented scores, then
one is before them still when 3/20 is taken off these scores. -/
theorem select_neutral_iff (s : Store ℚ) (c : Criteria ℚ) (nodes : List (Node ℚ))
    (missing : ∀ n ∈ nodes, c.stats.lookup n.nodeID = none) :
    (∀ answer, Answers s (withNeutral c nodes) answer ↔ Answers s c answer) ↔
      (RestAhead s c (· ∈ nodes.map (·.nodeID)) 0 →
        RestAhead s c (· ∈ nodes.map (·.nodeID)) (3 / 20)) := by
  rw [← leastBy_held_iff (fun id held => missing_of_mem missing held)
    (fun n held => actualKey_withNeutral_held missing s held)
    fun n free => actualKey_withNeutral_free missing s free]
  constructor
  · intro same n
    have answers := same (.ok n)
    rwa [answers_ok_iff, answers_ok_iff] at answers
  · intro same answer
    cases answer with
    | error e =>
      rw [answers_error_iff, answers_error_iff]
      rfl
    | ok n =>
      rw [answers_ok_iff, answers_ok_iff]
      exact same n

section neutralSample

theorem lookup_pings : ∀ n ∈ [node "b" 1], pings.stats.lookup n.nodeID = none := by
  intro n member
  rw [List.mem_singleton.mp member]
  rfl

/-- The neutral entry does not matter to a node that is chosen by its price. -/
theorem cheapNode_neutral :
    (∀ n ∈ [node "b" 1], pings.stats.lookup n.nodeID = none) ∧
      ∀ answer, Answers (pool [node "a" 9, node "b" 1]) (withNeutral pings [node "b" 1]) answer ↔
        Answers (pool [node "a" 9, node "b" 1]) pings answer := by
  refine ⟨lookup_pings, (select_neutral_iff _ pings [node "b" 1] lookup_pings).mpr ?_⟩
  intro othersAhead
  exfalso
  obtain ⟨m, member, free, ahead⟩ := othersAhead
  have both : pings.candidates .forward (pool [node "a" 9, node "b" 1]) =
      [node "b" 1, node "a" 9] := by decide
  have listed : m ∈ [node "b" 1, node "a" 9] := both ▸ mem_candidates.mpr member
  have inside : node "b" 1 ∈ Candidates (pool [node "a" 9, node "b" 1]) pings :=
    mem_candidates.mp (both ▸ List.mem_cons_self)
  have before := ahead (node "b" 1) inside (List.mem_singleton.mpr rfl)
  rw [actualKey, both] at before
  rcases List.mem_pair.mp listed with rfl | rfl
  · exact free (List.mem_singleton.mpr rfl)
  · exact lt_asymm before (Prod.Lex.toLex_lt_toLex.mpr (.inl (by decide +kernel)))

/-- The neutral entry for the unmeasured one of three nodes brings another one forward. -/
theorem unmeasuredNode_not_neutral :
    (∀ n ∈ [node "b" 1], pings.stats.lookup n.nodeID = none) ∧
      node "b" 1 ∈ (pool [node "a" 1, node "b" 1, node "z" 1]).active .forward ∧
      (pool [node "a" 1, node "b" 1, node "z" 1]).select .forward .insertion pings =
        .ok (node "b" 1) ∧
      (pool [node "a" 1, node "b" 1, node "z" 1]).select .forward .insertion
        (withNeutral pings [node "b" 1]) = .ok (node "a" 1) :=
  ⟨lookup_pings, by decide, by decide +kernel, by decide +kernel⟩

end neutralSample

end VeilNet.Guarantees.NodeSelection
