import VeilNet.Source.Registry.Store
import VeilNet.Lib.GoSort
import Mathlib.Data.Prod.Lex
import Mathlib.Data.String.Basic

/-!
The choice of a node: `internal/registry/select.go`. The order in which the node map is
visited and the sorting algorithm are arguments. A `History` is the function that its
`Score` computes.
-/
namespace VeilNet.Source.Registry
open Lib

structure NodeStats (F : Type) where
  latencyMs : F
  load : F
  uptime : F

structure Criteria (F : Type) where
  region : String
  maxPricePerHour : F
  stats : GoMap String (NodeStats F)
  history : Option (String → F)

inductive SelectError where
  | noCandidates
  deriving DecidableEq

def Store.active {F : Type} (order : RangeOrder) (s : Store F) : List (Node F) :=
  ((order.visit s.nodes.entries).map (·.2)).filter fun n => n.status = statusActive

section scoring
variable {F : Type} [GoFloatDiff F]

def hundredths (k : ℤ) : F := GoFloat.div (GoFloat.ofInt k) (GoFloat.ofInt 100)

def wPrice : F := hundredths 30

def wLatency : F := hundredths 30

def wLoad : F := hundredths 15

def wUptime : F := hundredths 15

def wHistory : F := hundredths 10

def clip01 (v : F) : F :=
  if GoFloat.lt v (GoFloat.ofInt 0) then GoFloat.ofInt 0
  else if GoFloat.lt (GoFloat.ofInt 1) v then GoFloat.ofInt 1
  else v

def Criteria.passes (c : Criteria F) (n : Node F) : Bool :=
  !(c.region ≠ "" && n.region ≠ c.region) &&
    !(GoFloat.lt (GoFloat.ofInt 0) c.maxPricePerHour &&
      GoFloat.lt c.maxPricePerHour n.pricePerHourDERO)

def Criteria.candidates (c : Criteria F) (order : RangeOrder) (s : Store F) : List (Node F) :=
  (s.active order).filter c.passes

/-- The measured latency, 0 when there is none. -/
def Criteria.latOf (c : Criteria F) (n : Node F) : F :=
  match c.stats.lookup n.nodeID with
  | some st => if GoFloat.lt (GoFloat.ofInt 0) st.latencyMs then st.latencyMs else GoFloat.ofInt 0
  | none => GoFloat.ofInt 0

/-- What the first loop over the candidates computes. -/
structure Ranges (F : Type) where
  minP : F
  maxP : F
  minL : F
  maxL : F
  first : Bool

def Ranges.init (n : Node F) : Ranges F :=
  ⟨n.pricePerHourDERO, n.pricePerHourDERO, GoFloat.ofInt 0, GoFloat.ofInt 0, true⟩

/-- `if v < lo { lo = v }`. -/
def lower (lo v : F) : F := if GoFloat.lt v lo then v else lo

/-- `if v > hi { hi = v }`. -/
def raise (hi v : F) : F := if GoFloat.lt hi v then v else hi

def Ranges.visit (c : Criteria F) (r : Ranges F) (n : Node F) : Ranges F where
  minP := lower r.minP n.pricePerHourDERO
  maxP := raise r.maxP n.pricePerHourDERO
  minL := if r.first then c.latOf n else lower r.minL (c.latOf n)
  maxL := if r.first then c.latOf n else raise r.maxL (c.latOf n)
  first := false

def norm (v lo hi : F) : F :=
  if GoFloat.le hi lo then GoFloat.ofInt 0
  else GoFloat.div (GoFloatDiff.sub v lo) (GoFloatDiff.sub hi lo)

/-- The value, if it is in 0..1, and otherwise the neutral one. -/
def inUnit (v : F) : F :=
  if GoFloat.le (GoFloat.ofInt 0) v && GoFloat.le v (GoFloat.ofInt 1) then v else hundredths 50

/-- The latency, load and uptime that enter the score. -/
def Criteria.signals (c : Criteria F) (r : Ranges F) (n : Node F) : F × F × F :=
  match c.stats.lookup n.nodeID with
  | some s2 =>
    (if GoFloat.lt (GoFloat.ofInt 0) s2.latencyMs then norm s2.latencyMs r.minL r.maxL
      else hundredths 50,
     inUnit s2.load, inUnit s2.uptime)
  | none => (norm (c.latOf n) r.minL r.maxL, hundredths 50, hundredths 50)

def Criteria.score (c : Criteria F) (r : Ranges F) (n : Node F) : F :=
  let (lat, load, up) := c.signals r n
  let hist := match c.history with
    | some score => clip01 (score n.nodeID)
    | none => hundredths 50
  GoFloatDiff.sub
    (GoFloatSum.add
      (GoFloatSum.add
        (GoFloatSum.add (GoFloat.mul wPrice (norm n.pricePerHourDERO r.minP r.maxP))
          (GoFloat.mul wLatency lat))
        (GoFloat.mul wLoad (clip01 load)))
      (GoFloat.mul wUptime (GoFloatDiff.sub (GoFloat.ofInt 1) (clip01 up))))
    (GoFloat.mul wHistory hist)

structure Scored (F : Type) where
  n : Node F
  score : F
  deriving DecidableEq

/-- Floats that compare both ways are equal. -/
def same (x y : F) : Bool := GoFloat.le x y && GoFloat.le y x

def Scored.less (a b : Scored F) : Bool :=
  if !same a.score b.score then GoFloat.lt a.score b.score
  else if !same a.n.pricePerHourDERO b.n.pricePerHourDERO then
    GoFloat.lt a.n.pricePerHourDERO b.n.pricePerHourDERO
  else decide (a.n.nodeID < b.n.nodeID)

def Criteria.ranges (c : Criteria F) (first : Node F) (rest : List (Node F)) : Ranges F :=
  (first :: rest).foldl (Ranges.visit c) (Ranges.init first)

/-- The candidates with their scores; there is a first one. -/
def Criteria.scored (c : Criteria F) (first : Node F) (rest : List (Node F)) : List (Scored F) :=
  (first :: rest).map fun n => ⟨n, c.score (c.ranges first rest) n⟩

def Store.select (order : RangeOrder) (sorter : GoSort (Scored F)) (s : Store F) (c : Criteria F) :
    Except SelectError (Node F) :=
  match c.candidates order s with
  | [] => .error .noCandidates
  | first :: rest =>
    .ok ((sorter.sort Scored.less (c.scored first rest)).head
      (sorter.sort_ne_nil _ (List.cons_ne_nil _ _))).n

variable {order : RangeOrder} {sorter : GoSort (Scored F)} {s : Store F} {c : Criteria F}

theorem mem_candidates {n : Node F} : n ∈ c.candidates order s ↔
    (∃ id, s.nodes.lookup id = some n) ∧ n.status = statusActive ∧ c.passes n = true := by
  rw [Criteria.candidates, Store.active, List.mem_filter, List.mem_filter, and_assoc,
    decide_eq_true_eq, ((order.perm _).map _).mem_iff]
  exact and_congr_left' GoMap.mem_values

theorem candidates_perm (order order' : RangeOrder) :
    (c.candidates order s).Perm (c.candidates order' s) :=
  ((((order.perm _).trans (order'.perm _).symm).map _).filter _).filter _

/-- A choice fails exactly if no active node passes the criteria. -/
theorem select_eq_error_iff {e : SelectError} :
    s.select order sorter c = .error e ↔ c.candidates order s = [] := by
  rw [Store.select]
  cases c.candidates order s with
  | nil => simp
  | cons first rest => simp

/-- The chosen node is the first of the sorted candidates. -/
theorem select_eq_ok_iff {n : Node F} : s.select order sorter c = .ok n ↔
    ∃ first rest, c.candidates order s = first :: rest ∧
      ∃ a, (sorter.sort Scored.less (c.scored first rest)).head? = some a ∧ a.n = n := by
  rw [Store.select]
  cases c.candidates order s with
  | nil => simp
  | cons first rest =>
    have some := sorter.sort_ne_nil Scored.less (List.cons_ne_nil _ _ : c.scored first rest ≠ [])
    constructor
    · intro answer
      exact ⟨first, rest, rfl, _, List.head?_eq_some_head some, Except.ok.inj answer⟩
    · rintro ⟨_, _, same, a, head, rfl⟩
      cases same
      exact congrArg (fun a => Except.ok a.n) ((List.head_eq_iff_head?_eq_some some).mpr head)

end scoring

section exact

theorem lower_rat (lo v : ℚ) : lower lo v = min lo v := by
  rw [lower, min_def]
  by_cases below : v < lo
  · simp [GoFloat.lt, below]
  · simp [GoFloat.lt, below, not_lt.mp below]

theorem raise_rat (hi v : ℚ) : raise hi v = max hi v := by
  rw [raise, max_def]
  by_cases above : hi < v
  · simp [GoFloat.lt, above, above.le]
  · by_cases equal : hi = v
    · simp [GoFloat.lt, equal]
    · simp [GoFloat.lt, above, lt_of_le_of_ne (not_lt.mp above) (Ne.symm equal)]

theorem clip01_rat (v : ℚ) : clip01 v = max 0 (min 1 v) := by
  change (if decide (v < 0) = true then (0 : ℚ) else if decide (1 < v) = true then 1 else v) = _
  by_cases below : v < 0
  · simp [below, below.le]
  · by_cases above : 1 < v
    · simp [below, above, above.le]
    · simp [below, above, not_lt.mp below, not_lt.mp above]

theorem inUnit_rat (v : ℚ) : inUnit v = if 0 ≤ v ∧ v ≤ 1 then v else 1 / 2 := by
  change (if (decide (0 ≤ v) && decide (v ≤ 1)) = true then v else (50 : ℤ) / 100) = _
  simp only [Bool.and_eq_true, decide_eq_true_eq]
  norm_num

theorem clip01_inUnit (v : ℚ) : clip01 (inUnit v) = inUnit v := by
  have unit : 0 ≤ inUnit v ∧ inUnit v ≤ 1 := by
    rw [inUnit_rat]
    split
    · assumption
    · norm_num
  rw [clip01_rat, min_eq_right unit.2, max_eq_right unit.1]

/-- Min-max normalisation over some values; a single value is at 0. -/
def minMax (values : List ℚ) (v : ℚ) : ℚ :=
  (v - values.min?.getD 0) / (values.max?.getD 0 - values.min?.getD 0)

theorem min?_le_max? (values : List ℚ) : values.min?.getD 0 ≤ values.max?.getD 0 := by
  cases least : values.min? with
  | none => simp [List.min?_eq_none_iff.mp least]
  | some lo =>
    obtain ⟨member, _⟩ := List.min?_eq_some_iff.mp least
    cases greatest : values.max? with
    | none => simp [List.max?_eq_none_iff.mp greatest] at member
    | some hi => exact (List.max?_eq_some_iff.mp greatest).2 lo member

theorem minMax_perm {values values' : List ℚ} (perm : values.Perm values') :
    minMax values = minMax values' := by
  have lo : values.min? = values'.min? := by
    apply Option.ext
    simp [List.min?_eq_some_iff, perm.mem_iff]
  have hi : values.max? = values'.max? := by
    apply Option.ext
    simp [List.max?_eq_some_iff, perm.mem_iff]
  funext v
  rw [minMax, minMax, lo, hi]

theorem norm_rat {v lo hi : ℚ} (ordered : lo ≤ hi) : norm v lo hi = (v - lo) / (hi - lo) := by
  change (if decide (hi ≤ lo) = true then (0 : ℚ) else (v - lo) / (hi - lo)) = _
  by_cases equal : hi ≤ lo
  · simp [le_antisymm ordered equal]
  · simp [equal]

theorem score_rat (c : Criteria ℚ) (r : Ranges ℚ) (n : Node ℚ) :
    c.score r n = 3 / 10 * norm n.pricePerHourDERO r.minP r.maxP + 3 / 10 * (c.signals r n).1
      + 3 / 20 * clip01 (c.signals r n).2.1 + 3 / 20 * (1 - clip01 (c.signals r n).2.2)
      - 1 / 10 * (c.history.map fun score => clip01 (score n.nodeID)).getD (1 / 2) := by
  have thirty : (hundredths 30 : ℚ) = 3 / 10 := by norm_num [hundredths, GoFloat.div, GoFloat.ofInt]
  have fifteen : (hundredths 15 : ℚ) = 3 / 20 := by
    norm_num [hundredths, GoFloat.div, GoFloat.ofInt]
  have ten : (hundredths 10 : ℚ) = 1 / 10 := by norm_num [hundredths, GoFloat.div, GoFloat.ofInt]
  have half : (hundredths 50 : ℚ) = 1 / 2 := by norm_num [hundredths, GoFloat.div, GoFloat.ofInt]
  rw [← thirty, ← fifteen, ← ten, ← half, Criteria.score]
  cases c.history with
  | none => rfl
  | some score => rfl

theorem norm_eq_minMax (values : List ℚ) (v : ℚ) :
    norm v (values.min?.getD 0) (values.max?.getD 0) = minMax values v :=
  norm_rat (min?_le_max? values)

/-- The lexicographic key by which the candidates are compared. -/
def Node.key (n : Node ℚ) (score : ℚ) : ℚ ×ₗ ℚ ×ₗ String :=
  toLex (score, toLex (n.pricePerHourDERO, n.nodeID))

theorem key_mono (n : Node ℚ) {x y : ℚ} (le : x ≤ y) : n.key x ≤ n.key y := by
  rw [Node.key, Node.key, Prod.Lex.toLex_le_toLex]
  rcases le.lt_or_eq with lt | eq
  · exact .inl lt
  · exact .inr ⟨eq, le_refl _⟩

/-- Taking the same off two scores does not change their order. -/
theorem key_sub_le_key_sub (a b : Node ℚ) (x y d : ℚ) :
    a.key (x - d) ≤ b.key (y - d) ↔ a.key x ≤ b.key y := by
  simp only [Node.key, Prod.Lex.toLex_le_toLex, sub_lt_sub_iff_right, sub_left_inj]

theorem nodeID_eq_of_key_eq {a b : Node ℚ} {x y : ℚ} (keys : a.key x = b.key y) :
    a.nodeID = b.nodeID :=
  congrArg (fun key => (ofLex (ofLex key).2).2) keys

theorem same_rat (x y : ℚ) : same x y = decide (x = y) := by
  change (decide (x ≤ y) && decide (y ≤ x)) = _
  simp [le_antisymm_iff]

theorem less_iff (a b : Scored ℚ) : a.less b = true ↔ a.n.key a.score < b.n.key b.score := by
  rw [Scored.less, same_rat, same_rat, Node.key, Node.key, Prod.Lex.toLex_lt_toLex,
    Prod.Lex.toLex_lt_toLex]
  by_cases scores : a.score = b.score
  · by_cases prices : a.n.pricePerHourDERO = b.n.pricePerHourDERO
    · simp [scores, prices]
    · simp only [scores, prices, decide_true, decide_false, Bool.not_true, Bool.not_false,
        Bool.false_eq_true, if_false, if_true, lt_irrefl, true_and, false_or, false_and, or_false]
      exact decide_eq_true_iff
  · simp only [scores, decide_false, Bool.not_false, if_true, false_and, or_false]
    exact decide_eq_true_iff

theorem less_eq_false_iff (a b : Scored ℚ) :
    a.less b = false ↔ b.n.key b.score ≤ a.n.key a.score := by
  rw [← not_lt, ← less_iff, Bool.not_eq_true]

/-- Ties are broken by price and then by ID. -/
theorem strictWeak_less : StrictWeak (Scored.less : Scored ℚ → Scored ℚ → Bool) where
  asymm a b ahead := (less_eq_false_iff b a).mpr ((less_iff a b).mp ahead).le
  trans a b c first second := (less_eq_false_iff c a).mpr
    (((less_eq_false_iff b a).mp first).trans ((less_eq_false_iff c b).mp second))

section ranges
variable (c : Criteria ℚ)

/-- After the first candidate the loop takes minima and maxima. -/
theorem foldl_visit (r : Ranges ℚ) (started : r.first = false) (cands : List (Node ℚ)) :
    cands.foldl (Ranges.visit c) r =
      { minP := (cands.map (·.pricePerHourDERO)).foldl min r.minP
        maxP := (cands.map (·.pricePerHourDERO)).foldl max r.maxP
        minL := (cands.map c.latOf).foldl min r.minL
        maxL := (cands.map c.latOf).foldl max r.maxL
        first := false } := by
  induction cands generalizing r with
  | nil => simp [← started]
  | cons n rest ih =>
    rw [List.foldl_cons, ih _ rfl]
    simp [Ranges.visit, started, lower_rat, raise_rat]

theorem ranges_eq (first : Node ℚ) (rest : List (Node ℚ)) :
    c.ranges first rest =
      { minP := ((first :: rest).map (·.pricePerHourDERO)).min?.getD 0
        maxP := ((first :: rest).map (·.pricePerHourDERO)).max?.getD 0
        minL := ((first :: rest).map c.latOf).min?.getD 0
        maxL := ((first :: rest).map c.latOf).max?.getD 0
        first := false } := by
  rw [Criteria.ranges, List.foldl_cons, foldl_visit c _ rfl]
  simp only [Ranges.visit, Ranges.init, lower_rat, raise_rat, min_self, max_self, if_true,
    List.map_cons, List.min?_cons', List.max?_cons', Option.getD_some]

end ranges

end exact

end VeilNet.Source.Registry
