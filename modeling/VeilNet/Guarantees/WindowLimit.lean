import VeilNet.Source.Security.RateLimiter
import VeilNet.Lib.Run

/-!
# The sliding-window limiter

What is on record for a key, and is recent, is what was admitted for it and is recent. From there
the answers, the bound and the silence of denied calls follow from the library.
-/
namespace VeilNet.Guarantees.WindowLimit
open Lib Lib.GoSlice Lib.SlidingWindow Source.Security
open RateLimiter

section runs
variable (grow : ℕ → ℕ)

def step (l : RateLimiter) (hit : Hit) : RateLimiter := (l.allow grow hit).2

def answers (l : RateLimiter) (hits : List Hit) : List Bool :=
  (Run.trace (step grow) l hits).map fun visit => (visit.1.allow grow visit.2).1

def admitted (l : RateLimiter) (hits : List Hit) : List Hit :=
  ((Run.trace (step grow) l hits).filter fun visit => (visit.1.allow grow visit.2).1).map (·.2)

end runs

def timesOf (key : String) (hits : List Hit) : List Time := (hits.filter (·.key = key)).map (·.now)

/-- How many of the calls for a key have their times in a span. -/
def countIn (key : String) (span : ℤ → Bool) (hits : List Hit) : ℤ :=
  (hits.filter fun hit => hit.key = key && span hit.now).length

theorem countIn_eq (key : String) (span : ℤ → Bool) (hits : List Hit) :
    countIn key span hits = ((timesOf key hits).filter span).length := by
  unfold countIn timesOf
  rw [List.filter_map, List.length_map, List.filter_filter]
  simp only [Function.comp_apply, Bool.and_comm]

section step
variable {grow : ℕ → ℕ} {l : RateLimiter} {hit : Hit}

variable (separate : l.Separate)
include separate

theorem max_step : (step grow l hit).max = l.max := by
  rw [step, allow_eq separate]
  split <;> rfl

theorem window_step : (step grow l hit).window = l.window := by
  rw [step, allow_eq separate]
  split <;> rfl

theorem separate_step : (step grow l hit).Separate := by
  rw [step, allow_eq separate]
  split
  · exact separate_pushed (separate_pruned separate)
  · exact separate_pruned separate

variable (grow) in
/-- From the time of a call on, pruning is not noticed: the call has added its time, or
nothing. -/
theorem recent_step {t : Time} (later : hit.now ≤ t) (key : String) :
    recent l.window ((step grow l hit).times key) t =
      recent l.window (l.times key ++
        if key = hit.key ∧ l.admits hit = true then [hit.now] else []) t := by
  have kept : recent l.window ((l.pruned grow hit).times key) t =
      recent l.window (l.times key) t := by
    rw [times_pruned grow hit separate]
    split
    · exact recent_recent _ later
    · rfl
  rw [step, allow_eq separate, recent_append, ← kept, ← recent_append]
  cases answer : l.admits hit with
  | false => simp
  | true =>
    simp only [if_true, and_true, times_pushed (separate_pruned separate)]
    split
    · rfl
    · rw [List.append_nil]

end step

section record
variable {grow : ℕ → ℕ} {l : RateLimiter}

/-- The limiter, which was `l₀` at first, after a run in which `log` was admitted, none of it
after `now`. -/
structure Tracks (l₀ : RateLimiter) (now : Time) (log : List Hit) (l : RateLimiter) : Prop where
  separate : l.Separate
  max : l.max = l₀.max
  window : l.window = l₀.window
  known : ∀ key t, now ≤ t →
    recent l₀.window (l.times key) t = recent l₀.window (timesOf key log) t
  past : ∀ hit ∈ log, hit.now ≤ now
  paced : ∀ key, Paced l₀.window l₀.max (timesOf key log)

variable {l₀ : RateLimiter} {now : Time} {log : List Hit}

theorem timesOf_append (key : String) (log log' : List Hit) :
    timesOf key (log ++ log') = timesOf key log ++ timesOf key log' := by
  simp [timesOf]

theorem Tracks.admits_iff (tracks : Tracks l₀ now log l) {hit : Hit} (later : now ≤ hit.now) :
    l.admits hit = true ↔
      countIn hit.key (fun t => hit.now - l₀.window < t && t ≤ hit.now) log < l₀.max := by
  have past : ∀ t ∈ timesOf hit.key log, t ≤ hit.now := by
    intro t member
    obtain ⟨earlier, kept, rfl⟩ := List.mem_map.mp member
    exact (tracks.past earlier (List.mem_filter.mp kept).1).trans later
  have same : (timesOf hit.key log).filter (fun t => hit.now - l₀.window < t && t ≤ hit.now) =
      recent l₀.window (timesOf hit.key log) hit.now := by
    apply List.filter_congr
    intro t member
    simp [past t member]
  rw [countIn_eq, same, ← tracks.known hit.key hit.now later, RateLimiter.admits, tracks.max,
    tracks.window, decide_eq_true_eq]

variable (grow)

theorem Tracks.denied (tracks : Tracks l₀ now log l) {hit : Hit} (later : now ≤ hit.now)
    (denied : l.admits hit = false) : Tracks l₀ hit.now log (step grow l hit) := by
  have separate := tracks.separate
  refine ⟨separate_step separate, (max_step separate).trans tracks.max,
    (window_step separate).trans tracks.window, ?_, ?_, tracks.paced⟩
  · intro key t after
    have here := recent_step grow separate after key
    rw [tracks.window, denied] at here
    rw [here, ← tracks.known key t (later.trans after)]
    simp
  · intro earlier member
    exact (tracks.past earlier member).trans later

theorem Tracks.admitted (tracks : Tracks l₀ now log l) {hit : Hit} (later : now ≤ hit.now)
    (admitted : l.admits hit = true) : Tracks l₀ hit.now (log ++ [hit]) (step grow l hit) := by
  have separate := tracks.separate
  have own : ∀ key, timesOf key [hit] = if key = hit.key then [hit.now] else [] := by
    intro key
    by_cases same : hit.key = key
    · simp [timesOf, same]
    · simp [timesOf, same, Ne.symm same]
  refine ⟨separate_step separate, (max_step separate).trans tracks.max,
    (window_step separate).trans tracks.window, ?_, ?_, ?_⟩
  · intro key t after
    have here := recent_step grow separate after key
    simp only [tracks.window, admitted, and_true] at here
    rw [here, timesOf_append, recent_append, recent_append, tracks.known key t (later.trans after),
      own]
  · intro earlier member
    obtain before | same := List.mem_append.mp member
    · exact (tracks.past earlier before).trans later
    · rw [List.mem_singleton.mp same]
  · intro key
    rw [timesOf_append, own]
    split
    · next same =>
      have few : ((recent l.window (l.times hit.key) hit.now).length : ℤ) < l.max :=
        of_decide_eq_true admitted
      rw [tracks.max, tracks.window, tracks.known hit.key hit.now later, ← same] at few
      exact paced_snoc_iff.mpr ⟨tracks.paced key, few⟩
    · rw [List.append_nil]
      exact tracks.paced key

/-- The answers of a limiter that has admitted `log` so far. -/
def answersAfter (l₀ : RateLimiter) : List Hit → List Hit → List Bool
  | _, [] => []
  | log, hit :: rest =>
    if countIn hit.key (fun t => hit.now - l₀.window < t && t ≤ hit.now) log < l₀.max then
      true :: answersAfter l₀ (log ++ [hit]) rest
    else false :: answersAfter l₀ log rest

variable {hits : List Hit}

theorem Tracks.answers (tracks : Tracks l₀ now log l)
    (ordered : hits.Pairwise fun a b => a.now ≤ b.now) (later : ∀ hit ∈ hits, now ≤ hit.now) :
    answers grow l hits = answersAfter l₀ log hits := by
  induction hits generalizing now log l with
  | nil => rfl
  | cons hit rest ih =>
    obtain ⟨first, ordered⟩ := List.pairwise_cons.mp ordered
    have here := later hit List.mem_cons_self
    have answered : WindowLimit.answers grow l (hit :: rest) =
        l.admits hit :: WindowLimit.answers grow (WindowLimit.step grow l hit) rest := by
      simp [WindowLimit.answers, Run.trace, allow_eq tracks.separate]
    rw [answered, answersAfter]
    split
    · next few =>
      have admitted := (tracks.admits_iff here).mpr few
      rw [admitted, ih (tracks.admitted grow here admitted) ordered first]
    · next many =>
      have denied := Bool.eq_false_of_not_eq_true (mt (tracks.admits_iff here).mp many)
      rw [denied, ih (tracks.denied grow here denied) ordered first]

theorem admitted_snoc (hits : List Hit) (hit : Hit) :
    admitted grow l (hits ++ [hit]) = admitted grow l hits ++
      if ((Run.run (step grow) l hits).allow grow hit).1 then [hit] else [] := by
  unfold admitted
  rw [Run.trace_snoc, List.filter_append, List.map_append]
  congr 1
  cases answer : ((Run.run (step grow) l hits).allow grow hit).1 <;> simp [answer]

/-- What holds after a run, at any time that is not before its last call. -/
theorem tracks_run (start : l₀.Separate) (empty : ∀ key, l₀.times key = [])
    (ordered : hits.Pairwise fun a b => a.now ≤ b.now) (now : Time)
    (past : ∀ hit ∈ hits, hit.now ≤ now) :
    Tracks l₀ now (admitted grow l₀ hits) (Run.run (step grow) l₀ hits) := by
  induction hits using List.reverseRecOn generalizing now with
  | nil =>
    refine ⟨start, rfl, rfl, fun key t _ => ?_, nofun, fun key => ?_⟩
    · rw [Run.run_nil, empty]
      rfl
    · intro front t back same
      simp [admitted, Run.trace, timesOf] at same
  | append_singleton hits hit ih =>
    obtain ⟨before, _, last⟩ := List.pairwise_append.mp ordered
    have tracks := ih before hit.now fun earlier member =>
        last earlier member hit (List.mem_singleton_self hit)
    have later : hit.now ≤ now := past hit (by simp)
    have moved : Tracks l₀ hit.now (admitted grow l₀ (hits ++ [hit]))
        (Run.run (step grow) l₀ (hits ++ [hit])) := by
      rw [admitted_snoc, Run.run_snoc, allow_eq tracks.separate]
      cases answer : (Run.run (step grow) l₀ hits).admits hit with
      | false => simpa [answer] using tracks.denied grow le_rfl answer
      | true => simpa [answer] using tracks.admitted grow le_rfl answer
    exact { moved with
      known := fun key t after => moved.known key t (later.trans after)
      past := fun earlier member => (moved.past earlier member).trans later }

theorem exists_bound (ordered : hits.Pairwise fun a b => a.now ≤ b.now) :
    ∃ now, ∀ hit ∈ hits, hit.now ≤ now := by
  obtain rfl | ⟨front, last, rfl⟩ := List.eq_nil_or_concat hits
  · exact ⟨0, nofun⟩
  · rw [List.concat_eq_append] at ordered ⊢
    refine ⟨last.now, ?_⟩
    intro hit member
    obtain ⟨_, _, bound⟩ := List.pairwise_append.mp ordered
    obtain before | same := List.mem_append.mp member
    · exact bound hit before last (List.mem_singleton_self last)
    · rw [List.mem_singleton.mp same]

/-- Not more than `max` admitted calls for a key fall into less than a window's length. -/
theorem Tracks.countIn_le (tracks : Tracks l₀ now log l) (nonneg : 0 ≤ l₀.max) {key : String}
    {span : ℤ → Bool} (short : ∀ u t, span u = true → span t = true → t - l₀.window < u) :
    countIn key span log ≤ l₀.max := by
  rw [countIn_eq]
  exact length_filter_le (tracks.paced key) nonneg span short

end record

/-- For every new limiter, every policy of growing arrays and all calls in the order of their
times. A call is admitted exactly when fewer than `max` of the calls admitted for its key are in
the window that ends with it; a denied call has no influence on later answers; and no window of
either half-open kind has more than `max` admitted calls for a key. -/
theorem window_limited (grow : ℕ → ℕ) (heap : Heap Time) (max : ℤ) (window : Duration)
    (l : RateLimiter) (made : newRateLimiter heap max window = .ok l) (hits : List Hit)
    (ordered : hits.Pairwise fun a b => a.now ≤ b.now) :
    (∀ front hit back, hits = front ++ hit :: back →
      (((Run.run (step grow) l front).allow grow hit).1 = true ↔
        countIn hit.key (fun t => hit.now - window < t && t ≤ hit.now) (admitted grow l front) <
          max) ∧
      (((Run.run (step grow) l front).allow grow hit).1 = false →
        answers grow (Run.run (step grow) l (front ++ [hit])) back =
          answers grow (Run.run (step grow) l front) back)) ∧
    ∀ key (start : ℤ),
      countIn key (fun t => start < t && t ≤ start + window) (admitted grow l hits) ≤ max ∧
      countIn key (fun t => start ≤ t && t < start + window) (admitted grow l hits) ≤ max := by
  obtain ⟨rfl, positive⟩ := RateLimiter.of_newRateLimiter made
  have separate := separate_empty max window heap
  constructor
  · intro front hit back same
    rw [same] at ordered
    obtain ⟨before, rest, last⟩ := List.pairwise_append.mp ordered
    obtain ⟨later, after⟩ := List.pairwise_cons.mp rest
    have tracks := tracks_run grow separate (fun _ => rfl) before hit.now
      fun earlier member => last earlier member hit List.mem_cons_self
    rw [allow_eq tracks.separate, Run.run_snoc]
    refine ⟨tracks.admits_iff le_rfl, ?_⟩
    intro denied
    exact ((tracks.denied grow le_rfl denied).answers grow after later).trans
      (tracks.answers grow after later).symm
  · intro key start
    obtain ⟨now, past⟩ := exists_bound ordered
    have tracks := tracks_run grow separate (fun _ => rfl) ordered now past
    constructor
    · apply tracks.countIn_le positive.le
      intro u t inSpan inSpan'
      simp only [Bool.and_eq_true, decide_eq_true_eq] at inSpan inSpan'
      change t - window < u
      omega
    · apply tracks.countIn_le positive.le
      intro u t inSpan inSpan'
      simp only [Bool.and_eq_true, decide_eq_true_eq] at inSpan inSpan'
      change t - window < u
      omega

section sample

def emptyHeap : Heap Time := ⟨⟨fun _ => 0⟩, 0⟩

/-- Two in ten, and arrays that grow by one cell. -/
def twoInTen : RateLimiter := ⟨∅, 2, 10, emptyHeap⟩

def someHits : List Hit := [⟨"a", 0⟩, ⟨"a", 5⟩, ⟨"b", 7⟩, ⟨"a", 9⟩, ⟨"a", 10⟩, ⟨"a", 14⟩, ⟨"a", 15⟩]

theorem someHits_limited :
    newRateLimiter emptyHeap 2 10 = .ok twoInTen ∧
      answers Nat.succ twoInTen someHits = [true, true, true, false, true, false, true] ∧
      ∀ key (start : ℤ), countIn key (fun t => start < t && t ≤ start + 10)
        (admitted Nat.succ twoInTen someHits) ≤ 2 := by
  refine ⟨rfl, by decide, ?_⟩
  intro key start
  exact ((window_limited Nat.succ emptyHeap 2 10 twoInTen rfl someHits (by decide)).2 key start).1

end sample

end VeilNet.Guarantees.WindowLimit
