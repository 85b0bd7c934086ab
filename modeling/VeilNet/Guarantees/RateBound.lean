import VeilNet.Source.Nodes.RateLimit

/-!
# The rate of each caller is bounded

The rate limiter over whole runs. A key of the limiter, a class with a normalised address, sees
only its own calls, and its answers are those of one token bucket. From there the bound on a block
of its calls is the bound of the bucket.
-/
namespace VeilNet.Guarantees.RateBound
open Lib Source.Nodes

variable (net : NetNames)

/-- The readings and answers of the calls under one key, in order. -/
def log (key : RateClass × String) (l : RateLimiter) (calls : List RateCall) : List (Time × Bool) :=
  (Run.trace (RateLimiter.step net) l calls).filterMap fun visit =>
    if visit.2.key net = key then some (visit.2.now, (visit.1.serve net visit.2).1) else none

def callsOf (key : RateClass × String) (calls : List RateCall) : List RateCall :=
  calls.filter fun call => call.key net = key

def admitted (block : List (Time × Bool)) : ℕ := (block.map (·.2)).count true

/-- The running maximum of the clock at the last of these calls. -/
def latest (block : List (Time × Bool)) : Time :=
  (block.map (·.1)).foldl max ((block.map (·.1)).headD 0)

/-- Every bucket holds between no tokens and its class's burst. -/
def InBounds (cfg : RateLimitConfig) (l : RateLimiter) : Prop :=
  ∀ key b, l.bucket? key = some b → 0 ≤ b.tokens ∧ b.tokens ≤ (cfg.burst key.1 : ℚ)

variable {net} {cfg : RateLimitConfig} {l : RateLimiter} {key : RateClass × String}

/-- The bucket that a call under the key starts from: a full one at the first call. -/
def opening (key : RateClass × String) (l : RateLimiter) (now : Time) : Bucket :=
  (l.bucket? key).getD ⟨l.cfg.burst key.1, now⟩

theorem within_opening (key : RateClass × String) (bounds : InBounds cfg.normalize l)
    (same : l.cfg = cfg.normalize) (now : Time) :
    TokenBucket.Within (cfg.normalize.burst key.1 : ℚ) (opening key l now) := by
  unfold opening
  cases found : l.bucket? key with
  | some b => exact bounds key b found
  | none =>
    have positive := cfg.burst_pos key.1
    rw [Option.getD_none, same]
    exact ⟨Int.cast_nonneg positive.le, le_rfl⟩

theorem inBounds_step (call : RateCall) (bounds : InBounds cfg.normalize l)
    (same : l.cfg = cfg.normalize) : InBounds cfg.normalize (l.step net call) := by
  intro key b found
  rw [RateLimiter.bucket?_step] at found
  split at found
  · next own =>
    subst own
    cases found
    have within := within_opening (call.key net) bounds same call.now
    rw [RateLimiter.request, same]
    rw [opening, same] at within
    exact within.draw (refillGain_paced (cfg.window_pos call.kind)) call.now
  · exact bounds key b found

theorem inBounds_run (cfg : RateLimitConfig) (calls : List RateCall) :
    Run.Throughout (RateLimiter.step net) (InBounds cfg.normalize) (newRateLimiter cfg) calls := by
  have all : Run.Throughout (RateLimiter.step net)
      (fun l => InBounds cfg.normalize l ∧ l.cfg = cfg.normalize) (newRateLimiter cfg) calls := by
    refine Run.throughout_of_step ⟨fun key b found => ?_, rfl⟩
      fun l call kept => ⟨inBounds_step call kept.1 kept.2, ?_⟩
    · obtain ⟨kind, name⟩ := key
      cases kind <;> cases found
    · rw [RateLimiter.cfg_step, kept.2]
  exact all.mono fun _ kept => kept.1

theorem log_cons (key : RateClass × String) (l : RateLimiter) (call : RateCall)
    (rest : List RateCall) :
    log net key l (call :: rest) =
      if call.key net = key then (call.now, (l.request net call).1) ::
        log net key (l.step net call) rest
      else log net key (l.step net call) rest := by
  by_cases own : call.key net = key
  · simp [log, Run.trace, if_pos own, RateLimiter.serve_answer]
  · simp [log, Run.trace, if_neg own]

theorem callsOf_cons (key : RateClass × String) (call : RateCall) (rest : List RateCall) :
    callsOf net key (call :: rest) =
      if call.key net = key then call :: callsOf net key rest else callsOf net key rest := by
  simp only [callsOf, List.filter_cons, decide_eq_true_eq]

theorem opening_step (key : RateClass × String) (l : RateLimiter) (call : RateCall) (now : Time) :
    opening key (l.step net call) now =
      if call.key net = key then (l.request net call).2 else opening key l now := by
  unfold opening
  rw [RateLimiter.bucket?_step, RateLimiter.cfg_step]
  split <;> rfl

theorem request_eq_draw (l : RateLimiter) (call : RateCall) :
    l.request net call =
      TokenBucket.draw (l.cfg.burst (call.key net).1 : ℚ)
        (refillGain (l.cfg.window (call.key net).1))
        call.now (opening (call.key net) l call.now) := rfl

/-- The answers under a key are those of its bucket to the readings of its own calls. -/
theorem log_eq_answers (key : RateClass × String) (l : RateLimiter) (calls : List RateCall) :
    log net key l calls =
      let readings := (callsOf net key calls).map (·.now)
      readings.zip (TokenBucket.answers (l.cfg.burst key.1 : ℚ) (refillGain (l.cfg.window key.1))
        (opening key l (readings.headD 0)) readings) := by
  -- a call under another key moves neither side; one under the key moves both by one request
  induction calls generalizing l with
  | nil => rfl
  | cons call rest ih =>
    rw [log_cons, callsOf_cons, ih, RateLimiter.cfg_step]
    simp only [opening_step]
    split
    · next own =>
      subst own
      simp [TokenBucket.answers, request_eq_draw]
    · rfl

theorem callsOf_callsOf (key : RateClass × String) (calls : List RateCall) :
    callsOf net key (callsOf net key calls) = callsOf net key calls := by
  simp [callsOf]

/-- The running maximum at a later call starts from the same first reading. -/
theorem latest_eq (front rest : List (Time × Bool)) (first : Time × Bool) (back : List Time) :
    latest (front ++ first :: rest) =
      (rest.map (·.1)).foldl max (max ((front.map (·.1)).foldl max
        ((front.map (·.1) ++ (first.1 :: back)).headD 0)) first.1) := by
  have head : ∀ later : List Time, (front.map (·.1) ++ (first.1 :: later)).headD 0 =
      (front.map (·.1) ++ (first.1 :: back)).headD 0 := by
    intro later
    cases front <;> rfl
  simp [latest]

/-- From a fresh limiter the bucket of a key is full at the first of its readings. -/
theorem log_fresh (cfg : RateLimitConfig) (key : RateClass × String) (calls : List RateCall)
    {entries : List (Time × Bool)} (logged : log net key (newRateLimiter cfg) calls = entries) :
    ∃ (readings : List Time) (start : Bucket),
      TokenBucket.Within (cfg.normalize.burst key.1 : ℚ) start ∧ start.last = readings.headD 0 ∧
      entries = readings.zip (TokenBucket.answers (cfg.normalize.burst key.1 : ℚ)
        (refillGain (cfg.normalize.window key.1)) start readings) := by
  subst logged
  have full : (0 : ℚ) ≤ cfg.normalize.burst key.1 := Int.cast_nonneg (cfg.burst_pos key.1).le
  refine ⟨(callsOf net key calls).map (·.now), ⟨cfg.normalize.burst key.1, _⟩, ⟨full, le_rfl⟩, rfl,
    ?_⟩
  rw [log_eq_answers]
  obtain ⟨kind, name⟩ := key
  cases kind <;> rfl

theorem admitted_block_le {calls : List RateCall} {front rest back : List (Time × Bool)}
    {first : Time × Bool}
    (block : log net key (newRateLimiter cfg) calls = front ++ (first :: rest) ++ back) :
    (admitted (first :: rest) : ℚ) ≤ (cfg.normalize.burst key.1 : ℚ) +
      ((latest (front ++ first :: rest) - latest (front ++ [first]) : ℤ) : ℚ) /
        (cfg.normalize.window key.1 : ℚ) := by
  obtain ⟨readings, start, full, opened, logged⟩ := log_fresh cfg key calls block
  have paced := refillGain_paced (cfg.window_pos key.1)
  -- the readings and the answers split where the log does
  have times : front.map (·.1) ++ (first :: rest).map (·.1) ++ back.map (·.1) = readings := by
    have fsts := congrArg (List.map (·.1)) logged
    rw [List.map_fst_zip (TokenBucket.length_answers readings).ge] at fsts
    simpa only [List.map_append] using fsts
  have asked := congrArg (List.map (·.2)) logged
  rw [List.map_snd_zip (TokenBucket.length_answers readings).le, List.map_append, List.map_append,
    ← times] at asked
  have answered := TokenBucket.answers_block asked.symm (by simp) (by simp)
  have bound := TokenBucket.admitted_block_le paced
    (full.after paced (front.map (·.1))) first.1 (rest.map (·.1))
  have final := latest_eq front rest first (rest.map (·.1) ++ back.map (·.1))
  have initial := latest_eq front [] first (rest.map (·.1) ++ back.map (·.1))
  have head : front.map (·.1) ++ (first.1 :: (rest.map (·.1) ++ back.map (·.1))) = readings := by
    simpa using times
  rw [head] at final initial
  rw [TokenBucket.last_after, opened] at bound
  rw [admitted, answered, final, initial, ← one_div_mul_eq_div]
  exact bound

/-- Every bucket stays between empty and full; a block of calls under one key is admitted at most
the burst and one call per window that the running maximum of the clock moved since its first
call; and the answers under a key are those of a run of its own calls alone. -/
theorem rate_limited (net : NetNames) (cfg : RateLimitConfig) (calls : List RateCall) :
    Run.Throughout (RateLimiter.step net) (InBounds cfg.normalize) (newRateLimiter cfg) calls ∧
    (∀ key front first rest back,
      log net key (newRateLimiter cfg) calls = front ++ (first :: rest) ++ back →
      (admitted (first :: rest) : ℚ) ≤ (cfg.normalize.burst key.1 : ℚ) +
        ((latest (front ++ first :: rest) - latest (front ++ [first]) : ℤ) : ℚ) /
          (cfg.normalize.window key.1 : ℚ)) ∧
    ∀ key, log net key (newRateLimiter cfg) calls =
      log net key (newRateLimiter cfg) (callsOf net key calls) := by
  refine ⟨inBounds_run cfg calls, fun key front first rest back block => admitted_block_le block,
    fun key => ?_⟩
  rw [log_eq_answers, log_eq_answers, callsOf_callsOf]

end VeilNet.Guarantees.RateBound
