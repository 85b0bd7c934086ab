import VeilNet.Lib.Run
import Mathlib.Algebra.Order.Field.Basic
import Mathlib.Tactic.Linarith
import Mathlib.Tactic.Ring

/-!
Token buckets over an ordered field, with clock readings that may go back. A bucket gains tokens
when the clock passes its latest reading, up to its capacity. What a block of requests spends was
there or was gained.
-/
namespace VeilNet.Lib.TokenBucket

variable {K : Type*} [Field K] [LinearOrder K]

structure Bucket (K : Type*) where
  tokens : K
  last : ℤ

/-- A reading after the latest one fills the bucket. -/
def refill (capacity : K) (gain : ℤ → ℤ → K) (now : ℤ) (b : Bucket K) : Bucket K :=
  if b.last < now then ⟨min (b.tokens + gain b.last now) capacity, now⟩ else b

/-- A request is admitted for one token. -/
def take (b : Bucket K) : Bool × Bucket K :=
  if b.tokens < 1 then (false, b) else (true, { b with tokens := b.tokens - 1 })

/-- One request. -/
def draw (capacity : K) (gain : ℤ → ℤ → K) (now : ℤ) (b : Bucket K) : Bool × Bucket K :=
  take (refill capacity gain now b)

/-- The answers to requests at the given readings. -/
def answers (capacity : K) (gain : ℤ → ℤ → K) : Bucket K → List ℤ → List Bool
  | _, [] => []
  | b, now :: rest =>
    (draw capacity gain now b).1 :: answers capacity gain (draw capacity gain now b).2 rest

/-- The bucket after them. -/
def after (capacity : K) (gain : ℤ → ℤ → K) (b : Bucket K) (readings : List ℤ) : Bucket K :=
  Run.run (fun b now => (draw capacity gain now b).2) b readings

/-- Between nothing and full. -/
def Within (capacity : K) (b : Bucket K) : Prop := 0 ≤ b.tokens ∧ b.tokens ≤ capacity

/-- Gains are not negative, and not more than the rate times the elapsed time. -/
structure Paced (rate : K) (gain : ℤ → ℤ → K) : Prop where
  nonneg : ∀ last now, last < now → 0 ≤ gain last now
  le : ∀ last now, last < now → gain last now ≤ rate * (now - last : ℤ)

variable {capacity rate : K} {gain : ℤ → ℤ → K} {b : Bucket K} {now : ℤ}

theorem last_refill : (refill capacity gain now b).last = max b.last now := by
  unfold refill
  split
  · next later => exact (max_eq_right later.le).symm
  · next back => exact (max_eq_left (not_lt.mp back)).symm

theorem last_take : (take b).2.last = b.last := by
  unfold take
  split <;> rfl

theorem last_draw : (draw capacity gain now b).2.last = max b.last now := by
  rw [draw, last_take, last_refill]

/-- What is admitted is paid for. -/
theorem tokens_take : ((take b).1.toNat : K) + (take b).2.tokens = b.tokens := by
  unfold take
  split <;> simp

/-- So a request moves one token from the bucket to the count of admitted requests. -/
theorem count_answers_cons (capacity : K) (gain : ℤ → ℤ → K) (now : ℤ) (b : Bucket K)
    (rest : List ℤ) :
    ((answers capacity gain b (now :: rest)).count true : K) +
        (draw capacity gain now b).2.tokens =
      (refill capacity gain now b).tokens +
        (answers capacity gain (draw capacity gain now b).2 rest).count true := by
  rw [← tokens_take (b := refill capacity gain now b), answers]
  change _ = ((draw capacity gain now b).1.toNat : K) + (draw capacity gain now b).2.tokens + _
  cases (draw capacity gain now b).1
  · simp [add_comm]
  · simp only [List.count_cons_self, Bool.toNat_true]
    push_cast
    ring

theorem answers_append (front back : List ℤ) :
    answers capacity gain b (front ++ back) =
      answers capacity gain b front ++ answers capacity gain
        (after capacity gain b front) back := by
  induction front generalizing b with
  | nil => rfl
  | cons now rest ih =>
    rw [List.cons_append, answers, answers, ih]
    rfl

theorem length_answers (readings : List ℤ) :
    (answers capacity gain b readings).length = readings.length := by
  induction readings generalizing b with
  | nil => rfl
  | cons now rest ih => rw [answers, List.length_cons, ih, List.length_cons]

/-- The answers to a block of requests are those of the bucket the block starts with. -/
theorem answers_block {front block back : List ℤ} {before within later : List Bool}
    (split : answers capacity gain b (front ++ block ++ back) = before ++ within ++ later)
    (first : before.length = front.length) (second : within.length = block.length) :
    within = answers capacity gain (after capacity gain b front) block := by
  rw [List.append_assoc, List.append_assoc, answers_append, answers_append] at split
  have tail := (List.append_inj split ((length_answers front).trans first.symm)).2
  exact (List.append_inj tail ((length_answers block).trans second.symm)).1.symm

theorem last_after (readings : List ℤ) :
    (after capacity gain b readings).last = readings.foldl max b.last := by
  induction readings generalizing b with
  | nil => rfl
  | cons now rest ih =>
    rw [List.foldl_cons, ← last_draw (K := K)]
    exact ih

variable [IsStrictOrderedRing K]

theorem Within.refill (h : Within capacity b) (paced : Paced rate gain) (now : ℤ) :
    Within capacity (refill capacity gain now b) := by
  unfold TokenBucket.refill
  split
  · next later =>
    have gained := paced.nonneg b.last now later
    exact ⟨le_min (add_nonneg h.1 gained) (h.1.trans h.2), min_le_right _ _⟩
  · exact h

theorem Within.take (h : Within capacity b) : Within capacity (take b).2 := by
  unfold TokenBucket.take
  split
  · exact h
  · next enough =>
    have one : 1 ≤ b.tokens := not_lt.mp enough
    exact ⟨sub_nonneg.mpr one, (sub_le_self _ zero_le_one).trans h.2⟩

theorem Within.draw (h : Within capacity b) (paced : Paced rate gain) (now : ℤ) :
    Within capacity (draw capacity gain now b).2 :=
  (h.refill paced now).take

/-- A refill brings at most the rate times the time that the latest reading moved. -/
theorem tokens_refill_le (capacity : K) (now : ℤ) (b : Bucket K) (paced : Paced rate gain) :
    (refill capacity gain now b).tokens ≤ b.tokens + rate * (max b.last now - b.last : ℤ) := by
  unfold refill
  split
  · next later =>
    have gained := paced.le b.last now later
    rw [max_eq_right later.le]
    exact (min_le_left _ _).trans (by linarith)
  · next back =>
    rw [max_eq_left (not_lt.mp back)]
    simp

theorem Within.after (h : Within capacity b) (paced : Paced rate gain) (readings : List ℤ) :
    Within capacity (after capacity gain b readings) := by
  induction readings generalizing b with
  | nil => exact h
  | cons now rest ih => exact ih (h.draw paced now)

/-- The admitted requests are paid from the tokens at the start and from the gains. -/
theorem admitted_le (paced : Paced rate gain) (h : Within capacity b) (readings : List ℤ) :
    ((answers capacity gain b readings).count true : K) ≤
      b.tokens + rate * (readings.foldl max b.last - b.last : ℤ) := by
  -- the potential of a bucket is its tokens; each request pays its answer out of it
  induction readings generalizing b with
  | nil => simpa [answers] using h.1
  | cons now rest ih =>
    have later := ih (h.draw paced now)
    have paid := count_answers_cons capacity gain now b rest
    have gained := tokens_refill_le capacity now b paced
    rw [last_draw] at later
    rw [List.foldl_cons]
    push_cast at later gained ⊢
    linarith

/-- A block of requests is admitted at most the capacity, and the rate times the time
that the latest reading moved after the block's first request. -/
theorem admitted_block_le (paced : Paced rate gain) (h : Within capacity b) (first : ℤ)
    (rest : List ℤ) :
    ((answers capacity gain b (first :: rest)).count true : K) ≤
      capacity + rate * (rest.foldl max (max b.last first) - max b.last first : ℤ) := by
  have full := (h.refill paced first).2
  have paid := count_answers_cons capacity gain first b rest
  have later := admitted_le paced (h.draw paced first) rest
  rw [last_draw] at later
  linarith

end VeilNet.Lib.TokenBucket
