import VeilNet.Lib.GoMap
import VeilNet.Lib.GoSlice
import VeilNet.Lib.GoTime
import VeilNet.Lib.SlidingWindow

/-!
The sliding-window limiter of `internal/security/acl.go`. `Allow` prunes a slice in the array that
it reads, so the arrays are part of the state. `grow` is the capacity that the runtime gives to an
array that was full. The mutex is left out: a call is one step.
-/
namespace VeilNet.Source.Security
open Lib Lib.GoSlice Lib.SlidingWindow

structure RateLimiter where
  hits : GoMap String Buffer
  max : ℤ
  window : Duration
  heap : Heap Time

def newRateLimiter (heap : Heap Time) (max : ℤ) (window : Duration) : Except String RateLimiter :=
  if max ≤ 0 ∨ window ≤ 0 then .error "security: invalid rate limit parameters"
  else .ok ⟨∅, max, window, heap⟩

/-- A call of `Allow`, with its reading of the clock. -/
structure Hit where
  key : String
  now : Time

namespace RateLimiter

def hitsOf (l : RateLimiter) (key : String) : Buffer := (l.hits.lookup key).getD .nil

def allow (grow : ℕ → ℕ) (l : RateLimiter) (hit : Hit) : Bool × RateLimiter :=
  let cut := hit.now - l.window
  let kept := filterInPlace grow (fun t => cut < t) l.heap (l.hitsOf hit.key)
  if l.max ≤ kept.2.slice.length then
    (false, { l with hits := l.hits.insert hit.key kept.2, heap := kept.1 })
  else
    let longer := append grow kept.1 kept.2 hit.now
    (true, { l with hits := l.hits.insert hit.key longer.2, heap := longer.1 })

def times (l : RateLimiter) (key : String) : List Time := l.heap.memory.read (l.hitsOf key).slice

/-- No two keys have their slices on one array. -/
structure Separate (l : RateLimiter) : Prop where
  fits : ∀ key, (l.hitsOf key).slice.length ≤ (l.hitsOf key).cap
  old : ∀ key, 0 < (l.hitsOf key).cap → (l.hitsOf key).slice.array < l.heap.fresh
  apart : ∀ key key', key ≠ key' → 0 < (l.hitsOf key).cap → 0 < (l.hitsOf key').cap →
    (l.hitsOf key).slice.array ≠ (l.hitsOf key').slice.array

variable {grow : ℕ → ℕ} {l : RateLimiter} {hit : Hit}

theorem of_newRateLimiter {heap : Heap Time} {max : ℤ} {window : Duration}
    (made : newRateLimiter heap max window = .ok l) : l = ⟨∅, max, window, heap⟩ ∧ 0 < max := by
  unfold newRateLimiter at made
  split at made
  · cases made
  · next valid =>
    cases made
    rw [not_or, not_le] at valid
    exact ⟨rfl, valid.1⟩

theorem separate_empty (max : ℤ) (window : Duration) (heap : Heap Time) :
    Separate ⟨∅, max, window, heap⟩ :=
  ⟨fun _ => le_rfl, nofun, nofun⟩

theorem hitsOf_insert (l : RateLimiter) (key key' : String) (b : Buffer) (heap : Heap Time) :
    hitsOf { l with hits := l.hits.insert key b, heap } key' = if key' = key then b
      else l.hitsOf key' := by
  unfold hitsOf
  split
  · next same => rw [same, AList.lookup_insert, Option.getD_some]
  · next other => rw [AList.lookup_insert_ne other]

variable (separate : l.Separate)
include separate

/-- A slice on the array of the old one, or on a new array, keeps the keys apart. -/
theorem Separate.store {key : String} {b : Buffer} {heap : Heap Time}
    (fits : b.slice.length ≤ b.cap) (grown : l.heap.fresh ≤ heap.fresh)
    (array : 0 < b.cap → b.slice.array = (l.hitsOf key).slice.array ∧ 0 < (l.hitsOf key).cap ∨
      b.slice.array = l.heap.fresh ∧ l.heap.fresh < heap.fresh) :
    Separate { l with hits := l.hits.insert key b, heap } := by
  have other : ∀ key', key' ≠ key → 0 < b.cap → 0 < (l.hitsOf key').cap →
      b.slice.array ≠ (l.hitsOf key').slice.array := by
    intro key' different room room'
    obtain ⟨same, oldRoom⟩ | ⟨new, _⟩ := array room
    · rw [same]
      exact separate.apart key key' (Ne.symm different) oldRoom room'
    · rw [new]
      exact (Nat.ne_of_lt (separate.old key' room')).symm
  refine ⟨fun key' => ?_, fun key' room => ?_, fun key₁ key₂ different room₁ room₂ => ?_⟩
  · rw [hitsOf_insert]
    split
    · exact fits
    · exact separate.fits key'
  · rw [hitsOf_insert] at room ⊢
    split at room
    · next same =>
      rw [if_pos same]
      obtain ⟨old, oldRoom⟩ | ⟨new, more⟩ := array room
      · rw [old]
        exact Nat.lt_of_lt_of_le (separate.old key oldRoom) grown
      · rw [new]
        exact more
    · next different =>
      rw [if_neg different]
      exact Nat.lt_of_lt_of_le (separate.old key' room) grown
  · rw [hitsOf_insert] at room₁ room₂
    rw [hitsOf_insert, hitsOf_insert]
    by_cases first : key₁ = key
    · have second : key₂ ≠ key := fun same => different (first.trans same.symm)
      rw [if_pos first] at room₁ ⊢
      rw [if_neg second] at room₂ ⊢
      exact other key₂ second room₁ room₂
    · rw [if_neg first] at room₁ ⊢
      by_cases second : key₂ = key
      · rw [if_pos second] at room₂ ⊢
        exact (other key₁ first room₂ room₁).symm
      · rw [if_neg second] at room₂ ⊢
        exact separate.apart key₁ key₂ different room₁ room₂

/-- Code that changes the memory on no array of another key leaves the times of that key. -/
theorem Separate.read_other {key key' : String} (other : key' ≠ key) {memory : Memory Time}
    (frame : ∀ s : Slice, s.array < l.heap.fresh →
      (0 < (l.hitsOf key).cap → s.array ≠ (l.hitsOf key).slice.array) →
        memory.read s = l.heap.memory.read s) :
    memory.read (l.hitsOf key').slice = l.times key' := by
  by_cases room : 0 < (l.hitsOf key').cap
  · exact frame _ (separate.old key' room) fun room' => separate.apart key' key other room room'
  · have empty : (l.hitsOf key').slice.length = 0 := by
      have := separate.fits key'
      omega
    apply read_congr
    rw [empty]
    exact nofun

/-- The limiter with the slice of the call's key pruned. -/
def pruned (grow : ℕ → ℕ) (l : RateLimiter) (hit : Hit) : RateLimiter :=
  let st := filterInPlace grow (fun t => hit.now - l.window < t) l.heap (l.hitsOf hit.key)
  { l with hits := l.hits.insert hit.key st.2, heap := st.1 }

/-- The limiter with the time of the call appended to the slice of its key. -/
def pushed (grow : ℕ → ℕ) (l : RateLimiter) (hit : Hit) : RateLimiter :=
  let st := append grow l.heap (l.hitsOf hit.key) hit.now
  { l with hits := l.hits.insert hit.key st.2, heap := st.1 }

omit separate in
theorem times_insert (l : RateLimiter) (key key' : String) (b : Buffer) (heap : Heap Time) :
    times { l with hits := l.hits.insert key b, heap } key' =
      if key' = key then heap.memory.read b.slice else heap.memory.read (l.hitsOf key').slice := by
  unfold times
  rw [hitsOf_insert]
  split <;> rfl

variable (grow hit) in
theorem times_pruned (key : String) :
    (l.pruned grow hit).times key =
      if key = hit.key then recent l.window (l.times key) hit.now else l.times key := by
  have fits := separate.fits hit.key
  rw [pruned, times_insert]
  split
  · next same => rw [read_filterInPlace _ fits, same]; rfl
  · next other =>
    exact separate.read_other other fun s _ elsewhere => read_filterInPlace_other _ fits elsewhere

theorem separate_pruned : (l.pruned grow hit).Separate := by
  have done := filtered_filterInPlace grow (fun t => hit.now - l.window < t) l.heap
    (separate.fits hit.key)
  apply separate.store
  · rw [done.cap]
    exact Nat.le_trans done.behind (separate.fits hit.key)
  · exact le_of_eq done.fresh.symm
  · intro room
    exact .inl ⟨done.array, done.cap ▸ room⟩

theorem times_pushed (key : String) :
    (l.pushed grow hit).times key =
      if key = hit.key then l.times key ++ [hit.now] else l.times key := by
  rw [pushed, times_insert]
  split
  · next same => rw [read_append, same]; rfl
  · next other =>
    exact separate.read_other other fun s old elsewhere => read_append_other old elsewhere hit.now

theorem separate_pushed : (l.pushed grow hit).Separate := by
  have fits := separate.fits hit.key
  unfold pushed append
  split
  · next room =>
    exact separate.store room le_rfl fun _ => .inl ⟨rfl, Nat.zero_lt_of_lt room⟩
  · exact separate.store (Nat.le_max_left ..) (Nat.le_succ _) fun _ =>
      .inr ⟨rfl, Nat.lt_succ_self _⟩

def admits (l : RateLimiter) (hit : Hit) : Bool :=
  ((recent l.window (l.times hit.key) hit.now).length : ℤ) < l.max

theorem allow_eq :
    l.allow grow hit = (l.admits hit,
      if l.admits hit then (l.pruned grow hit).pushed grow hit else l.pruned grow hit) := by
  have length : (recent l.window (l.times hit.key) hit.now).length =
      ((l.pruned grow hit).hitsOf hit.key).slice.length := by
    have kept := times_pruned grow hit separate hit.key
    rw [if_pos rfl] at kept
    rw [← kept, times, Memory.length_read]
  have stored : (l.pruned grow hit).hitsOf hit.key =
      (filterInPlace grow (fun t => hit.now - l.window < t) l.heap (l.hitsOf hit.key)).2 := by
    rw [pruned, hitsOf_insert, if_pos rfl]
  rw [stored] at length
  by_cases room : l.admits hit = true
  · have short := of_decide_eq_true room
    rw [length] at short
    rw [room, if_pos rfl, allow, if_neg (not_le.mpr short), pushed, stored]
    simp [pruned]
  · have full : ¬ _ := of_decide_eq_false (Bool.eq_false_of_not_eq_true room)
    rw [length, not_lt] at full
    rw [if_neg room, Bool.eq_false_of_not_eq_true room, allow, if_pos full]
    rfl

end RateLimiter

end VeilNet.Source.Security
