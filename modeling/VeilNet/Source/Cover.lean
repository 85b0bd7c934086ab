import VeilNet.Lib.GoCount
import VeilNet.Lib.GoFloat
import VeilNet.Lib.GoTime
import VeilNet.Lib.Outcome
import VeilNet.Lib.Run

/-!
The traffic shaper, `internal/cover/cover.go`. Lengths are integers; the counters are those
of `GoCount`, and the ratio is computed with the floats of `GoFloat`. The mutex and the error texts
are left out.
-/
namespace VeilNet.Source.Cover
open Lib Lib.Outcome

/-- `unset` is the empty string. -/
inductive Mode where
  | unset | off | pad | constant
  | unknown (name : String)
  deriving DecidableEq

def defaultBuckets : List ℤ := [128, 256, 512, 1024, 1420]

structure Config (F : Type) where
  mode : Mode
  buckets : List ℤ
  cellSize : ℤ
  interval : Duration
  maxOverhead : F

inductive ConfigError where
  | bucketNotPositive (i : ℕ)
  | notAscending | noCellSize | noInterval | negativeOverhead
  | unknownMode (name : String)

/-- The loop over the buckets; `before` is the one at index `i - 1`. -/
def checkBuckets : ℕ → Option ℤ → List ℤ → Except ConfigError Unit
  | _, _, [] => .ok ()
  | i, before, b :: rest => do
    refuseIf (b ≤ 0) (.bucketNotPositive i)
    refuseIf (before.any (b ≤ ·)) .notAscending
    checkBuckets (i + 1) (some b) rest

/-- What shaping has cost. -/
structure Stats (N : Type) where
  mode : Mode
  packets : N
  realBytes : N
  padBytes : N
  coverBytes : N
  coverCells : N
  droppedOver : N

structure Emission where
  payloadLen : ℤ
  wireLen : ℤ
  cover : Bool
  deriving DecidableEq

structure Shaper (N F : Type) where
  cfg : Config F
  buckets : List ℤ
  stats : Stats N
  pending : List ℤ
  lastIdle : Time

section shaping
variable {N F : Type} [GoCount N] [GoFloat F]

def Config.validate (c : Config F) : Except ConfigError Unit :=
  match c.mode with
  | .unset | .off => .ok ()
  | .pad => checkBuckets 0 none c.buckets
  | .constant => do
    refuseIf (c.cellSize ≤ 0) .noCellSize
    refuseIf (c.interval ≤ 0) .noInterval
    refuseIf (GoFloat.lt c.maxOverhead (GoFloat.ofInt 0)) .negativeOverhead
  | .unknown name => .error (.unknownMode name)

namespace Stats

def zero (mode : Mode) : Stats N := ⟨mode, 0, 0, 0, 0, 0, 0⟩

def totalBytes (s : Stats N) : N := s.realBytes + s.padBytes + s.coverBytes

def carry (s : Stats N) (payload : ℤ) : Stats N :=
  { s with
    packets := s.packets + GoCount.ofInt 1
    realBytes := s.realBytes + GoCount.ofInt payload }

def addPad (s : Stats N) (pad : ℤ) : Stats N :=
  { s with padBytes := s.padBytes + GoCount.ofInt pad }

def addCover (s : Stats N) (cell : ℤ) : Stats N :=
  { s with
    coverCells := s.coverCells + GoCount.ofInt 1
    coverBytes := s.coverBytes + GoCount.ofInt cell }

def drop (s : Stats N) : Stats N :=
  { s with droppedOver := s.droppedOver + GoCount.ofInt 1 }

end Stats

def newShaper (cfg : Config F) : Except ConfigError (Shaper N F) := do
  cfg.validate
  let cfg := if cfg.mode = .unset then { cfg with mode := .off } else cfg
  let buckets := if cfg.mode = .pad ∧ cfg.buckets = [] then defaultBuckets else cfg.buckets
  .ok ⟨cfg, buckets.mergeSort (· ≤ ·), .zero cfg.mode, [], 0⟩

namespace Shaper
variable (s : Shaper N F)

def padTo (n : ℤ) : ℤ := (s.buckets.find? (n ≤ ·)).getD n

def emitBare (payload : ℤ) : Option Emission × Shaper N F :=
  (some ⟨payload, payload, false⟩, { s with stats := s.stats.carry payload })

/-- A packet that is padded to `wire` bytes. -/
def emitPadded (payload wire : ℤ) : Option Emission × Shaper N F :=
  (some ⟨payload, wire, false⟩,
    { s with stats := (s.stats.carry payload).addPad (wire - payload) })

def send (payloadLen : ℤ) : Option Emission × Shaper N F :=
  if payloadLen < 0 then (none, s)
  else
    match s.cfg.mode with
    | .constant => (none, { s with pending := s.pending ++ [payloadLen] })
    | .pad => s.emitPadded payloadLen (s.padTo payloadLen)
    | .unset | .off | .unknown _ => s.emitBare payloadLen

/-- One more cell of cover would be too much: a cap is set, and either nothing real was sent
or the ratio would exceed it. -/
def overCap : Bool :=
  let added : F := GoFloat.ofInt
    (GoCount.toInt (s.stats.padBytes + s.stats.coverBytes + GoCount.ofInt s.cfg.cellSize))
  let real : F := GoFloat.ofInt (GoCount.toInt s.stats.realBytes)
  GoFloat.lt (GoFloat.ofInt 0) s.cfg.maxOverhead &&
    ((GoFloat.le real (GoFloat.ofInt 0) && GoFloat.le (GoFloat.ofInt 0) real) ||
      GoFloat.lt s.cfg.maxOverhead (GoFloat.div added real))

def tick (now : Time) : Option Emission × Shaper N F :=
  if s.cfg.mode ≠ .constant then (none, s)
  else
    match s.pending with
    | payload :: rest =>
      let s := { s with pending := rest }
      if s.cfg.cellSize < payload then s.emitBare payload
      else s.emitPadded payload s.cfg.cellSize
    | [] =>
      if s.overCap then (none, { s with stats := s.stats.drop })
      else (some ⟨0, s.cfg.cellSize, true⟩,
        { s with lastIdle := now, stats := s.stats.addCover s.cfg.cellSize })

end Shaper

inductive Op where
  | send (payloadLen : ℤ)
  | tick (now : Time)

def Op.run (s : Shaper N F) : Op → Option Emission × Shaper N F
  | .send payloadLen => s.send payloadLen
  | .tick now => s.tick now

def step (s : Shaper N F) (op : Op) : Shaper N F := (op.run s).2

/-- What a run hands over for transmission, in order. -/
def emissions (s : Shaper N F) (ops : List Op) : List Emission :=
  (Run.trace step s ops).filterMap fun visit => (visit.2.run visit.1).1

/-- The lengths that were asked to be sent, without those that `Send` ignores. -/
def sent (ops : List Op) : List ℤ :=
  ops.filterMap fun
    | .send payloadLen => if payloadLen < 0 then none else some payloadLen
    | .tick _ => none

/-- Everything that a call can do, with the conditions under which it does. -/
inductive Move (s : Shaper N F) : Op → Option Emission × Shaper N F → Prop where
  | negative {n : ℤ} : n < 0 → Move s (.send n) (none, s)
  | queued {n : ℤ} : 0 ≤ n → s.cfg.mode = .constant →
    Move s (.send n) (none, { s with pending := s.pending ++ [n] })
  | padded {n : ℤ} : 0 ≤ n → s.cfg.mode = .pad → Move s (.send n) (s.emitPadded n (s.padTo n))
  | bare {n : ℤ} : 0 ≤ n → s.cfg.mode ≠ .constant → s.cfg.mode ≠ .pad →
    Move s (.send n) (s.emitBare n)
  | untimed {now : Time} : s.cfg.mode ≠ .constant → Move s (.tick now) (none, s)
  | oversize {now : Time} {payload : ℤ} {rest : List ℤ} : s.cfg.mode = .constant →
    s.pending = payload :: rest → s.cfg.cellSize < payload →
    Move s (.tick now) ({ s with pending := rest }.emitBare payload)
  | cell {now : Time} {payload : ℤ} {rest : List ℤ} : s.cfg.mode = .constant →
    s.pending = payload :: rest → payload ≤ s.cfg.cellSize →
    Move s (.tick now) ({ s with pending := rest }.emitPadded payload s.cfg.cellSize)
  | dropped {now : Time} : s.cfg.mode = .constant → s.pending = [] → s.overCap = true →
    Move s (.tick now) (none, { s with stats := s.stats.drop })
  | cover {now : Time} : s.cfg.mode = .constant → s.pending = [] → s.overCap = false →
    Move s (.tick now) (some ⟨0, s.cfg.cellSize, true⟩,
      { s with lastIdle := now, stats := s.stats.addCover s.cfg.cellSize })

/-- A packet is ignored, queued, padded or sent as it is, by its length and the mode. -/
theorem move_send (s : Shaper N F) (n : ℤ) : Move s (.send n) (s.send n) := by
  unfold Shaper.send
  split
  · next negative => exact .negative negative
  · next nonneg =>
    rw [not_lt] at nonneg
    split
    · next mode => exact .queued nonneg mode
    · next mode => exact .padded nonneg mode
    all_goals
      next mode =>
      exact .bare nonneg (by rw [mode]; exact nofun) (by rw [mode]; exact nofun)

/-- A tick does nothing, sends a queued packet, or sends or drops a cell of cover. -/
theorem move_tick (s : Shaper N F) (now : Time) : Move s (.tick now) (s.tick now) := by
  unfold Shaper.tick
  split
  · next other => exact .untimed other
  · next constant =>
    rw [not_not] at constant
    split
    · next payload rest pending =>
      dsimp only
      split
      · next large => exact .oversize constant pending large
      · next small => exact .cell constant pending (not_lt.mp small)
    · next pending =>
      split
      · next full => exact .dropped constant pending full
      · next under => exact .cover constant pending (Bool.eq_false_of_not_eq_true under)

/-- Every call makes one of the moves: what the invariants of a run are proved from. -/
theorem move_run (s : Shaper N F) (op : Op) : Move s op (op.run s) := by
  cases op with
  | send n => exact move_send s n
  | tick now => exact move_tick s now

section config

/-- Buckets that pass their check ascend, from the one before them on. -/
theorem pairwise_of_checkBuckets {i : ℕ} {before : Option ℤ} {buckets : List ℤ} {u : Unit}
    (checked : checkBuckets i before buckets = .ok u) :
    buckets.Pairwise (· < ·) ∧ ∀ a ∈ before, ∀ b ∈ buckets, a < b := by
  induction buckets generalizing i before with
  | nil => exact ⟨.nil, fun _ _ => nofun⟩
  | cons b rest ih =>
    obtain ⟨_, _, checked⟩ := of_bind_ok checked
    obtain ⟨_, above, checked⟩ := of_bind_ok checked
    obtain ⟨ascending, later⟩ := ih checked
    have above := of_refuseIf_ok above
    have first := later b rfl
    refine ⟨List.pairwise_cons.mpr ⟨first, ascending⟩, ?_⟩
    intro a here c member
    have below : a < b := by
      cases here
      simpa using above
    rcases List.mem_cons.mp member with rfl | inRest
    · exact below
    · exact below.trans (first c inRest)

/-- The padding sizes that are in force. -/
def Config.sizes (c : Config F) : List ℤ := if c.buckets = [] then defaultBuckets else c.buckets

/-- The shaper has the settings of `cfg`, and they can be honoured. -/
structure Configured (cfg : Config F) (s : Shaper N F) : Prop where
  mode : s.cfg.mode = if cfg.mode = .unset then .off else cfg.mode
  cellSize : s.cfg.cellSize = cfg.cellSize
  maxOverhead : s.cfg.maxOverhead = cfg.maxOverhead
  cell : cfg.mode = .constant → 0 < cfg.cellSize
  buckets : cfg.mode = .pad → s.buckets = cfg.sizes ∧ cfg.sizes.Pairwise (· < ·)

/-- A new shaper has seen nothing. -/
structure New (cfg : Config F) (s : Shaper N F) : Prop extends Configured cfg s where
  stats : s.stats = .zero s.cfg.mode
  pending : s.pending = []

/-- `New` honours a valid configuration; sorting the buckets changes nothing. -/
theorem new_of_newShaper {cfg : Config F} {s : Shaper N F} (made : newShaper cfg = .ok s) :
    New cfg s := by
  obtain ⟨_, valid, made⟩ := of_bind_ok made
  cases made
  refine ⟨⟨?_, ?_, ?_, ?_, ?_⟩, rfl, rfl⟩
  · dsimp only
    split <;> rfl
  · dsimp only
    split <;> rfl
  · dsimp only
    split <;> rfl
  · intro mode
    rw [Config.validate, mode] at valid
    obtain ⟨_, cell, _⟩ := of_bind_ok valid
    exact not_le.mp (of_refuseIf_ok cell)
  · intro mode
    rw [Config.validate, mode] at valid
    have ascending : cfg.sizes.Pairwise (· < ·) := by
      unfold Config.sizes
      split
      · decide
      · exact (pairwise_of_checkBuckets valid).1
    have sorted : cfg.sizes.mergeSort (· ≤ ·) = cfg.sizes :=
      List.mergeSort_of_pairwise (ascending.imp fun less => decide_eq_true less.le)
    refine ⟨?_, ascending⟩
    rw [← sorted]
    simp [mode, Config.sizes]

end config

end shaping

end VeilNet.Source.Cover
