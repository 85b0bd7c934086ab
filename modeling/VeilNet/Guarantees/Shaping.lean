import VeilNet.Source.Cover
import Mathlib.Algebra.Order.BigOperators.Group.List
import Mathlib.Order.Bounds.Basic

/-!
# The traffic shaper

What was emitted and what is queued is what was sent, in order; the counters add up to what
went on the wire; and with a cap, cover never costs more than its share of the real bytes.
-/
namespace VeilNet.Guarantees.Shaping
open Lib Source.Cover

section runs
variable {N F : Type} [GoCount N] [GoFloat F] {s : Shaper N F}

theorem emissions_snoc (ops : List Op) (op : Op) :
    emissions s (ops ++ [op]) = emissions s ops ++ (op.run (Run.run step s ops)).1.toList := by
  unfold emissions
  rw [Run.trace_snoc, List.filterMap_append]
  cases emitted : (op.run (Run.run step s ops)).1 <;> simp [emitted]

theorem sent_append (ops ops' : List Op) : sent (ops ++ ops') = sent ops ++ sent ops' :=
  List.filterMap_append ..

theorem sent_nonneg {n : ℤ} (nonneg : 0 ≤ n) : sent [.send n] = [n] := by
  simp [sent, not_lt.mpr nonneg]

theorem sent_negative {n : ℤ} (negative : n < 0) : sent [.send n] = [] := by
  simp [sent, negative]

end runs

section conservation
variable {N F : Type} {cfg : Config F}

/-- The payload lengths that are not cover, in order. -/
def payloads (ems : List Emission) : List ℤ := (ems.filter fun e => !e.cover).map (·.payloadLen)

def wireBytes (ems : List Emission) : ℤ := (ems.map (·.wireLen)).sum

def payloadBytes (ems : List Emission) : ℤ := (ems.map (·.payloadLen)).sum

/-- The unit has the size that the configuration gives it. -/
structure Shaped (cfg : Config F) (e : Emission) : Prop where
  room : e.payloadLen ≤ e.wireLen
  decoy : e.cover = true → e.payloadLen = 0
  bucket : cfg.mode = .pad → (∃ b ∈ cfg.sizes, e.payloadLen ≤ b) →
    IsLeast {b | b ∈ cfg.sizes ∧ e.payloadLen ≤ b} e.wireLen
  large : cfg.mode = .pad → (∀ b ∈ cfg.sizes, b < e.payloadLen) → e.wireLen = e.payloadLen
  cell : cfg.mode = .constant →
    e.wireLen = if e.payloadLen ≤ cfg.cellSize then cfg.cellSize else e.payloadLen

/-- The first bucket of an ascending list that is large enough is the least one. -/
theorem isLeast_find? {l : List ℤ} (ascending : l.Pairwise (· < ·)) {n b : ℤ}
    (found : l.find? (n ≤ ·) = some b) : IsLeast {b | b ∈ l ∧ n ≤ b} b := by
  obtain ⟨enough, front, back, rfl, skipped⟩ := List.find?_eq_some_iff_append.mp found
  obtain ⟨_, rest, _⟩ := List.pairwise_append.mp ascending
  refine ⟨⟨by simp, of_decide_eq_true enough⟩, ?_⟩
  rintro c ⟨member, larger⟩
  rcases List.mem_append.mp member with before | after
  · have small := skipped c before
    simp [larger] at small
  · rcases List.mem_cons.mp after with rfl | later
    · exact le_rfl
    · exact ((List.pairwise_cons.mp rest).1 c later).le

section settings
variable {s s' : Shaper N F}

variable (configured : Configured cfg s)
include configured

theorem shaped_bare {n : ℤ} (off : s.cfg.mode ≠ .constant)
    (plain : s.cfg.mode ≠ .pad) : Shaped cfg ⟨n, n, false⟩ := by
  have mode := configured.mode
  refine ⟨le_rfl, nofun, fun pad => ?_, fun pad => ?_, fun constant => ?_⟩
  · rw [pad] at mode
    exact absurd mode plain
  · rw [pad] at mode
    exact absurd mode plain
  · rw [constant] at mode
    exact absurd mode off

theorem mode_of_configured (on : s.cfg.mode ≠ .off) : cfg.mode = s.cfg.mode := by
  have mode := configured.mode
  split at mode
  · exact absurd mode on
  · exact mode.symm

theorem constant_of_configured (constant : s.cfg.mode = .constant) :
    cfg.mode = .constant :=
  (mode_of_configured configured (by rw [constant]; exact nofun)).trans constant

omit configured in
theorem le_padTo (s : Shaper N F) (n : ℤ) : n ≤ s.padTo n := by
  unfold Shaper.padTo
  cases found : s.buckets.find? (n ≤ ·) with
  | none => exact le_rfl
  | some b => simpa using List.find?_some found

theorem shaped_padded {n : ℤ} (pad : s.cfg.mode = .pad) :
    Shaped cfg ⟨n, s.padTo n, false⟩ := by
  have mode : cfg.mode = .pad := (mode_of_configured configured (by rw [pad]; exact nofun)).trans
      pad
  obtain ⟨buckets, ascending⟩ := configured.buckets mode
  refine ⟨le_padTo s n, nofun, fun _ some => ?_, fun _ none => ?_, fun constant => ?_⟩
  · obtain ⟨b, member, enough⟩ := some
    cases found : cfg.sizes.find? (n ≤ ·) with
    | none => exact absurd (decide_eq_true enough) (List.find?_eq_none.mp found b member)
    | some least =>
      have wire : s.padTo n = least := by rw [Shaper.padTo, buckets, found, Option.getD_some]
      rw [wire]
      exact isLeast_find? ascending found
  · have missing : cfg.sizes.find? (n ≤ ·) = Option.none := by
      apply List.find?_eq_none.mpr
      intro b member enough
      exact absurd (none b member) (not_lt.mpr (of_decide_eq_true enough))
    change s.padTo n = n
    rw [Shaper.padTo, buckets, missing, Option.getD_none]
  · rw [mode] at constant
    cases constant

theorem shaped_cell {e : Emission} (constant : s.cfg.mode = .constant)
    (room : e.payloadLen ≤ e.wireLen) (decoy : e.cover = true → e.payloadLen = 0)
    (cell : e.wireLen = if e.payloadLen ≤ cfg.cellSize then cfg.cellSize else e.payloadLen) :
    Shaped cfg e := by
  have mode := constant_of_configured configured constant
  have notPad : cfg.mode ≠ .pad := by
    rw [mode]
    exact nofun
  exact ⟨room, decoy, fun pad => absurd pad notPad, fun pad => absurd pad notPad, fun _ => cell⟩

theorem configured_of_eq (settings : s'.cfg = s.cfg)
    (buckets : s'.buckets = s.buckets) : Configured cfg s' := by
  obtain ⟨mode, cellSize, maxOverhead, cell, sizes⟩ := configured
  rw [← settings] at mode cellSize maxOverhead
  rw [← buckets] at sizes
  exact ⟨mode, cellSize, maxOverhead, cell, sizes⟩

end settings

section account
variable [GoCount N] {s s' : Shaper N F} {ems out : List Emission} {asked more : List ℤ}

/-- The state after a run in which `asked` was sent and `ems` emitted. -/
structure Accounted (cfg : Config F) (ems : List Emission) (asked : List ℤ) (s : Shaper N F) :
    Prop where
  configured : Configured cfg s
  idle : s.cfg.mode ≠ .constant → s.pending = []
  order : payloads ems ++ s.pending = asked
  real : s.stats.realBytes = GoCount.ofInt (payloadBytes ems)
  total : s.stats.totalBytes = GoCount.ofInt (wireBytes ems)
  shaped : ∀ e ∈ ems, Shaped cfg e

/-- What a call adds that sends `more` and emits `out`. -/
structure Adds (cfg : Config F) (out : List Emission) (more : List ℤ) (s s' : Shaper N F) :
    Prop where
  settings : s'.cfg = s.cfg
  buckets : s'.buckets = s.buckets
  idle : s.cfg.mode ≠ .constant → s'.pending = []
  order : payloads out ++ s'.pending = s.pending ++ more
  real : s'.stats.realBytes = s.stats.realBytes + GoCount.ofInt (payloadBytes out)
  total : s'.stats.totalBytes = s.stats.totalBytes + GoCount.ofInt (wireBytes out)
  shaped : ∀ e ∈ out, Shaped cfg e

theorem Accounted.add (accounted : Accounted cfg ems asked s) (adds : Adds cfg out more s s') :
    Accounted cfg (ems ++ out) (asked ++ more) s' := by
  constructor
  · exact configured_of_eq accounted.configured adds.settings adds.buckets
  · rw [adds.settings]
    exact adds.idle
  · rw [payloads, List.filter_append, List.map_append, List.append_assoc, ← accounted.order,
      List.append_assoc]
    exact congrArg (payloads ems ++ ·) adds.order
  · rw [adds.real, accounted.real, ← map_add, payloadBytes, payloadBytes, ← List.sum_append,
      ← List.map_append]
    rfl
  · rw [adds.total, accounted.total, ← map_add, wireBytes, wireBytes, ← List.sum_append,
      ← List.map_append]
    rfl
  · exact fun e member => (List.mem_append.mp member).elim (accounted.shaped e) (adds.shaped e)

theorem emitBare_eq (s : Shaper N F) (n : ℤ) : s.emitBare n = s.emitPadded n n := by
  simp [Shaper.emitBare, Shaper.emitPadded, Stats.addPad]

theorem adds_silent (settings : s'.cfg = s.cfg) (buckets : s'.buckets = s.buckets)
    (idle : s.cfg.mode ≠ .constant → s'.pending = []) (order : s'.pending = s.pending ++ more)
    (real : s'.stats.realBytes = s.stats.realBytes)
    (total : s'.stats.totalBytes = s.stats.totalBytes) : Adds cfg [] more s s' := by
  refine ⟨settings, buckets, idle, order, ?_, ?_, nofun⟩
  · rw [real]
    exact (by simp [payloadBytes])
  · rw [total]
    exact (by simp [wireBytes])

/-- A packet that leaves the queue, or that is sent while nothing is queued: `t` is the
shaper without it. -/
theorem adds_emitPadded {t : Shaper N F} {n wire : ℤ} (settings : t.cfg = s.cfg)
    (buckets : t.buckets = s.buckets) (stats : t.stats = s.stats)
    (order : n :: t.pending = s.pending ++ more) (idle : s.cfg.mode ≠ .constant → t.pending = [])
    (shaped : Shaped cfg ⟨n, wire, false⟩) :
    Adds cfg [⟨n, wire, false⟩] more s (t.emitPadded n wire).2 := by
  have whole : GoCount.ofInt wire = (GoCount.ofInt n + GoCount.ofInt (wire - n) : N) := by
    rw [← map_add, add_sub_cancel]
  refine ⟨settings, buckets, idle, order, ?_, ?_, by simpa using shaped⟩
  · simp [payloadBytes, Shaper.emitPadded, Stats.carry, Stats.addPad, stats]
  · simp only [wireBytes, Shaper.emitPadded, Stats.totalBytes, Stats.carry, Stats.addPad, stats,
      List.map_cons, List.map_nil, List.sum_singleton, whole]
    abel

theorem adds_cover {now : Time} (idle : s.cfg.mode ≠ .constant → s.pending = [])
    (shaped : Shaped cfg ⟨0, s.cfg.cellSize, true⟩) :
    Adds cfg [⟨0, s.cfg.cellSize, true⟩] [] s
      { s with lastIdle := now, stats := s.stats.addCover s.cfg.cellSize } := by
  refine ⟨rfl, rfl, idle, (List.append_nil s.pending).symm, ?_, ?_, by simpa using shaped⟩
  · simp [payloadBytes, Stats.addCover]
  · simp [wireBytes, Stats.totalBytes, Stats.addCover, add_assoc]

variable [GoFloat F]

theorem adds_step (configured : Configured cfg s) (idle : s.cfg.mode ≠ .constant → s.pending = [])
    (op : Op) : Adds cfg (op.run s).1.toList (sent [op]) s (step s op) := by
  have move := move_run s op
  unfold step
  generalize op.run s = out at move
  have alone : ∀ n, s.pending = [] → n :: s.pending = s.pending ++ [n] := by
    intro n empty
    rw [empty]
    rfl
  have first : ∀ {n rest}, s.pending = n :: rest → n :: rest = s.pending ++ [] := fun pending => by
    rw [pending, List.append_nil]
  cases move with
  | negative negative =>
    rw [sent_negative negative]
    exact adds_silent rfl rfl idle (List.append_nil _).symm rfl rfl
  | queued nonneg constant =>
    rw [sent_nonneg nonneg]
    exact adds_silent rfl rfl (fun other => absurd constant other) rfl rfl rfl
  | padded nonneg pad =>
    rw [sent_nonneg nonneg]
    exact adds_emitPadded rfl rfl rfl (alone _ (idle (by rw [pad]; exact nofun))) idle
      (shaped_padded configured pad)
  | bare nonneg other plain =>
    rw [sent_nonneg nonneg, emitBare_eq]
    exact adds_emitPadded rfl rfl rfl (alone _ (idle other)) idle
      (shaped_bare configured other plain)
  | untimed other => exact adds_silent rfl rfl idle (List.append_nil _).symm rfl rfl
  | oversize constant pending large =>
    rw [emitBare_eq]
    refine adds_emitPadded rfl rfl rfl (first pending) (fun other => absurd constant other) ?_
    apply shaped_cell configured constant le_rfl fun cover => by cases cover
    rw [configured.cellSize] at large
    exact (if_neg (not_le.mpr large)).symm
  | cell constant pending small =>
    refine adds_emitPadded rfl rfl rfl (first pending) (fun other => absurd constant other) ?_
    apply shaped_cell configured constant small fun cover => by cases cover
    rw [configured.cellSize] at small
    exact configured.cellSize.trans (if_pos small).symm
  | dropped _ _ _ => exact adds_silent rfl rfl idle (List.append_nil _).symm rfl rfl
  | cover constant _ _ =>
    have positive := configured.cell (constant_of_configured configured constant)
    rw [← configured.cellSize] at positive
    apply adds_cover idle
    apply shaped_cell configured constant positive.le fun _ => rfl
    rw [← configured.cellSize]
    exact (if_pos positive.le).symm

theorem accounted_run (new : New cfg s) (ops : List Op) :
    Accounted cfg (emissions s ops) (sent ops) (Run.run step s ops) := by
  induction ops using List.reverseRecOn with
  | nil =>
    have none : s.stats = .zero s.cfg.mode := new.stats
    refine ⟨new.toConfigured, fun _ => new.pending, new.pending, ?_, ?_, nofun⟩
    · exact (congrArg Stats.realBytes none).trans (map_zero GoCount.ofInt).symm
    · refine (congrArg Stats.totalBytes none).trans ?_
      simp [Stats.totalBytes, Stats.zero, wireBytes, emissions, Run.trace]
  | append_singleton ops op ih =>
    rw [emissions_snoc, sent_append, Run.run_snoc]
    exact ih.add (adds_step ih.configured ih.idle op)

end account

theorem nonneg_of_mem_sent {n : ℤ} {ops : List Op} (member : n ∈ sent ops) : 0 ≤ n := by
  obtain ⟨op, _, asked⟩ := List.mem_filterMap.mp member
  cases op with
  | send m =>
    obtain ⟨nonneg, rfl⟩ : ¬m < 0 ∧ m = n := by simpa using asked
    exact not_lt.mp nonneg
  | tick now => cases asked

theorem payloadLen_nonneg {ems : List Emission} {queue : List ℤ} {ops : List Op}
    (order : payloads ems ++ queue = sent ops) (shaped : ∀ e ∈ ems, Shaped cfg e) {e : Emission}
    (member : e ∈ ems) : 0 ≤ e.payloadLen := by
  cases real : e.cover with
  | true => exact ((shaped e member).decoy real).ge
  | false =>
    have listed : e.payloadLen ∈ payloads ems :=
      List.mem_map_of_mem (List.mem_filter.mpr ⟨member, by rw [real]; rfl⟩)
    have asked : e.payloadLen ∈ sent ops := by
      rw [← order]
      exact List.mem_append_left queue listed
    exact nonneg_of_mem_sent asked

/-- Nothing is lost, repeated, cut or reordered; the counters, which are of type `int64`,
hold the sums over what was emitted; and each unit has the size of its mode. -/
theorem conserved [GoFloat F] (s : Shaper Int64 F) (made : newShaper cfg = .ok s) (ops : List Op) :
    let ems := emissions s ops
    let s' := Run.run step s ops
    payloads ems ++ s'.pending = sent ops ∧
    s'.stats.totalBytes = Int64.ofInt (wireBytes ems) ∧
    s'.stats.realBytes = Int64.ofInt (payloadBytes ems) ∧
    (wireBytes ems < 2 ^ 63 → s'.stats.totalBytes.toInt = wireBytes ems ∧
      s'.stats.realBytes.toInt = payloadBytes ems) ∧
    ∀ e ∈ ems, Shaped cfg e := by
  have new := new_of_newShaper made
  have accounted := accounted_run new ops
  have total := accounted.total
  refine ⟨accounted.order, total, accounted.real, ?_, accounted.shaped⟩
  intro fits
  have nonneg : ∀ e ∈ emissions s ops, 0 ≤ e.payloadLen := fun _ member =>
    payloadLen_nonneg accounted.order accounted.shaped member
  have lower : 0 ≤ payloadBytes (emissions s ops) := List.sum_nonneg (by simpa using nonneg)
  have upper : payloadBytes (emissions s ops) ≤ wireBytes (emissions s ops) :=
    List.sum_le_sum fun e member => (accounted.shaped e member).room
  rw [total, accounted.real]
  exact ⟨Int64.toInt_ofInt_of_le (by omega) fits,
    Int64.toInt_ofInt_of_le (by omega) (upper.trans_lt fits)⟩

def someConfig : Config ℚ := ⟨.constant, [], 512, 20000000, 1⟩

/-- A packet in its cell, and one that is larger than a cell. -/
theorem conserved_somePackets :
    ∃ s : Shaper Int64 ℚ, newShaper someConfig = .ok s ∧
      emissions s [.send 100, .tick 1, .send 2000, .tick 2, .send 7] =
        [⟨100, 512, false⟩, ⟨2000, 2000, false⟩] ∧
      Shaped someConfig ⟨2000, 2000, false⟩ :=
  ⟨_, rfl, by decide,
    (conserved _ rfl [.send 100, .tick 1, .send 2000, .tick 2, .send 7]).2.2.2.2 _
      (by decide)⟩

end conservation

/-! The cap, with exact counters and ratios. -/
section cap
variable {cfg : Config ℚ} {r : ℚ} {s : Shaper ℤ ℚ}

/-- What the cap promises of a call and its outcome. -/
structure Capped (r : ℚ) (s : Shaper ℤ ℚ) (op : Op) (out : Option Emission × Shaper ℤ ℚ) :
    Prop where
  cover : ∀ e, out.1 = some e → e.cover = true →
    0 < s.stats.realBytes ∧
    (out.2.stats.padBytes + out.2.stats.coverBytes : ℚ) ≤ r * out.2.stats.realBytes
  idle : ∀ now, op = .tick now → s.pending = [] →
    out.1 = some ⟨0, s.cfg.cellSize, true⟩ ∨
    out.1 = none ∧ out.2.stats.droppedOver = s.stats.droppedOver + 1 ∧
      r * s.stats.realBytes < s.stats.padBytes + s.stats.coverBytes + s.cfg.cellSize
  busy : ∀ now payload rest, op = .tick now → s.pending = payload :: rest →
    ∃ wire, out.1 = some ⟨payload, wire, false⟩

/-- The invariant of a shaper in the mode `constant` with the cap `r`. -/
structure Within (r : ℚ) (s : Shaper ℤ ℚ) : Prop where
  mode : s.cfg.mode = .constant
  cell : 0 < s.cfg.cellSize
  ratio : s.cfg.maxOverhead = r
  limited : 0 < r
  real : 0 ≤ s.stats.realBytes
  pad : 0 ≤ s.stats.padBytes
  cover : 0 ≤ s.stats.coverBytes
  queue : ∀ n ∈ s.pending, 0 ≤ n
  capped : (s.stats.coverBytes : ℚ) ≤ r * s.stats.realBytes

theorem overCap_eq (within : Within r s) :
    s.overCap = true ↔ s.stats.realBytes = 0 ∨
      r < (s.stats.padBytes + s.stats.coverBytes + s.cfg.cellSize : ℚ) / s.stats.realBytes := by
  have zero : (s.stats.realBytes : ℚ) ≤ 0 ∧ 0 ≤ (s.stats.realBytes : ℚ) ↔
      s.stats.realBytes = 0 := by
    rw [← le_antisymm_iff, Int.cast_eq_zero]
  simp [Shaper.overCap, GoFloat.lt, GoFloat.le, GoFloat.ofInt, GoFloat.div, GoCount.toInt,
    GoCount.ofInt, within.ratio, within.limited, ← zero]

/-- The tick drops its cell exactly if the cell would break the cap. -/
theorem overCap_iff (within : Within r s) :
    s.overCap = true ↔
      r * s.stats.realBytes < s.stats.padBytes + s.stats.coverBytes + s.cfg.cellSize := by
  rw [overCap_eq within]
  rcases within.real.eq_or_lt with none | some
  · have total : 0 < s.stats.padBytes + s.stats.coverBytes + s.cfg.cellSize := by
      have := within.pad
      have := within.cover
      have := within.cell
      omega
    rw [← none]
    simp only [true_or, true_iff, Int.cast_zero, mul_zero]
    exact_mod_cast total
  · rw [lt_div_iff₀ (Int.cast_pos.mpr some)]
    simp [some.ne']

theorem capped_carry (within : Within r s) {n : ℤ} (nonneg : 0 ≤ n) :
    (s.stats.coverBytes : ℚ) ≤ r * (s.stats.realBytes + n : ℤ) := by
  have more : (s.stats.realBytes : ℚ) ≤ (s.stats.realBytes + n : ℤ) :=
    Int.cast_le.mpr (le_add_of_nonneg_right nonneg)
  exact within.capped.trans (mul_le_mul_of_nonneg_left more within.limited.le)

theorem within_step (within : Within r s) (op : Op) : Within r (step s op) := by
  have full := overCap_iff within
  have carried := fun {n} => capped_carry (n := n) within
  have move := move_run s op
  unfold step
  generalize op.run s = out at move
  obtain ⟨mode, cell, ratio, limited, real, pad, cover, queue, capped⟩ := within
  cases move with
  | negative negative => exact ⟨mode, cell, ratio, limited, real, pad, cover, queue, capped⟩
  | queued nonneg _ =>
    refine ⟨mode, cell, ratio, limited, real, pad, cover, ?_, capped⟩
    intro m member
    rcases List.mem_append.mp member with before | last
    · exact queue m before
    · rw [List.mem_singleton.mp last]
      exact nonneg
  | padded _ other =>
    rw [mode] at other
    cases other
  | bare _ other _ => exact absurd mode other
  | untimed other => exact absurd mode other
  | oversize _ pending large =>
    rw [pending] at queue
    obtain ⟨nonneg, queue⟩ := List.forall_mem_cons.mp queue
    exact ⟨mode, cell, ratio, limited, add_nonneg real nonneg, pad, cover, queue, carried nonneg⟩
  | cell _ pending small =>
    rw [pending] at queue
    obtain ⟨nonneg, queue⟩ := List.forall_mem_cons.mp queue
    exact ⟨mode, cell, ratio, limited, add_nonneg real nonneg,
      add_nonneg pad (sub_nonneg.mpr small), cover, queue, carried nonneg⟩
  | dropped _ _ _ => exact ⟨mode, cell, ratio, limited, real, pad, cover, queue, capped⟩
  | cover _ _ under =>
    have fits := not_lt.mp fun breaks => Bool.false_ne_true (under.symm.trans (full.mpr breaks))
    refine ⟨mode, cell, ratio, limited, real, pad, add_nonneg cover cell.le, queue, ?_⟩
    change ((s.stats.coverBytes + s.cfg.cellSize : ℤ) : ℚ) ≤ r * s.stats.realBytes
    have padded : (0 : ℚ) ≤ s.stats.padBytes := Int.cast_nonneg pad
    push_cast
    linarith

theorem capped_of_pending {now : Time} {payload wire : ℤ} {rest : List ℤ} {t : Shaper ℤ ℚ}
    (pending : s.pending = payload :: rest) :
    Capped r s (.tick now) (some ⟨payload, wire, false⟩, t) := by
  constructor
  · intro e emitted covered
    cases emitted
    cases covered
  · simp [pending]
  · intro _ _ _ _ queue
    rw [queue] at pending
    cases pending
    exact ⟨wire, rfl⟩

theorem capped_step (within : Within r s) (op : Op) : Capped r s op (op.run s) := by
  have full := overCap_iff within
  have move := move_run s op
  generalize op.run s = out at move
  cases move with
  | negative _ => exact ⟨nofun, nofun, nofun⟩
  | queued _ _ => exact ⟨nofun, nofun, nofun⟩
  | padded _ other =>
    rw [within.mode] at other
    cases other
  | bare _ other _ => exact absurd within.mode other
  | untimed other => exact absurd within.mode other
  | oversize _ pending _ => exact capped_of_pending pending
  | cell _ pending _ => exact capped_of_pending pending
  | dropped _ pending breaks =>
    exact ⟨nofun, fun _ _ _ => .inr ⟨rfl, rfl, full.mp breaks⟩, by simp [pending]⟩
  | cover _ pending under =>
    refine ⟨fun e _ _ => ⟨?_, ?_⟩, fun _ _ _ => .inl rfl, by simp [pending]⟩
    · refine within.real.lt_of_ne fun none => ?_
      exact Bool.false_ne_true (under.symm.trans ((overCap_eq within).mpr (.inl none.symm)))
    · change (s.stats.padBytes + (s.stats.coverBytes + s.cfg.cellSize : ℤ) : ℚ) ≤
        r * s.stats.realBytes
      push_cast
      rw [← add_assoc]
      exact not_lt.mp fun breaks => Bool.false_ne_true (under.symm.trans (full.mpr breaks))

/-- Cover never exceeds its share of the real bytes, and nothing else is held back for it. -/
theorem rate_kept (s : Shaper ℤ ℚ) (made : newShaper cfg = .ok s) (constant : cfg.mode = .constant)
    (limited : 0 < cfg.maxOverhead) (ops : List Op) :
    Run.Throughout step (fun t : Shaper ℤ ℚ =>
      (t.stats.coverBytes : ℚ) ≤ cfg.maxOverhead * t.stats.realBytes) s ops ∧
    Run.Along step (fun t op => Capped cfg.maxOverhead t op (op.run t)) s ops := by
  have new := new_of_newShaper made
  have start : Within cfg.maxOverhead s := by
    have stats : s.stats = .zero s.cfg.mode := new.stats
    have mode : s.cfg.mode = .constant := by rw [new.mode, constant]; rfl
    have cell : 0 < s.cfg.cellSize := new.cellSize ▸ new.cell constant
    refine ⟨mode, cell, new.maxOverhead, limited, ?_, ?_, ?_, by simp [new.pending], ?_⟩
    all_goals simp [stats, Stats.zero]
  have premise : Run.Along step (fun _ _ => True) s ops := Run.along_of_forall fun _ _ => trivial
  have keep := fun s op (_ : True) within => within_step (r := cfg.maxOverhead) (s := s) within op
  constructor
  · exact (Run.throughout_of_invariant start keep premise).mono fun _ within => within.capped
  · exact Run.along_of_invariant start keep (fun _ op _ within => capped_step within op) premise

/-- A cell of cover is dropped, the packet goes out, and the next cell fits. -/
theorem someConfig_rate_kept :
    ∃ s : Shaper ℤ ℚ, newShaper someConfig = .ok s ∧
      emissions s [.tick 1, .send 2000, .tick 2, .tick 3] =
        [⟨2000, 2000, false⟩, ⟨0, 512, true⟩] ∧
      Run.Along step (fun t op => Capped someConfig.maxOverhead t op (op.run t)) s
        [.tick 1, .send 2000, .tick 2, .tick 3] :=
  ⟨_, rfl, by decide +kernel, (rate_kept _ rfl rfl (by decide) _).2⟩

end cap

end VeilNet.Guarantees.Shaping
