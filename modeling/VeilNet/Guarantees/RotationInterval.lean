import VeilNet.Guarantees.StickyGuard

/-!
# Auto-rotation and its interval

`MaybeAutoRotate` measures the interval from `BuiltAt`, which a rotation leaves as it is. So
it keeps its distance from the builds always, and from the rotations as long as the circuit is
built anew between a rotation and the next poll that is due (`spaced_of_rebuilt`). Without that,
every poll after the first due one rotates again (`nextPoll_notSpaced`).

The calls run one after the other, read the clock in order and poll with the time of the clock.
What the nodes, the engine and its backend answer is arbitrary. A `RotateMinutes` that overflows
a duration is left out.
-/
namespace VeilNet.Guarantees.RotationInterval
open Lib Source Source.Client

section times
variable {F : Type} {a : App F} {op : Op F} {now t : Time}

/-- What the call reads from the clock for the circuit. -/
def reading : Op F → Option Time
  | .build call => some call.clock.builtAt
  | .auto call => some call.clock.builtAt
  | .rotate call => some call.now
  | .maybeAutoRotate now _ => some now
  | .connect _ _ | .resetGuard | .disconnect _ => none

def builds : Op F → Bool
  | .build _ | .auto _ => true
  | .connect _ _ | .rotate _ | .maybeAutoRotate _ _ | .resetGuard | .disconnect _ => false

def polls : Op F → Bool
  | .maybeAutoRotate _ _ => true
  | .connect _ _ | .build _ | .auto _ | .rotate _ | .resetGuard | .disconnect _ => false

/-- A poll is made with the time of the clock. -/
def onTime : Op F → Bool
  | .maybeAutoRotate now call => call.now = now
  | .connect _ _ | .build _ | .auto _ | .rotate _ | .resetGuard | .disconnect _ => true

structure Clocked (ops : List (Op F)) : Prop where
  ordered : (ops.filterMap reading).Pairwise (· ≤ ·)
  wall : ∀ op ∈ ops, onTime op = true

theorem Clocked.front {ops back : List (Op F)} (clocked : Clocked (ops ++ back)) : Clocked ops := by
  obtain ⟨ordered, wall⟩ := clocked
  rw [List.filterMap_append, List.pairwise_append] at ordered
  exact ⟨ordered.1, fun op' member => wall op' (by simp [member])⟩

theorem add_le_of_rotationDue (due : a.rotationDue now = true)
    (fits : a.cfg.rotateMinutes * Duration.minute ≤ Duration.max) :
    a.circuit.active = true ∧ a.circuit.builtAt + a.cfg.rotateMinutes * Duration.minute ≤ now := by
  simp only [App.rotationDue, Bool.and_eq_true, decide_eq_true_eq, Bool.not_eq_true',
    decide_eq_false_iff_not, not_lt] at due
  obtain ⟨⟨⟨_, active⟩, positive⟩, passed⟩ := due
  have some : 0 < a.cfg.rotateMinutes * Duration.minute := by
    unfold Duration.minute
    omega
  rw [Duration.times_eq some.le fits] at passed
  exact ⟨active, Time.add_le_of_le_sub some passed⟩

variable [GoFloatDiff F] {Key Addr Net : Type} (lib : Library F Key Addr Net)

/-- The time of a successful build. -/
def built (a : App F) (op : Op F) : Option Time :=
  if builds op && (op.run lib a).1.isNone then reading op else none

/-- The time of a successful rotation. -/
def rotated (a : App F) (op : Op F) : Option Time :=
  if (op.rotation a).isSome && (op.run lib a).1.isNone then reading op else none

/-- The time of a poll that returns true. -/
def polled (a : App F) (op : Op F) : Option Time := if polls op then rotated lib a op else none

/-- A poll that returns true does so `m` minutes or more after each of the events before it. -/
def Apart (event : App F → Op F → Option Time) (m : ℤ) (visits : List (App F × Op F)) : Prop :=
  visits.Pairwise fun x y => ∀ u ∈ polled lib y.1 y.2, ∀ t ∈ event x.1 x.2,
    t + m * Duration.minute ≤ u

/-- The polls that return true keep `m` minutes from every build and every rotation before them,
those of the other polls included. -/
def Spaced (m : ℤ) (visits : List (App F × Op F)) : Prop :=
  Apart lib (built lib) m visits ∧ Apart lib (rotated lib) m visits

/-- The time at which a call finds what a rotation takes: the interval passed, if it is a poll,
another exit, and an engine that moves to it. -/
def moves (a : App F) (op : Op F) : Option Time := do
  let call ← op.rotation a
  let e ← a.engine
  let next ← (a.nextExit lib.codec call.look).toOption
  if (e.rotateEndpoint next.endpoint call.now call.applied call.rebound).1.isNone then
    some call.now else none

/-- A poll that is due and can be carried out finds a circuit that was built at or after every
rotation before it. -/
def Rebuilt (visits : List (App F × Op F)) : Prop :=
  visits.Pairwise fun x y => polls y.2 = true → (moves lib y.1 y.2).isSome = true →
    ∀ t ∈ moves lib x.1 x.2, t ≤ y.1.circuit.builtAt

variable {lib}

theorem due_of_polled (answered : t ∈ polled lib a op) : a.rotationDue t = true := by
  cases op with
  | maybeAutoRotate now call =>
    obtain ⟨⟨due, _⟩, rfl⟩ : (a.rotationDue now = true ∧ _) ∧ now = t := by
      simpa [polled, polls, rotated, Op.rotation, reading] using answered
    exact due
  | connect | build | auto | rotate | resetGuard | disconnect => cases answered

theorem moves_of_rotateCircuit {call : Rotating F} (rotation : op.rotation a = some call)
    (success : (a.rotateCircuit lib.codec call).1 = none) : moves lib a op = some call.now := by
  rcases rotateCircuit_cases lib.codec a call with
    ⟨⟨err, failed⟩, _⟩ | ⟨e, next, e', wired, planned, moved, _⟩
  · cases failed.symm.trans success
  · simp [moves, rotation, wired, planned, moved, Except.toOption]

theorem moves_of_rotated (onClock : onTime op = true) (success : t ∈ rotated lib a op) :
    moves lib a op = some t := by
  simp only [rotated, Option.mem_def, Option.ite_none_right_eq_some, Bool.and_eq_true,
    Option.isNone_iff_eq_none] at success
  obtain ⟨⟨asked, fine⟩, read⟩ := success
  cases op with
  | rotate call =>
    cases read
    exact moves_of_rotateCircuit rfl fine
  | maybeAutoRotate now call =>
    have due : a.rotationDue now = true := by simpa [Op.rotation] using asked
    have clock : call.now = now := by simpa [onTime] using onClock
    rw [reading, ← clock] at read
    rw [← read]
    refine moves_of_rotateCircuit (by simp [Op.rotation, due]) ?_
    simpa [Op.run, App.maybeAutoRotate, due] using fine
  | connect | build | auto | resetGuard | disconnect => cases asked

theorem of_polled (answered : t ∈ polled lib a op) : polls op = true ∧ t ∈ rotated lib a op := by
  simpa [polled] using answered

theorem reading_of_built (success : t ∈ built lib a op) : reading op = some t := by
  simp only [built, Option.mem_def, Option.ite_none_right_eq_some] at success
  exact success.2

/-- What a call does to the time at which the circuit was built. -/
inductive Timed (lib : Library F Key Addr Net) (a : App F) (op : Op F) (c : Circuit F) : Prop where
  | build : built lib a op = some c.builtAt → c.active = true → Timed lib a op c
  | rotate (now : Time) : built lib a op = none → reading op = some now → c.active = true →
    c.builtAt = (if a.circuit.builtAt = 0 then now else a.circuit.builtAt) → Timed lib a op c
  | same : built lib a op = none → c.active = a.circuit.active → c.builtAt = a.circuit.builtAt →
    Timed lib a op c
  | clear : built lib a op = none → c = .zero → Timed lib a op c

theorem timed_set {path : List (NodeInfo F)} {clock : Clock}
    (success : built lib a op = some clock.builtAt) :
    Timed lib a op (a.setCircuit path clock).circuit := by
  have stamped : (a.setCircuit path clock).circuit.builtAt = clock.builtAt ∧
      (a.setCircuit path clock).circuit.active = true := by
    simp only [App.setCircuit, Circuit.succeed]
    split <;> exact ⟨rfl, rfl⟩
  exact .build (stamped.1 ▸ success) stamped.2

theorem timed_rotateCircuit (call : Rotating F) (unbuilt : built lib a op = none)
    (read : reading op = some call.now) :
    Timed lib a op (a.rotateCircuit lib.codec call).2.circuit := by
  rcases rotateCircuit_cases lib.codec a call with ⟨_, engine, same⟩ | ⟨_, next, _, _, _, _, whole⟩
  · rw [same]
    exact .same unbuilt rfl rfl
  · rw [whole]
    refine .rotate call.now unbuilt read rfl ?_
    simp only [App.commitRotation, Circuit.rotate]
    split <;> rfl

theorem timed_step (onClock : onTime op = true) : Timed lib a op (step lib a op).circuit := by
  cases op with
  | connect call enforced =>
    have same := (connect_frame lib a call enforced).2.2
    exact .same rfl (congrArg Circuit.active same) (congrArg Circuit.builtAt same)
  | build call =>
    simp only [step, Op.run, App.buildCircuitHops]
    split
    · exact .same (by simp [built, Op.run, App.buildCircuitHops, *]) rfl rfl
    · split
      · exact .same (by simp [built, Op.run, App.buildCircuitHops, *]) rfl rfl
      · exact timed_set (by simp [built, builds, reading, Op.run, App.buildCircuitHops, *])
  | auto call =>
    simp only [step, Op.run, App.autoCircuitHops]
    split
    · exact .same (by simp [built, Op.run, App.autoCircuitHops, *]) rfl rfl
    · exact timed_set (by simp [built, builds, reading, Op.run, App.autoCircuitHops, *])
  | rotate call => exact timed_rotateCircuit call rfl rfl
  | maybeAutoRotate now call =>
    simp only [step, Op.run, App.maybeAutoRotate]
    split
    · exact timed_rotateCircuit call rfl (by simpa [reading, onTime, eq_comm] using onClock)
    · exact .same rfl rfl rfl
  | resetGuard => exact .same rfl rfl rfl
  | disconnect call =>
    rcases (disconnect_frame a call).2.2 with same | cleared
    · exact .same rfl (congrArg Circuit.active same) (congrArg Circuit.builtAt same)
    · exact .clear rfl cleared

/-- What the time of the circuit says about the builds so far. -/
structure Kept (lib : Library F Key Addr Net) (cfg : Settings) (visits : List (App F × Op F))
    (a : App F) : Prop where
  cfg : a.cfg = cfg
  idle : a.circuit.active = false → a.circuit.builtAt = 0
  latest : a.circuit.active = true → ∀ x ∈ visits, ∀ t ∈ built lib x.1 x.2, t ≤ a.circuit.builtAt

theorem Kept.snoc {cfg : Settings} {visits : List (App F × Op F)} (kept : Kept lib cfg visits a)
    (onClock : onTime op = true)
    (later : ∀ x ∈ visits, ∀ t ∈ built lib x.1 x.2, ∀ u ∈ reading op, t ≤ u) :
    Kept lib cfg (visits ++ [(a, op)]) (step lib a op) := by
  obtain ⟨same, idle, latest⟩ := kept
  have fixed : (step lib a op).cfg = cfg := (fixed_step lib a op).1.trans same
  -- A call without a build adds nothing to the builds.
  have earlier : built lib a op = none → ∀ x ∈ visits ++ [(a, op)], ∀ t ∈ built lib x.1 x.2,
      x ∈ visits := by
    intro unbuilt x visited t success
    rcases List.mem_append.mp visited with before | last
    · exact before
    · rw [List.mem_singleton.mp last, unbuilt] at success
      cases success
  have timed : Timed lib a op (step lib a op).circuit := timed_step onClock
  cases timed with
  | build stamped active =>
    refine ⟨fixed, by simp [active], fun _ x visited t success => ?_⟩
    rcases List.mem_append.mp visited with before | last
    · exact later x before t success _ (reading_of_built stamped)
    · rw [List.mem_singleton.mp last, stamped] at success
      exact (Option.some.inj success).ge
  | rotate now unbuilt read active stamped =>
    refine ⟨fixed, by simp [active], fun _ x visited t success => ?_⟩
    have before := earlier unbuilt x visited t success
    rw [stamped]
    split
    · exact later x before t success now read
    · next started =>
      have wasActive : a.circuit.active = true :=
        Bool.not_eq_false _ ▸ fun inactive => started (idle inactive)
      exact latest wasActive x before t success
  | same unbuilt active stamped =>
    refine ⟨fixed, fun inactive => stamped.trans (idle (active ▸ inactive)), ?_⟩
    intro stays x visited t success
    rw [stamped]
    exact latest (active ▸ stays) x (earlier unbuilt x visited t success) t success
  | clear unbuilt zero =>
    refine ⟨fixed, fun _ => zero ▸ rfl, fun active => ?_⟩
    rw [zero] at active
    cases active

variable (lib) (cfg : Settings) (provider : Provider F) (engine : Option Tunnel.Engine)

theorem kept_run {ops : List (Op F)} (clocked : Clocked ops) :
    Kept lib cfg (Run.trace (step lib) (newApp cfg provider engine) ops)
      (Run.run (step lib) (newApp cfg provider engine) ops) := by
  induction ops using List.reverseRecOn with
  | nil => exact ⟨rfl, fun _ => rfl, fun active => by cases active⟩
  | append_singleton front op ih =>
    have before := ih clocked.front
    obtain ⟨ordered, wall⟩ := clocked
    rw [List.filterMap_append, List.pairwise_append] at ordered
    rw [Run.trace_snoc, Run.run_snoc]
    refine before.snoc (wall op (by simp)) ?_
    intro x visited t success u read
    obtain ⟨_, _, rfl, _⟩ := Run.mem_trace visited
    refine ordered.2.2 t ?_ u (by simpa using read)
    exact List.mem_filterMap.mpr ⟨x.2, by simp, reading_of_built success⟩

variable {ops : List (Op F)} (clocked : Clocked ops)
include clocked

/-- A poll that returns true finds a circuit that is no older than any build before it. -/
theorem builds_older :
    (Run.trace (step lib) (newApp cfg provider engine) ops).Pairwise fun x y =>
      ∀ u ∈ polled lib y.1 y.2, ∀ t ∈ built lib x.1 x.2, t ≤ y.1.circuit.builtAt := by
  induction ops using List.reverseRecOn with
  | nil => exact .nil
  | append_singleton front op ih =>
    rw [Run.trace_snoc, List.pairwise_append]
    refine ⟨ih clocked.front, List.pairwise_singleton _ _, ?_⟩
    intro x visited y last u answered t success
    rw [List.mem_singleton.mp last] at answered ⊢
    have active : (Run.run (step lib) (newApp cfg provider engine) front).circuit.active =
        true := by
      have due := due_of_polled answered
      simp only [App.rotationDue, Bool.and_eq_true] at due
      exact due.1.1.2
    exact (kept_run lib cfg provider engine clocked.front).latest active x visited t success

/-- What is no newer than the circuit is far enough from a poll that returns true. -/
theorem apart_of_older {event : App F → Op F → Option Time}
    (fits : cfg.rotateMinutes * Duration.minute ≤ Duration.max)
    (older : (Run.trace (step lib) (newApp cfg provider engine) ops).Pairwise fun x y =>
      ∀ u ∈ polled lib y.1 y.2, ∀ t ∈ event x.1 x.2, t ≤ y.1.circuit.builtAt) :
    Apart lib event cfg.rotateMinutes (Run.trace (step lib) (newApp cfg provider engine) ops) := by
  refine older.imp_of_mem fun {x y} _ visited before u answered t happened => ?_
  obtain ⟨front, back, rfl, there⟩ := Run.mem_trace visited
  have same : y.1.cfg = cfg := there ▸ (kept_run lib cfg provider engine clocked.front).cfg
  have passed := (add_le_of_rotationDue (due_of_polled answered) (by rwa [same])).2
  rw [same] at passed
  exact (Int.add_le_add_right (before u answered t happened) _).trans passed

/-- In every run of a client whose calls read the clock in order, the polls that return true keep
`m` minutes from all builds before them; and from all rotations too, if every poll that is due and
can be carried out finds a circuit that was built since. -/
theorem spaced_of_rebuilt (fits : cfg.rotateMinutes * Duration.minute ≤ Duration.max) :
    let visits := Run.trace (step lib) (newApp cfg provider engine) ops
    Apart lib (built lib) cfg.rotateMinutes visits ∧
      (Rebuilt lib visits → Spaced lib cfg.rotateMinutes visits) := by
  have builds := apart_of_older lib cfg provider engine clocked fits
    (builds_older lib cfg provider engine clocked)
  refine ⟨builds, fun rebuilt => ⟨builds, ?_⟩⟩
  refine apart_of_older lib cfg provider engine clocked fits ?_
  refine rebuilt.imp_of_mem fun {x y} first second found u answered t happened => ?_
  obtain ⟨polling, rotates⟩ := of_polled answered
  have wall : ∀ z ∈ Run.trace (step lib) (newApp cfg provider engine) ops, onTime z.2 = true := by
    intro z visited
    obtain ⟨front, back, whole, _⟩ := Run.mem_trace visited
    exact clocked.wall z.2 (by simp [whole])
  refine found polling ?_ t (moves_of_rotated (wall x first) happened)
  rw [moves_of_rotated (wall y second) rotates]
  rfl

end times

section instances

def someBuild (now : Time) : Op ℚ := .build ⟨["a"], fun _ => unobserved, ⟨now, now⟩⟩

def pollAt (now : Time) : Op ℚ := .maybeAutoRotate now (rotatingAt now)

/-- Ten minutes after the build, at `due`, a poll rotates the circuit. -/
def due : Time := 4 + 10 * Duration.minute

def visits (ops : List (Op ℚ)) : List (App ℚ × Op ℚ) :=
  Run.trace (step (.plain ℚ)) (someApp ["a", "b"]) ops

/-- The circuit is rotated, built again, and rotated ten minutes after that. -/
def rebuiltBetween : List (Op ℚ) :=
  [someConnect "a", someBuild 4, pollAt due, someBuild (due + 1), pollAt (due + due)]

theorem rebuiltBetween_spaced :
    (visits rebuiltBetween).map (fun x => polled (.plain ℚ) x.1 x.2) =
        [none, none, some due, none, some (due + due)] ∧
      Spaced (.plain ℚ) 10 (visits rebuiltBetween) :=
  ⟨by decide, (spaced_of_rebuilt (.plain ℚ) someSettings _ _
    ⟨by decide, by decide⟩ (by decide)).2 (by unfold Rebuilt; decide)⟩

/-- The poll one nanosecond later rotates it again. -/
theorem nextPoll_notSpaced :
    let ops := [someConnect "a", someBuild 4, pollAt due, pollAt (due + 1)]
    Clocked ops ∧ (visits ops).map (fun x => polled (.plain ℚ) x.1 x.2) =
        [none, none, some due, some (due + 1)] ∧
      ¬ Spaced (.plain ℚ) 10 (visits ops) :=
  ⟨⟨by decide, by decide⟩, by decide, by unfold Spaced Apart; decide⟩

end instances

end VeilNet.Guarantees.RotationInterval
