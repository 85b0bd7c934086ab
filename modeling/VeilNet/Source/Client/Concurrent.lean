import VeilNet.Source.Client.Effects
import VeilNet.Lib.Threads

/-!
`BuildCircuitHops`, `AutoCircuitHops` and `RotateCircuit` as tasks. Each section under `a.mu` is
one step, with the local work that follows it; so is the engine's `RotateEndpoint`. Provider and
settings stay as they are.

The copy of the circuit in `RotateCircuit` shares its slices: a rotation that commits meanwhile
overwrites its last hop too. What stands there when it is read is part of the call.
-/
namespace VeilNet.Source.Client
open Lib Source

/-- A call of `RotateCircuit`; `late` is the last hop of its copy, if it was overwritten. -/
structure Rotation (F : Type) extends Rotating F where
  late : Option String

inductive Call (F : Type) where
  | build (call : Building F)
  | auto (call : AutoBuilding F)
  | rotate (call : Rotation F)

/-- What is left of a call. A rotation keeps the hops that it has read. -/
inductive Running (F : Type) where
  | pending (call : Call F)
  | setting (path : List (NodeInfo F)) (clock : Clock)
  | planning (call : Rotation F) (hops : List String)
  | moving (call : Rotation F) (hops : List String) (next : NodeInfo F)
  | committing (call : Rotation F) (hops : List String) (next : NodeInfo F)
  | finished (err : Option (Error F))

/-- The hops of the copy as they are read. -/
def lateHops (hops : List String) : Option String → List String
  | none => hops
  | some last => if hops = [] then [] else hops.dropLast ++ [last]

theorem dropLast_lateHops (hops : List String) (late : Option String) :
    (lateHops hops late).dropLast = hops.dropLast := by
  cases late with
  | none => rfl
  | some last =>
    simp only [lateHops]
    split
    · next empty => rw [empty]
    · exact List.dropLast_concat

section tasks
variable {F : Type} [GoFloatDiff F] (codec : Multihop.Codec)

/-- A path that is ready to be recorded. -/
def Running.ofPlan (clock : Clock) : Except (Error F) (List (NodeInfo F)) → Running F
  | .error err => .finished (some err)
  | .ok path => .setting path clock

def Running.next (a : App F) : Running F → App F × Running F
  | .pending (.build call) =>
    (a, if a.node.isNone then .finished (some .notLive)
      else .ofPlan call.clock (planHops codec a.nodes call))
  | .pending (.auto call) => (a, .ofPlan call.clock (planAuto codec a.cfg a.nodes a.currentID call))
  | .pending (.rotate call) =>
    (a, if a.engine.isNone then .finished (some .noEngine) else .planning call a.circuit.hops)
  | .setting path clock => (a.setCircuit path clock, .finished none)
  | .planning call hops =>
    (a, match planRotation codec a.cfg a.nodes (lateHops hops call.late) a.node.isSome call.look
      with
      | .error err => .finished (some err)
      | .ok next => .moving call hops next)
  | .moving call hops next =>
    match a.engine with
    | none => (a, .finished (some .noEngine))
    | some e =>
      match e.rotateEndpoint next.endpoint call.now call.applied call.rebound with
      | (some err, e) => ({ a with engine := some e }, .finished (some (.engine err)))
      | (none, e) => ({ a with engine := some e }, .committing call hops next)
  | .committing call _ next => (a.commitRotation next call.now, .finished none)
  | .finished err => (a, .finished err)

abbrev Pool (F : Type) := Threads.Pool (App F) (Running F)

def pass : Pool F → ℕ → Pool F := Threads.step (Running.next codec)

/-- The calls before any of them has begun. -/
def start (a : App F) (calls : List (Call F)) : Pool F := ⟨a, calls.map .pending⟩

/-- `RotateCircuit` with nothing between its sections is the sequential one. -/
theorem solo_rotate (a : App F) (call : Rotation F) (read : call.late = none) :
    (Run.run (pass codec) (start a [.rotate call]) [0, 0, 0, 0]).shared =
      (a.rotateCircuit codec call.toRotating).2 := by
  cases wired : a.engine with
  | none => simp [pass, start, Threads.step, Running.next, App.rotateCircuit, wired]
  | some e =>
    cases planned : a.nextExit codec call.look with
    | error err =>
      have plan := planned
      rw [App.nextExit] at plan
      simp [pass, start, Threads.step, Running.next, App.rotateCircuit, wired, planned, read,
        lateHops, plan]
    | ok next =>
      have plan := planned
      rw [App.nextExit] at plan
      cases moved : e.rotateEndpoint next.endpoint call.now call.applied call.rebound with
      | mk err e' =>
        cases err <;>
          simp [pass, start, Threads.step, Running.next, App.rotateCircuit, wired, planned, read,
            lateHops, plan, moved]

/-- `BuildCircuitHops` with nothing between its sections is the sequential one. -/
theorem solo_build (a : App F) (call : Building F) :
    (Run.run (pass codec) (start a [.build call]) [0, 0]).shared =
      (a.buildCircuitHops codec call).2 := by
  cases shown : a.node with
  | none => simp [pass, start, Threads.step, Running.next, App.buildCircuitHops, shown]
  | some n =>
    cases planned : planHops codec a.nodes call <;>
      simp [pass, start, Threads.step, Running.next, Running.ofPlan, App.buildCircuitHops, shown,
        planned]

/-- `AutoCircuitHops` with nothing between its sections is the sequential one. -/
theorem solo_auto (a : App F) (call : AutoBuilding F) :
    (Run.run (pass codec) (start a [.auto call]) [0, 0]).shared =
      (a.autoCircuitHops codec call).2 := by
  cases planned : planAuto codec a.cfg a.nodes a.currentID call <;>
    simp [pass, start, Threads.step, Running.next, Running.ofPlan, App.autoCircuitHops, planned]

/-- What a task has checked: a path to record, or a fresh exit behind the hops it has read. -/
def Running.Checked (codec : Multihop.Codec) (provider : Provider F) : Running F → Prop
  | .setting path _ => Sound codec provider path
  | .moving _ hops next | .committing _ hops next =>
    ∃ kept : List (NodeInfo F), kept.map NodeInfo.nodeID = hops.dropLast ∧
      Sound codec provider (kept ++ [next])
  | .pending _ | .planning _ _ | .finished _ => True

theorem Running.next_checked {codec : Multihop.Codec} (a : App F) {t : Running F}
    (checked : t.Checked codec a.nodes) : (t.next codec a).2.Checked codec a.nodes := by
  cases t with
  | pending call =>
    cases call with
    | build call =>
      simp only [Running.next]
      split
      · trivial
      · cases planned : planHops codec a.nodes call with
        | error err => trivial
        | ok path => exact sound_of_planHops planned
    | auto call =>
      simp only [Running.next]
      cases planned : planAuto codec a.cfg a.nodes a.currentID call with
      | error err => trivial
      | ok path => exact sound_of_planAuto planned
    | rotate call =>
      simp only [Running.next]
      split <;> trivial
  | setting path clock => trivial
  | planning call hops =>
    simp only [Running.next]
    split
    · trivial
    · next next planned =>
      obtain ⟨_, kept, names, sound⟩ := of_planRotation planned
      exact ⟨kept, names.trans (dropLast_lateHops hops call.late), sound⟩
  | moving call hops next =>
    simp only [Running.next]
    split
    · trivial
    · split
      · trivial
      · exact checked
  | committing call hops next => trivial
  | finished err => trivial

/-- What a step of a task does to the app: nothing but to the engine, or it records the path
or the exit that the task has checked. -/
theorem Running.next_cases (codec : Multihop.Codec) (a : App F) (t : Running F) :
    (∃ engine, (t.next codec a).1 = { a with engine }) ∨
      (∃ path clock, t = .setting path clock ∧ (t.next codec a).1 = a.setCircuit path clock) ∨
      ∃ call hops next, t = .committing call hops next ∧
        (t.next codec a).1 = a.commitRotation next call.now := by
  cases t with
  | pending call => cases call <;> exact .inl ⟨a.engine, rfl⟩
  | setting path clock => exact .inr (.inl ⟨path, clock, rfl, rfl⟩)
  | planning call hops => exact .inl ⟨a.engine, rfl⟩
  | moving call hops next =>
    refine .inl ?_
    simp only [Running.next]
    split
    · exact ⟨a.engine, rfl⟩
    · split <;> exact ⟨_, rfl⟩
  | committing call hops next => exact .inr (.inr ⟨call, hops, next, rfl, rfl⟩)
  | finished err => exact .inl ⟨a.engine, rfl⟩

end tasks

end VeilNet.Source.Client
