import VeilNet.Source.Multihop.Circuit
import VeilNet.Lib.Threads

/-!
The rotations of `internal/multihop/rotator.go` as tasks. `RotateEntry` and `RotateExit` work
under one lock; `RotateDownstream` releases it between reading and replacing. Each section under
the lock is one step, with the local work that follows it, and so is the callback.
-/
namespace VeilNet.Source.Multihop
open Lib

/-- What is left of a rotation. `replace` is the second section of `RotateDownstream`,
with the circuit it read and the one it built and verified. -/
inductive Rotation (F : Type) where
  | entry (stamp : Stamp) (rotatedAt : Time) (newEntry : NodeInfo F) (reason : String)
  | exit (stamp : Stamp) (rotatedAt : Time) (newExit : NodeInfo F) (reason : String)
  | downstream (stamp : Stamp) (rotatedAt : Time) (newMiddle newExit : NodeInfo F)
      (reason : String)
  | replace (rotatedAt : Time) (reason : String) (old next : Circuit F)
  | callback (old next : Circuit F)
  | done (result : Except (Error F) (Circuit F))

/-- The rotator, and the calls `onRotated(old, next)` made so far. -/
structure Rotating (F : Type) where
  rotator : Rotator F
  rotated : List (Circuit F × Circuit F)

section tasks
variable {F : Type} [GoFloat F] (codec : Codec)

/-- A rotation under one lock: on success the callback is left. -/
def Rotating.after (g : Rotating F) (outcome : Except (Error F) (Circuit F) × Rotator F) :
    Rotating F × Rotation F :=
  ({ g with rotator := outcome.2 },
    match outcome.1 with
    | .error e => .done (.error e)
    | .ok next => .callback g.rotator.current next)

def Rotation.next (g : Rotating F) : Rotation F → Rotating F × Rotation F
  | .entry stamp rotatedAt newEntry reason =>
    g.after (g.rotator.rotateEntry codec stamp rotatedAt newEntry reason)
  | .exit stamp rotatedAt newExit reason =>
    g.after (g.rotator.rotateExit codec stamp rotatedAt newExit reason)
  | .downstream stamp rotatedAt newMiddle newExit reason =>
    let old := g.rotator.current
    if old.hops ≠ 3 then (g, .done (.error .downstreamNeedsThreeHopCircuit))
    else
      (g, match buildThreeHopCircuit codec stamp old.entry newMiddle newExit with
        | .error e => .done (.error e)
        | .ok next =>
          match Circuit.verify codec (some next) with
          | .error e => .done (.error e)
          | .ok () => .replace rotatedAt reason old next)
  | .replace rotatedAt reason old next =>
    ({ g with rotator := ⟨next, g.rotator.history ++
        [⟨rotatedAt, old.entry.nodeID, next.entry.nodeID, "", reason⟩]⟩ },
      .callback old next)
  | .callback old next => ({ g with rotated := g.rotated ++ [(old, next)] }, .done (.ok next))
  | .done result => (g, .done result)

/-- Between the two sections of `RotateDownstream`. -/
def Rotation.pending : Rotation F → Bool
  | .replace .. => true
  | .entry .. | .exit .. | .downstream .. | .callback .. | .done _ => false

def Rotation.fresh : Rotation F → Bool
  | .entry .. | .exit .. | .downstream .. => true
  | .replace .. | .callback .. | .done _ => false

/-- `RotateDownstream` with nothing between its sections is the sequential one. -/
theorem solo_rotateDownstream (g : Rotating F) (stamp : Stamp) (rotatedAt : Time)
    (newMiddle newExit : NodeInfo F) (reason : String) :
    let outcome := g.rotator.rotateDownstream codec stamp rotatedAt newMiddle newExit reason
    Run.run (Threads.step (Rotation.next codec))
        ⟨g, [.downstream stamp rotatedAt newMiddle newExit reason]⟩ [0, 0] =
      ⟨(g.after outcome).1, [(g.after outcome).2]⟩ := by
  intro outcome
  rw [Run.run_cons, Threads.step_single, Rotation.next]
  simp only [outcome, Rotator.rotateDownstream, Rotator.commit, Rotating.after]
  split
  · rfl
  · cases buildThreeHopCircuit codec stamp g.rotator.current.entry newMiddle newExit with
    | error e => rfl
    | ok next => cases verified : Circuit.verify codec (some next) <;> simp only [verified] <;> rfl

end tasks

section specs
variable {F : Type} {codec : Codec}

/-- A rotation fails and changes nothing, or it installs what was built. -/
theorem commit_cases (codec : Codec) (rot : Rotator F) (rotatedAt : Time) (keepsExit : Bool)
    (reason : String) (built : Except (Error F) (Circuit F)) :
    (∃ e, rot.commit codec rotatedAt keepsExit reason built = (.error e, rot)) ∨
    ∃ next record, built = .ok next ∧ record.oldEntry = rot.current.entry.nodeID ∧
      rot.commit codec rotatedAt keepsExit reason built =
        (.ok next, ⟨next, rot.history ++ [record]⟩) := by
  unfold Rotator.commit
  split
  · next e => exact .inl ⟨e, rfl⟩
  · next next =>
    split
    · next e _ => exact .inl ⟨e, rfl⟩
    · exact .inr ⟨next, _, rfl, rfl, rfl⟩

variable {stamp : Stamp} {c : Circuit F}

theorem nodes_buildThreeHopCircuit {entry middle exit : NodeInfo F}
    (built : buildThreeHopCircuit codec stamp entry middle exit = .ok c) :
    Circuit.nodes (some c) = [entry, middle, exit] := by
  obtain ⟨_, _, built⟩ := Outcome.of_bind_ok built
  obtain ⟨_, _, built⟩ := Outcome.of_bind_ok built
  obtain ⟨_, _, built⟩ := Outcome.of_bind_ok built
  obtain ⟨_, _, built⟩ := Outcome.of_bind_ok built
  cases built
  rfl

variable [GoFloat F]

theorem nodes_buildSingleHop {node : NodeInfo F}
    (built : buildSingleHop stamp node = .ok c) : Circuit.nodes (some c) = [node] := by
  obtain ⟨_, _, built⟩ := Outcome.of_bind_ok built
  cases built
  rfl

theorem nodes_buildTwoHop {entry exit : NodeInfo F}
    (built : buildTwoHop codec stamp entry exit = .ok c) :
    Circuit.nodes (some c) = [entry, exit] := by
  obtain ⟨_, _, built⟩ := Outcome.of_bind_ok built
  obtain ⟨_, _, built⟩ := Outcome.of_bind_ok built
  obtain ⟨_, _, built⟩ := Outcome.of_bind_ok built
  cases built
  rfl

theorem rotateEntry_cases (codec : Codec) (stamp : Stamp) (rotatedAt : Time) (rot : Rotator F)
    (newEntry : NodeInfo F) (reason : String) :
    (∃ e, rot.rotateEntry codec stamp rotatedAt newEntry reason = (.error e, rot)) ∨
    ∃ next record, newEntry.validate = .ok () ∧ record.oldEntry = rot.current.entry.nodeID ∧
      (Circuit.nodes (some next)).tail = (Circuit.nodes (some rot.current)).tail ∧
      rot.rotateEntry codec stamp rotatedAt newEntry reason =
        (.ok next, ⟨next, rot.history ++ [record]⟩) := by
  unfold Rotator.rotateEntry
  split
  · exact .inl ⟨_, rfl⟩
  · next valid =>
    apply (commit_cases codec rot rotatedAt true reason _).imp_right
    rintro ⟨next, record, built, replaced, committed⟩
    refine ⟨next, record, valid, replaced, ?_, committed⟩
    split at built
    · next one => rw [nodes_buildSingleHop built, Circuit.nodes, one]; rfl
    · split at built
      · next three => rw [nodes_buildThreeHopCircuit built, Circuit.nodes, if_pos three]; rfl
      · next one three =>
        split at built
        · cases built
        · rw [nodes_buildTwoHop built, Circuit.nodes, if_neg three, if_neg one]
          rfl

/-- Another exit: the hops before it stay, whatever their number. -/
theorem rotateExit_cases (codec : Codec) (stamp : Stamp) (rotatedAt : Time) (rot : Rotator F)
    (newExit : NodeInfo F) (reason : String) :
    (∃ e, rot.rotateExit codec stamp rotatedAt newExit reason = (.error e, rot)) ∨
    ∃ next record, newExit.validate = .ok () ∧ record.oldEntry = rot.current.entry.nodeID ∧
      (Circuit.nodes (some next)).dropLast = (Circuit.nodes (some rot.current)).dropLast ∧
      rot.rotateExit codec stamp rotatedAt newExit reason =
        (.ok next, ⟨next, rot.history ++ [record]⟩) := by
  unfold Rotator.rotateExit
  split
  · exact .inl ⟨_, rfl⟩
  · next valid =>
    apply (commit_cases codec rot rotatedAt false reason _).imp_right
    rintro ⟨next, record, built, replaced, committed⟩
    refine ⟨next, record, valid, replaced, ?_, committed⟩
    split at built
    · next one => rw [nodes_buildSingleHop built, Circuit.nodes, one]; rfl
    · split at built
      · next three => rw [nodes_buildThreeHopCircuit built, Circuit.nodes, if_pos three]; rfl
      · next one three =>
        rw [nodes_buildTwoHop built, Circuit.nodes, if_neg three, if_neg one]
        rfl

end specs

end VeilNet.Source.Multihop
