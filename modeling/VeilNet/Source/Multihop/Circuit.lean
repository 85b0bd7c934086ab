import VeilNet.Source.Multihop.Route

/-!
Circuits and the rotator that holds one: `internal/multihop/circuit.go` and `rotator.go`. The
rotator's callback runs after the change and is left out; calls are taken one by one.
-/
namespace VeilNet.Source.Multihop
open Lib

structure Circuit (F : Type) where
  id : String
  hops : ℤ
  entry : NodeInfo F
  middle : NodeInfo F
  exit : NodeInfo F
  createdAt : Time

structure RotationRecord where
  rotatedAt : Time
  oldEntry : String
  newEntry : String
  exitKept : String
  reason : String

structure Rotator (F : Type) where
  current : Circuit F
  history : List RotationRecord

section circuits
variable {F : Type}

def Circuit.nodes (c : Option (Circuit F)) : List (NodeInfo F) :=
  match c with
  | none => []
  | some c =>
    if c.hops = 3 then [c.entry, c.middle, c.exit]
    else if c.hops = 1 then [c.exit]
    else [c.entry, c.exit]

def Circuit.verify (codec : Codec) (c : Option (Circuit F)) : Except (Error F) Unit :=
  match c with
  | none => .error .nilCircuit
  | some c => do
    Outcome.refuseIf (c.id = "") .circuitIDEmpty
    if c.hops = 1 then
      Outcome.refuseIf (c.entry.nodeID = "" ∨ c.exit.nodeID = "") .singleHopMissingNode
      c.exit.validate.mapError .singleHopExitInvalid
    else if c.hops = 2 then
      c.entry.validate.mapError .entryInvalid
      c.exit.validate.mapError .exitInvalid
      checkDistinct codec [c.entry, c.exit]
    else if c.hops = 3 then
      c.entry.validate.mapError .entryInvalid
      c.middle.validate.mapError .middleInvalid
      c.exit.validate.mapError .exitInvalid
      checkDistinct codec [c.entry, c.middle, c.exit]
    else .error (.unsupportedHops c.hops)

def newRotator (codec : Codec) (initial : Option (Circuit F)) : Except (Error F) (Rotator F) :=
  match initial with
  | none => .error .noInitialCircuit
  | some c => do
    Circuit.verify codec (some c)
    .ok ⟨c, []⟩

/-- The end of each rotation: the new circuit is verified and takes its place. -/
def Rotator.commit (codec : Codec) (rot : Rotator F) (rotatedAt : Time) (keepsExit : Bool)
    (reason : String) (built : Except (Error F) (Circuit F)) :
    Except (Error F) (Circuit F) × Rotator F :=
  match built with
  | .error e => (.error e, rot)
  | .ok next =>
    match Circuit.verify codec (some next) with
    | .error e => (.error e, rot)
    | .ok () =>
      (.ok next,
        ⟨next, rot.history ++
          [⟨rotatedAt, rot.current.entry.nodeID, next.entry.nodeID,
            if keepsExit then next.exit.nodeID else "", reason⟩]⟩)

variable [GoFloat F]

def NodeInfo.zero : NodeInfo F := ⟨"", "", "", "", GoFloat.ofInt 0, GoFloat.ofInt 0⟩

def buildSingleHop (stamp : Stamp) (node : NodeInfo F) : Except (Error F) (Circuit F) := do
  node.validate.mapError .node
  .ok ⟨newID stamp, 1, node, .zero, node, stamp.now⟩

def buildTwoHop (codec : Codec) (stamp : Stamp) (entry exit : NodeInfo F) :
    Except (Error F) (Circuit F) := do
  entry.validate.mapError .badEntry
  exit.validate.mapError .badExit
  checkDistinct codec [entry, exit]
  .ok ⟨newID stamp, 2, entry, .zero, exit, stamp.now⟩

def buildThreeHopCircuit (codec : Codec) (stamp : Stamp) (entry middle exit : NodeInfo F) :
    Except (Error F) (Circuit F) := do
  entry.validate.mapError .badEntry
  middle.validate.mapError .badMiddle
  exit.validate.mapError .badExit
  checkDistinct codec [entry, middle, exit]
  .ok ⟨newID stamp, 3, entry, middle, exit, stamp.now⟩

def Circuit.toRoute (codec : Codec) (stamp : Stamp) (c : Option (Circuit F)) :
    Except (Error F) (Route F) :=
  match c with
  | none => .error .nilCircuit
  | some c => buildRoute codec stamp (Circuit.nodes (some c)) .zero

namespace Rotator
variable (codec : Codec) (stamp : Stamp) (rotatedAt : Time) (rot : Rotator F)

def rotateEntry (newEntry : NodeInfo F) (reason : String) :
    Except (Error F) (Circuit F) × Rotator F :=
  match newEntry.validate with
  | .error e => (.error (.node e), rot)
  | .ok () =>
    rot.commit codec rotatedAt true reason
      (if rot.current.hops = 1 then buildSingleHop stamp newEntry
      else if rot.current.hops = 3 then
        buildThreeHopCircuit codec stamp newEntry rot.current.middle rot.current.exit
      else if newEntry.nodeID = rot.current.exit.nodeID then .error .entryIsExit
      else buildTwoHop codec stamp newEntry rot.current.exit)

def rotateExit (newExit : NodeInfo F) (reason : String) :
    Except (Error F) (Circuit F) × Rotator F :=
  match newExit.validate with
  | .error e => (.error (.node e), rot)
  | .ok () =>
    rot.commit codec rotatedAt false reason
      (if rot.current.hops = 1 then buildSingleHop stamp newExit
      else if rot.current.hops = 3 then
        buildThreeHopCircuit codec stamp rot.current.entry rot.current.middle newExit
      else buildTwoHop codec stamp rot.current.entry newExit)

def rotateDownstream (newMiddle newExit : NodeInfo F) (reason : String) :
    Except (Error F) (Circuit F) × Rotator F :=
  if rot.current.hops ≠ 3 then (.error .downstreamNeedsThreeHopCircuit, rot)
  else
    rot.commit codec rotatedAt false reason
      (buildThreeHopCircuit codec stamp rot.current.entry newMiddle newExit)

end Rotator

end circuits

section specs
variable {F : Type} {codec : Codec}

theorem verify_newRotator {initial : Option (Circuit F)} {rot : Rotator F}
    (made : newRotator codec initial = .ok rot) :
    Circuit.verify codec (some rot.current) = .ok () := by
  unfold newRotator at made
  split at made
  · cases made
  · obtain ⟨_, verified, made⟩ := Outcome.of_bind_ok made
    cases made
    exact verified

theorem commit_current (rot : Rotator F) (rotatedAt : Time) (keepsExit : Bool) (reason : String)
    (built : Except (Error F) (Circuit F)) :
    (rot.commit codec rotatedAt keepsExit reason built).2.current = rot.current ∨
      Circuit.verify codec
        (some (rot.commit codec rotatedAt keepsExit reason built).2.current) = .ok () := by
  unfold Rotator.commit
  split
  · exact .inl rfl
  · split
    · exact .inl rfl
    · next verified => exact .inr verified

theorem apart_of_verify {c : Circuit F} (verified : Circuit.verify codec (some c) = .ok ())
    (several : c.hops = 2 ∨ c.hops = 3) :
    (∀ n ∈ Circuit.nodes (some c), n.Dialable) ∧
      (Circuit.nodes (some c)).Pairwise (Apart codec) := by
  have dialable : ∀ {n : NodeInfo F} {wrap : NodeError → Error F} {u : Unit},
      n.validate.mapError wrap = .ok u → n.Dialable := fun valid =>
    NodeInfo.validate_ok_iff.mp (Outcome.of_mapError_ok valid)
  obtain ⟨_, _, verified⟩ := Outcome.of_bind_ok verified
  rcases several with two | three
  · have nodes : Circuit.nodes (some c) = [c.entry, c.exit] := by simp [Circuit.nodes, two]
    rw [if_neg (by omega), if_pos two] at verified
    obtain ⟨_, entry, verified⟩ := Outcome.of_bind_ok verified
    obtain ⟨_, exit, distinct⟩ := Outcome.of_bind_ok verified
    rw [nodes]
    exact ⟨by simp [dialable entry, dialable exit], checkDistinct_ok_iff.mp distinct⟩
  · have nodes : Circuit.nodes (some c) = [c.entry, c.middle, c.exit] := by
      simp [Circuit.nodes, three]
    rw [if_neg (by omega), if_neg (by omega), if_pos three] at verified
    obtain ⟨_, entry, verified⟩ := Outcome.of_bind_ok verified
    obtain ⟨_, middle, verified⟩ := Outcome.of_bind_ok verified
    obtain ⟨_, exit, distinct⟩ := Outcome.of_bind_ok verified
    rw [nodes]
    exact ⟨by simp [dialable entry, dialable middle, dialable exit],
      checkDistinct_ok_iff.mp distinct⟩

/-- What `BuildTwoHop` accepts; its stamp does not matter. -/
theorem exists_buildTwoHop_iff [GoFloat F] {stamp : Stamp} {entry exit : NodeInfo F} :
    (∃ c, buildTwoHop codec stamp entry exit = .ok c) ↔
      entry.Dialable ∧ exit.Dialable ∧ Apart codec entry exit := by
  have valid : ∀ {n : NodeInfo F} {wrap : NodeError → Error F},
      n.validate.mapError wrap = .ok () ↔ n.Dialable := by
    intro n wrap
    rw [← NodeInfo.validate_ok_iff]
    exact ⟨Outcome.of_mapError_ok, fun valid => by rw [valid]; rfl⟩
  have distinct : checkDistinct codec [entry, exit] = .ok () ↔ Apart codec entry exit := by
    rw [checkDistinct_ok_iff, List.pairwise_pair]
  simp only [buildTwoHop, Outcome.bind_ok_iff, valid, distinct, exists_const]
  constructor
  · intro built
    obtain ⟨_, entryValid, exitValid, apart, _⟩ := built
    exact ⟨entryValid, exitValid, apart⟩
  · intro parts
    obtain ⟨entryValid, exitValid, apart⟩ := parts
    exact ⟨_, entryValid, exitValid, apart, rfl⟩

end specs

end VeilNet.Source.Multihop
