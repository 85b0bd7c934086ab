import VeilNet.Source.Multihop.Circuit
import VeilNet.Guarantees.RouteSelection

/-!
# The pair that `PickPair` picks

`PickPair` answers whenever two candidates are usable, and takes the two that are ranked
best. It does not ask whether these are separated, as `BuildTwoHop` does.
-/
namespace VeilNet.Guarantees.PairSelection
open Lib Source.Multihop
open Guarantees.RouteSelection (someCandidate apartPool)

section picks
variable {F : Type} [GoFloatDiff F]

def Sound (codec : Codec) (stamp : Stamp) (picked : Option (Candidate F × Candidate F)) : Prop :=
  ∀ entry exit, picked = some (entry, exit) →
    ∃ c, buildTwoHop codec stamp entry.toNodeInfo exit.toNodeInfo = .ok c

/-- Two valid candidates with distinct IDs, hosts and operator keys. -/
def SomeSeparated (codec : Codec) (cands : List (Candidate F)) : Prop :=
  ∃ n ∈ cands, ∃ m ∈ cands, n.Dialable ∧ m.Dialable ∧ Apart codec n.toNodeInfo m.toNodeInfo

/-- The two usable candidates that are ranked best, if there are two, are separated. -/
def BestSeparated (codec : Codec) (sorter : GoSort (Candidate F)) (a : Aggregator F)
    (cands : List (Candidate F)) : Prop :=
  ∀ entry exit rest, validCandidates (a.rank sorter cands) = entry :: exit :: rest →
    Apart codec entry.toNodeInfo exit.toNodeInfo

/-- `PickPair` answers whenever two valid candidates are separated. `BuildTwoHop` accepts
its answer exactly when the two best-ranked usable candidates are separated. -/
theorem pickPair_builds_iff (codec : Codec) (sorter : GoSort (Candidate F)) (stamp : Stamp)
    (a : Aggregator F) (cands : List (Candidate F)) :
    (SomeSeparated codec cands → (a.pickPair sorter cands).isSome = true) ∧
      (Sound codec stamp (a.pickPair sorter cands) ↔ BestSeparated codec sorter a cands) := by
  refine ⟨fun separated => ?_, fun sound => ?_, fun best => ?_⟩
  · obtain ⟨n, inCands, m, inCands', dialable, dialable', apart⟩ := separated
    apply isSome_pickPair inCands inCands' dialable dialable'
    intro same
    exact apart.id (congrArg (fun c : Candidate F => c.nodeID) same)
  · intro entry exit rest usable
    have built := sound entry exit (pickPair_eq_some_iff.mpr ⟨rest, usable⟩)
    exact (exists_buildTwoHop_iff.mp built).2.2
  · intro entry exit picked
    obtain ⟨rest, usable⟩ := pickPair_eq_some_iff.mp picked
    have dialable : ∀ n ∈ validCandidates (a.rank sorter cands), n.Dialable :=
      fun n member => (mem_validCandidates.mp member).2
    rw [usable] at dialable
    apply exists_buildTwoHop_iff.mpr
    refine ⟨dialable entry ?_, dialable exit ?_, best entry exit rest usable⟩
    · exact List.mem_cons_self
    · exact List.mem_cons_of_mem entry List.mem_cons_self

end picks

section sample

/-- Of candidates that are all separated the best two are. -/
theorem apartPool_sound :
    Sound plainCodec someStamp ((newAggregator ℚ).pickPair GoSort.insertion apartPool) := by
  apply (pickPair_builds_iff plainCodec GoSort.insertion someStamp
    (newAggregator ℚ) apartPool).2.mpr
  intro entry exit rest usable
  have ranked : validCandidates ((newAggregator ℚ).rank GoSort.insertion apartPool) =
      apartPool := by
    decide +kernel
  rw [ranked] at usable
  cases usable
  exact ⟨by decide, by decide, fun _ => by decide⟩

/-- The two that are ranked best share a host. -/
def sharedHost : List (Candidate ℚ) :=
  [someCandidate "a" "k" "h" 10, someCandidate "b" "l" "h" 20, someCandidate "c" "m" "i" 30]

/-- A separated pair is there, and the pair that is picked cannot be built. -/
theorem sharedHost_not_sound :
    SomeSeparated plainCodec sharedHost ∧
      ¬ Sound plainCodec someStamp ((newAggregator ℚ).pickPair GoSort.insertion sharedHost) := by
  constructor
  · refine ⟨someCandidate "a" "k" "h" 10, by decide, someCandidate "c" "m" "i" 30,
      by decide, ⟨by decide, by decide, by decide⟩, ⟨by decide, by decide, by decide⟩, ?_⟩
    exact ⟨by decide, by decide, fun _ => by decide⟩
  · intro sound
    have built := sound (someCandidate "a" "k" "h" 10) (someCandidate "b" "l" "h" 20)
      (by decide +kernel)
    exact (exists_buildTwoHop_iff.mp built).2.2.host (by decide)

end sample

end VeilNet.Guarantees.PairSelection
