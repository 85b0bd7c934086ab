import VeilNet.Guarantees.ContractBalances
import VeilNet.Lib.LastSeen

/-!
# Replays of `RecordSettlementIdem`

The entrypoint remembers one batch ID per node: a replay right after the batch is acknowledged
without counting, one after another batch is counted again. So the settled total is that over the
distinct batch IDs exactly when no weight comes back that way.
-/
namespace VeilNet.Guarantees.SettlementReplay
open Lib Source.Contract Guarantees.ContractSafety

/-- The arguments that vary along a sequence of invocations for one node. The
total is not among them: it is a function of the batch ID. -/
structure Submission where
  signer : String
  count : UInt64
  batchID : String

def Submission.invocation (id : String) (totalOf : String → UInt64) (c : Submission) : Invocation :=
  ⟨c.signer, .recordSettlementIdem id (totalOf c.batchID) c.count c.batchID⟩

/-- The signer is the node's operator or the contract owner in storage `s`. -/
def Authorised (s : Storage) (id signer : String) : Prop :=
  s (nodeKey id .owner) = some (.string signer) ∨ s ownerKey = some (.string signer)

def lastBatch (s : Storage) (id : String) : Option String :=
  match s (nodeKey id .lastbatch) with
  | some (.string batchID) => some batchID
  | _ => none

/-- The addition on lines 72 and 74 does not overflow when it is reached. -/
def Fits (id : String) (totalOf : String → UInt64) (s : Storage) (c : Submission) : Prop :=
  lastBatch s id ≠ some c.batchID →
    uintAt s (nodeKey id .settled) + (totalOf c.batchID).toNat < 2 ^ 64

instance (s : Storage) (id signer : String) : Decidable (Authorised s id signer) :=
  inferInstanceAs (Decidable (_ ∨ _))

instance (id : String) (totalOf : String → UInt64) (s : Storage) (c : Submission) :
    Decidable (Fits id totalOf s c) :=
  inferInstanceAs (Decidable (_ → _))

def submit (id : String) (totalOf : String → UInt64) (s : Storage) (c : Submission) : Storage :=
  afterInvoke s (c.invocation id totalOf)

variable {s : Storage} {r : Registry} {id : String} {n : NodeRecord}

theorem lastBatch_eq (h : Represents s r)
    (registered : r.nodes id = some n) : lastBatch s id = n.lastbatch := by
  unfold lastBatch
  rw [h.field registered]
  cases last : n.lastbatch <;> simp [NodeRecord.field, last]

theorem authorised_iff (h : Represents s r) (registered : r.nodes id = some n) (signer : String) :
    Authorised s id signer ↔ r.Authorised n signer := by
  unfold Authorised Registry.Authorised
  rw [h.field registered, h.owner]
  simp [NodeRecord.field]

/-- One accepted submission: a repeat of the remembered batch changes nothing,
any other batch is added and remembered. -/
theorem submit_effect (h : Represents s r) (registered : r.nodes id = some n)
    (totalOf : String → UInt64) (c : Submission)
    (auth : Authorised s id c.signer) (count : c.count ≠ 0) (named : c.batchID ≠ "")
    (fits : Fits id totalOf s c) :
    ∃ n', Represents (submit id totalOf s c) (r.setNode id n') ∧ n'.owner = n.owner ∧
      n'.lastbatch = some c.batchID ∧
      n'.settled.toNat = n.settled.toNat +
        (if n.lastbatch = some c.batchID then 0 else (totalOf c.batchID).toNat) := by
  have after := afterInvoke_represents h (c.invocation id totalOf)
  have guards : r.Authorised n c.signer ∧ c.count ≠ 0 ∧ c.batchID ≠ "" :=
    ⟨(authorised_iff h registered c.signer).mp auth, count, named⟩
  simp only [Registry.after, Submission.invocation, Registry.apply, Registry.change, registered,
    if_pos guards] at after
  by_cases repeated : n.lastbatch = some c.batchID
  · simp only [if_pos repeated] at after
    exact ⟨n, after, rfl, repeated, by simp [repeated]⟩
  · have bound : n.settled.toNat + (totalOf c.batchID).toNat < 2 ^ 64 := by
      have reached := fits (by rw [lastBatch_eq h registered]; exact repeated)
      rw [h.uintAt_settled, registered] at reached
      exact reached
    simp only [if_neg repeated, if_pos bound] at after
    refine ⟨_, after, rfl, rfl, ?_⟩
    rw [if_neg repeated]
    exact Word.toNat_add_of_fits bound

/-- The settled total after a whole sequence is what a one-key memory counts. -/
theorem settled_after (h : Represents s r) (registered : r.nodes id = some n)
    (totalOf : String → UInt64)
    (calls : List Submission) (auth : ∀ c ∈ calls, Authorised s id c.signer)
    (counts : ∀ c ∈ calls, c.count ≠ 0) (named : ∀ c ∈ calls, c.batchID ≠ "")
    (fits : Run.Along (submit id totalOf) (Fits id totalOf) s calls) :
    uintAt (Run.run (submit id totalOf) s calls) (nodeKey id .settled) =
      n.settled.toNat +
        LastSeen.counted (fun b => (totalOf b).toNat) n.lastbatch (calls.map (·.batchID)) := by
  induction calls generalizing s r n with
  | nil =>
    simp only [Run.run_nil, List.map_nil, LastSeen.counted, h.uintAt_settled, registered]
    rfl
  | cons c rest ih =>
    obtain ⟨n', represents, owner, last, settled⟩ := submit_effect h registered totalOf c
      (auth c (by simp)) (counts c (by simp)) (named c (by simp)) fits.1
    have found : (r.setNode id n').nodes id = some n' := by simp
    have stillAuth : ∀ c' ∈ rest, Authorised (submit id totalOf s c) id c'.signer := by
      intro c' member
      have before := (authorised_iff h registered c'.signer).mp (auth c' (by simp [member]))
      apply (authorised_iff represents found c'.signer).mpr
      unfold Registry.Authorised at before ⊢
      rw [owner]
      exact before
    have tail := ih represents found stillAuth (fun c' m => counts c' (by simp [m]))
      (fun c' m => named c' (by simp [m])) fits.2
    rw [Run.run_cons, tail, settled, last]
    simp only [List.map_cons, LastSeen.counted]
    omega

/-- A submission is over-counted when its batch ID came earlier with a different one in between,
and under-counted when it is first and the node already remembers its batch. The settled total is
the initial one plus the totals of the distinct batch IDs exactly when the over-counted totals add
up to the under-counted one. -/
theorem replay_safe_iff {s : Storage} (reachable : Reachable s) (id : String)
    (registered : (s (nodeKey id .owner)).isSome) (totalOf : String → UInt64)
    (calls : List Submission) (auth : ∀ c ∈ calls, Authorised s id c.signer)
    (counts : ∀ c ∈ calls, c.count ≠ 0) (named : ∀ c ∈ calls, c.batchID ≠ "")
    (fits : Run.Along (submit id totalOf) (Fits id totalOf) s calls) :
    uintAt (Run.run (submit id totalOf) s calls) (nodeKey id .settled) =
        uintAt s (nodeKey id .settled) +
          ∑ b ∈ (calls.map (·.batchID)).toFinset, (totalOf b).toNat ↔
      LastSeen.reopened (fun b => (totalOf b).toNat) [] (calls.map (·.batchID)) =
        LastSeen.carried (fun b => (totalOf b).toNat) (lastBatch s id) (calls.map (·.batchID)) := by
  obtain ⟨r, represents⟩ := reachable.represents
  obtain ⟨value, set⟩ := Option.isSome_iff_exists.mp registered
  obtain ⟨n, found, _⟩ := registered_of_owner represents set
  have final := settled_after represents found totalOf calls auth counts named fits
  have balance := LastSeen.counted_add_carried (fun b => (totalOf b).toNat) n.lastbatch
    (calls.map (·.batchID))
  rw [final, lastBatch_eq represents found, represents.uintAt_settled, found]
  simp only [Option.elim_some]
  omega

/-- A node registered by `op`, the setting of the two sequences below. -/
def freshNode : Storage :=
  afterInvoke (deployed "op") ⟨"op", .registerNode "n" "m" 1⟩

theorem freshNode_reachable : Reachable freshNode :=
  ⟨"op", [⟨"op", .registerNode "n" "m" 1⟩], rfl⟩

def replayTotals (batchID : String) : UInt64 := if batchID = "a" then 5 else 7

/-- Batch `a`, batch `b`, and `b` replayed at once. -/
def replayedAtOnce : List Submission := [⟨"op", 1, "a"⟩, ⟨"op", 2, "b"⟩, ⟨"op", 2, "b"⟩]

/-- Batch `a`, batch `b`, and then `a` replayed. -/
def replayedLater : List Submission := [⟨"op", 1, "a"⟩, ⟨"op", 2, "b"⟩, ⟨"op", 1, "a"⟩]

/-- An immediate replay meets the condition, so both batches count once. -/
theorem replayedAtOnce_counts_once :
    uintAt (Run.run (submit "n" replayTotals) freshNode replayedAtOnce) (nodeKey "n" .settled) =
      uintAt freshNode (nodeKey "n" .settled) +
        ∑ b ∈ (replayedAtOnce.map (·.batchID)).toFinset, (replayTotals b).toNat :=
  (replay_safe_iff freshNode_reachable "n" (by decide) replayTotals replayedAtOnce
    (by decide) (by decide) (by decide) (by decide)).mpr
    (by decide)

/-- Every premise holds of the later replay, and batch `a` is counted twice:
17 settled against 12 for the two distinct batches. -/
theorem replayedLater_counts_twice :
    Reachable freshNode ∧ (freshNode (nodeKey "n" .owner)).isSome ∧
    (∀ c ∈ replayedLater, Authorised freshNode "n" c.signer) ∧
    (∀ c ∈ replayedLater, c.count ≠ 0) ∧ (∀ c ∈ replayedLater, c.batchID ≠ "") ∧
    Run.Along (submit "n" replayTotals) (Fits "n" replayTotals) freshNode replayedLater ∧
    uintAt (Run.run (submit "n" replayTotals) freshNode replayedLater) (nodeKey "n" .settled) = 17 ∧
    uintAt freshNode (nodeKey "n" .settled) +
      ∑ b ∈ (replayedLater.map (·.batchID)).toFinset, (replayTotals b).toNat = 12 :=
  ⟨freshNode_reachable, by decide, by decide, by decide, by decide,
    by decide, by decide, by decide⟩

end VeilNet.Guarantees.SettlementReplay
