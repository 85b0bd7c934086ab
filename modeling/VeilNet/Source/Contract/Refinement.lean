import VeilNet.Source.Contract.Abstract
import VeilNet.Lib.Word

/-!
Every entrypoint, run on a storage that represents a registry, ends without a panic with the
registry's own answer and a storage of its own next state. Only here the frames are executed
symbolically.
-/
namespace VeilNet.Source.Contract
open Lib

/-- The frame returns the given answer and leaves a storage of the given registry. -/
def Refines (s : Storage) (frame : Exec UInt64) (answer : UInt64 × Registry) : Prop :=
  ∃ t, frame s = .ok (answer.1, t) ∧ Represents t answer.2

/-- Some fields of a node are stored, one after the other. -/
def storeFields (s : Storage) (id : String) (fields : List (Field × Value)) : Storage :=
  fields.foldl (fun s field => Function.update s (nodeKey id field.1) (some field.2)) s

theorem storeFields_other {key id : String} (other : ∀ field, key ≠ nodeKey id field) (s : Storage)
    (fields : List (Field × Value)) : storeFields s id fields key = s key := by
  induction fields generalizing s with
  | nil => rfl
  | cons field rest ih => exact (ih _).trans (Function.update_of_ne (other field.1) _ s)

section entrypoints
variable {s : Storage} {r : Registry} {id : String} {n n' : NodeRecord}
  {frame : Exec UInt64} {f : NodeRecord → Option NodeRecord} (h : Represents s r)

include h

/-- A frame that refuses leaves the storage as it found it. One that accepts leaves the fields of
the changed record under the node's keys and touches no other key. -/
private theorem refines_change (unknown : r.nodes id = none → frame s = .ok (1, s))
    (known : ∀ n, r.nodes id = some n → match f n with
      | none => frame s = .ok (1, s)
      | some n' => ∃ stores, frame s = .ok (0, storeFields s id stores) ∧
          ∀ field, storeFields s id stores (nodeKey id field) = n'.field field) :
    Refines s frame (r.change id f) := by
  unfold Registry.change
  cases registered : r.nodes id with
  | none => exact ⟨s, unknown registered, h⟩
  | some n =>
    have outcome := known n registered
    dsimp only
    cases changed : f n with
    | none =>
      rw [changed] at outcome
      exact ⟨s, outcome, h⟩
    | some n' =>
      rw [changed] at outcome
      obtain ⟨stores, runs, fields⟩ := outcome
      exact ⟨_, runs, h.setNode fields fun _ other => storeFields_other other s stores⟩

theorem initialize_refines (signer : String) :
    Refines s (initialize_ signer) (1, r) :=
  ⟨s, by simp [initialize_, h.owner], h⟩

/-- An unknown node has no bond and no total either, so that both are stored. -/
theorem registerNode_refines (signer id metadata : String) (price : UInt64) :
    Refines s (registerNode signer id metadata price)
      (r.apply ⟨signer, .registerNode id metadata price⟩) := by
  simp only [Registry.apply]
  cases registered : r.nodes id with
  | some n => exact ⟨s, by simp [registerNode, h.field registered, NodeRecord.field], h⟩
  | none =>
    have missing := h.missing registered
    refine ⟨_, by simp [registerNode, missing]; rfl, h.setNode ?_ ?_⟩
    · intro field
      cases field <;> simp [missing, NodeRecord.field]
    · intro key other
      simp [other]

theorem updateNode_refines (signer id metadata : String) (price : UInt64) :
    Refines s (updateNode signer id metadata price)
      (r.apply ⟨signer, .updateNode id metadata price⟩) := by
  refine refines_change h (fun unknown => by simp [updateNode, h.missing unknown])
    fun n registered => ?_
  have field := h.field registered
  by_cases own : n.owner = signer
  · rw [if_pos own]
    refine ⟨[(.metadata, .string metadata), (.price, .uint64 price)],
      by simp [updateNode, storeFields, field, NodeRecord.field, own], fun g => ?_⟩
    cases g <;> simp [storeFields, field, NodeRecord.field]
  · simp [updateNode, field, NodeRecord.field, own]

theorem disableNode_refines (signer id : String) :
    Refines s (disableNode signer id) (r.apply ⟨signer, .disableNode id⟩) := by
  refine refines_change h (fun unknown => by simp [disableNode, h.missing unknown])
    fun n registered => ?_
  have field := h.field registered
  by_cases auth : r.Authorised n signer
  · rw [if_pos auth]
    refine ⟨[(.status, .uint64 0)], ?_, fun g => ?_⟩
    · by_cases own : n.owner = signer
      · simp [disableNode, storeFields, field, NodeRecord.field, own]
      · have contractOwner : r.owner = signer := auth.resolve_left own
        simp [disableNode, storeFields, field, NodeRecord.field, own, h.owner, contractOwner]
    · cases g <;> simp [storeFields, field, NodeRecord.field]
  · obtain ⟨own, contractOwner⟩ := not_or.mp auth
    simp [auth, disableNode, field, NodeRecord.field, own, h.owner, contractOwner]

theorem setPrice_refines (signer id : String) (price : UInt64) :
    Refines s (setPrice signer id price) (r.apply ⟨signer, .setPrice id price⟩) := by
  refine refines_change h (fun unknown => by simp [setPrice, h.missing unknown]) fun n registered =>
    ?_
  have field := h.field registered
  by_cases own : n.owner = signer
  · rw [if_pos own]
    refine ⟨[(.price, .uint64 price)],
      by simp [setPrice, storeFields, field, NodeRecord.field, own], fun g => ?_⟩
    cases g <;> simp [storeFields, field, NodeRecord.field]
  · simp [setPrice, field, NodeRecord.field, own]

theorem depositBond_refines (signer id : String) (amount : UInt64) :
    Refines s (depositBond signer id amount) (r.apply ⟨signer, .depositBond id amount⟩) := by
  refine refines_change h (fun unknown => by simp [depositBond, h.missing unknown])
    fun n registered => ?_
  have field := h.field registered
  by_cases own : n.owner = signer
  · by_cases zero : amount = 0
    · simp [depositBond, loadString, field, NodeRecord.field, zero]
    · by_cases fits : n.bond.toNat + amount.toNat < 2 ^ 64
      · rw [if_pos ⟨own, zero, fits⟩]
        refine ⟨[(.bond, .uint64 (n.bond + amount))], ?_, fun g => ?_⟩
        · simp [depositBond, storeFields, field, NodeRecord.field, own, zero,
            Word.add_lt_self_iff.not_left.mpr fits]
        · cases g <;> simp [storeFields, field, NodeRecord.field]
      · rw [if_neg fun all => fits all.2.2]
        simp [depositBond, field, NodeRecord.field, own, zero, Word.add_lt_self_iff.mpr fits]
  · simp [depositBond, field, NodeRecord.field, own]

theorem withdrawBond_refines (signer id : String) (amount : UInt64) :
    Refines s (withdrawBond signer id amount) (r.apply ⟨signer, .withdrawBond id amount⟩) := by
  refine refines_change h (fun unknown => by simp [withdrawBond, h.missing unknown])
    fun n registered => ?_
  have field := h.field registered
  by_cases own : n.owner = signer
  · by_cases short : n.bond < amount
    · rw [if_neg fun all => absurd (UInt64.lt_iff_toNat_lt.mp short) (not_lt.mpr all.2.2)]
      simp [withdrawBond, field, NodeRecord.field, own, short]
    · by_cases zero : amount = 0
      · simp [withdrawBond, loadUint64, field, NodeRecord.field, own, zero]
      · rw [if_pos ⟨own, zero, not_lt.mp (UInt64.lt_iff_toNat_lt.not.mp short)⟩]
        refine ⟨[(.bond, .uint64 (n.bond - amount))], ?_, fun g => ?_⟩
        · simp [withdrawBond, storeFields, field, NodeRecord.field, own, zero, short]
        · cases g <;> simp [storeFields, field, NodeRecord.field]
  · simp [withdrawBond, field, NodeRecord.field, own]

/-- An authorised signer gets what the operator gets: the contract owner's
detour (lines 30 and 35) changes nothing once the settled total exists. -/
private theorem recordSettlement_authorised (registered : r.nodes id = some n)
    {signer : String} (auth : r.Authorised n signer) (total count : UInt64) :
    recordSettlement signer id total count s = recordSettlement n.owner id total count s := by
  have field := h.field registered
  by_cases own : n.owner = signer
  · rw [own]
  · have contractOwner : r.owner = signer := auth.resolve_left own
    simp [recordSettlement, field, NodeRecord.field, h.owner, own, contractOwner]

private theorem recordSettlementIdem_authorised
    (registered : r.nodes id = some n) {signer : String} (auth : r.Authorised n signer)
    (total count : UInt64) (batchID : String) :
    recordSettlementIdem signer id total count batchID s =
      recordSettlementIdem n.owner id total count batchID s := by
  have field := h.field registered
  by_cases own : n.owner = signer
  · rw [own]
  · have contractOwner : r.owner = signer := auth.resolve_left own
    simp [recordSettlementIdem, field, NodeRecord.field, h.owner, own, contractOwner]

/-- A batch that is not the remembered one passes line 56, whether or not the node
remembers another. -/
private theorem recordSettlementIdem_fresh (registered : r.nodes id = some n)
    (total : UInt64) {count : UInt64} {batchID : String} (positive : count ≠ 0)
    (named : batchID ≠ "") (fresh : n.lastbatch ≠ some batchID) :
    recordSettlementIdem n.owner id total count batchID s =
      if n.settled + total < n.settled then .ok (1, s)
      else .ok (0, storeFields s id [(.settled, .uint64 (n.settled + total)),
        (.lastcount, .uint64 count), (.lastbatch, .string batchID)]) := by
  have field := h.field registered
  cases last : n.lastbatch with
  | none => simp [recordSettlementIdem, storeFields, field, NodeRecord.field, positive, named, last]
  | some previous =>
    have other : previous ≠ batchID := fun same => fresh (last.trans (congrArg some same))
    simp [recordSettlementIdem, storeFields, field, NodeRecord.field, positive, named, last, other]

theorem recordSettlement_refines (signer id : String) (total count : UInt64) :
    Refines s (recordSettlement signer id total count)
      (r.apply ⟨signer, .recordSettlement id total count⟩) := by
  refine refines_change h (fun unknown => by simp [recordSettlement, h.missing unknown])
    fun n registered => ?_
  have field := h.field registered
  by_cases auth : r.Authorised n signer
  · rw [recordSettlement_authorised h registered auth total count]
    by_cases zero : count = 0
    · simp [recordSettlement, field, NodeRecord.field, zero]
    · by_cases fits : n.settled.toNat + total.toNat < 2 ^ 64
      · rw [if_pos ⟨auth, zero, fits⟩]
        refine ⟨[(.settled, .uint64 (n.settled + total)), (.lastcount, .uint64 count)], ?_, fun g =>
          ?_⟩
        · simp [recordSettlement, storeFields, field, NodeRecord.field, zero,
            Word.add_lt_self_iff.not_left.mpr fits]
        · cases g <;> simp [storeFields, field, NodeRecord.field, NodeRecord.settle]
      · rw [if_neg fun all => fits all.2.2]
        simp [recordSettlement, field, NodeRecord.field, zero, Word.add_lt_self_iff.mpr fits]
  · obtain ⟨own, contractOwner⟩ := not_or.mp auth
    simp [auth, recordSettlement, field, NodeRecord.field, h.owner, own, contractOwner]

theorem recordSettlementIdem_refines (signer id : String)
    (total count : UInt64) (batchID : String) :
    Refines s (recordSettlementIdem signer id total count batchID)
      (r.apply ⟨signer, .recordSettlementIdem id total count batchID⟩) := by
  refine refines_change h (fun unknown => by simp [recordSettlementIdem, h.missing unknown])
    fun n registered => ?_
  have field := h.field registered
  by_cases auth : r.Authorised n signer
  · rw [recordSettlementIdem_authorised h registered auth total count batchID]
    by_cases zero : count = 0
    · simp [recordSettlementIdem, field, NodeRecord.field, zero]
    · by_cases empty : batchID = ""
      · simp [recordSettlementIdem, field, NodeRecord.field, zero, empty]
      · rw [if_pos ⟨auth, zero, empty⟩]
        by_cases repeated : n.lastbatch = some batchID
        · -- Line 56: acknowledged without a store.
          rw [if_pos repeated]
          refine ⟨[], ?_, field⟩
          simp [recordSettlementIdem, storeFields, field, NodeRecord.field, zero, empty, repeated]
        · rw [if_neg repeated, recordSettlementIdem_fresh h registered total zero empty repeated]
          by_cases fits : n.settled.toNat + total.toNat < 2 ^ 64
          · rw [if_pos fits, if_neg (Word.add_lt_self_iff.not_left.mpr fits)]
            refine ⟨_, rfl, fun g => ?_⟩
            cases g <;> simp [storeFields, field, NodeRecord.field, NodeRecord.settle]
          · rw [if_neg fits, if_pos (Word.add_lt_self_iff.mpr fits)]
  · obtain ⟨own, contractOwner⟩ := not_or.mp auth
    simp [auth, recordSettlementIdem, field, NodeRecord.field, h.owner, own, contractOwner]

/-- The getters answer the field of a known node, 0 for an unknown one. -/
private theorem getField_refines (id : String) (field : Field)
    (get : NodeRecord → UInt64) (same : ∀ n : NodeRecord, n.field field = some (.uint64 (get n))) :
    Refines s (getField id field) ((r.nodes id).elim 0 get, r) := by
  refine ⟨s, ?_, h⟩
  cases registered : r.nodes id with
  | none => simp [getField, h.missing registered]
  | some n => simp [getField, loadUint64, h.field registered, same]

/-- Every invocation of every function, by any signer with any arguments. -/
theorem invoke_refines (inv : Invocation) :
    Refines s (invoke inv) (r.apply inv) := by
  obtain ⟨signer, call⟩ := inv
  cases call with
  | initialize_ => exact initialize_refines h signer
  | registerNode id metadata price => exact registerNode_refines h signer id metadata price
  | updateNode id metadata price => exact updateNode_refines h signer id metadata price
  | disableNode id => exact disableNode_refines h signer id
  | setPrice id price => exact setPrice_refines h signer id price
  | depositBond id amount => exact depositBond_refines h signer id amount
  | withdrawBond id amount => exact withdrawBond_refines h signer id amount
  | recordSettlement id total count => exact recordSettlement_refines h signer id total count
  | recordSettlementIdem id total count batchID =>
    exact recordSettlementIdem_refines h signer id total count batchID
  | getPrice id => exact getField_refines h id .price (·.price) fun _ => rfl
  | getStatus id => exact getField_refines h id .status (·.status) fun _ => rfl
  | getBond id => exact getField_refines h id .bond (·.bond) fun _ => rfl

end entrypoints

def Registry.after (r : Registry) (inv : Invocation) : Registry := (r.apply inv).2

/-- The registry right after deployment: an owner and no nodes. -/
def Registry.deployed (installer : String) : Registry := ⟨installer, fun _ => none⟩

variable {s : Storage} {r : Registry}

/-- The step of the simulation, for every entrypoint. -/
theorem afterInvoke_represents (h : Represents s r) (inv : Invocation) :
    Represents (afterInvoke s inv) (r.after inv) := by
  obtain ⟨t, runs, represents⟩ := invoke_refines h inv
  rw [afterInvoke, runs]
  exact represents

theorem deployed_represents (installer : String) :
    Represents (deployed installer) (Registry.deployed installer) := by
  have stored : deployed installer =
      Function.update (fun _ => none) ownerKey (some (.string installer)) := by
    simp [deployed, afterInvoke, invoke, initialize_]
  rw [stored]
  refine ⟨by simp [Registry.deployed], ?_, ?_⟩
  · intro id field
    simp [Registry.deployed]
  · intro key notOwner _
    simp [notOwner]

/-- The contract simulates the registry along every history. -/
theorem run_represents (h : Represents s r) (history : List Invocation) :
    Represents (Run.run afterInvoke s history) (Run.run Registry.after r history) := by
  induction history generalizing s r with
  | nil => exact h
  | cons inv rest ih => exact ih (afterInvoke_represents h inv)

/-- The return value of an invocation; none on a panic. -/
def answer (s : Storage) (inv : Invocation) : Option UInt64 :=
  match invoke inv s with
  | .ok (value, _) => some value
  | .error _ => none

/-- The contract never panics, and returns what the registry answers. -/
theorem Represents.answer (h : Represents s r) (inv : Invocation) :
    answer s inv = some (r.apply inv).1 := by
  obtain ⟨t, runs, _⟩ := invoke_refines h inv
  rw [Contract.answer, runs]

/-- So every storage of a deployed contract is that of a registry. -/
theorem Reachable.represents (reachable : Reachable s) : ∃ r, Represents s r := by
  obtain ⟨installer, history, rfl⟩ := reachable
  exact ⟨_, run_represents (deployed_represents installer) history⟩

end VeilNet.Source.Contract
