import VeilNet.Source.Payments.Effects
import VeilNet.Guarantees.SettlementReplay
import VeilNet.Lib.Slots
import Mathlib.Algebra.Order.BigOperators.Group.Finset

/-!
# Settlement across the service and the contract

One node's receipts, settled by `RecordSettlement` through the contract's `RecordSettlementIdem`.
The chain may execute an invoke at any later time, or never, whatever `SubmitInvoke` answered. The
batch ID depends on the whole unsettled set, so a receipt that arrives between an executed attempt
which was reported as failed and its retry gives the retry a new ID, and the old receipts are
counted again.

The on-chain total is the sum over the distinct executed receipts, in every state of a run,
exactly when each executed invoke repeats the remembered batch ID or brings no amount that was
executed before.
-/
namespace VeilNet.Guarantees.SettlementProtocol
open Lib Source.Payments Source.Contract
open Guarantees.SettlementReplay

/-- An invoke on its way to the chain, with the batch it was made from. -/
structure Message where
  invoke : Invoke
  batch : List Receipt

/-- The service, the contract's storage and the invokes in between. `submitted`
and `executed` record the batches of all invokes made and executed so far. -/
structure State (F : Type) where
  service : Service F
  chain : Storage
  pool : List Message
  submitted : List (List Receipt)
  executed : List (List Receipt)

inductive Op (F : Type) where
  | receipt (order : RangeOrder) (r : Receipt)
  | attempt (opts : Options F) (now : Time) (order : RangeOrder)
  | execute (i : ℕ) (signer : String)

def Message.invocation (m : Message) (signer : String) : Invocation :=
  ⟨signer, .recordSettlementIdem m.invoke.nodeID m.invoke.total m.invoke.count m.invoke.batchID⟩

section definitions
variable {F : Type} (verify : List UInt8 → String → List UInt8 → Bool)
  (sha256 : String → List UInt8) (nodeID : String)

def step (s : State F) : Op F → State F
  | .receipt order r => { s with service := afterReceipt verify order s.service r }
  | .attempt opts now order =>
    let batch := unsettled order s.service nodeID
    let service := (recordSettlement sha256 opts now order s.service nodeID).2
    match submittedInvoke sha256 opts now order s.service nodeID with
    | none => { s with service }
    | some invoke =>
      { s with service, pool := s.pool ++ [⟨invoke, batch⟩], submitted := s.submitted ++ [batch] }
  | .execute i signer =>
    match s.pool[i]? with
    | none => s
    | some m =>
      { s with
        chain := afterInvoke s.chain (m.invocation signer)
        pool := s.pool.eraseIdx i
        executed := s.executed ++ [m.batch] }

/-- The batch ID of an attempt does not collide with that of an earlier batch; the signer of an
executed invoke is authorised, the length of its batch is a Go `int`, and the contract's addition
fits. -/
def Admissible (s : State F) : Op F → Prop
  | .receipt .. => True
  | .attempt _ _ order => ∀ b ∈ s.submitted,
    batchIDFor sha256 (b.map (·.id)) =
        batchIDFor sha256 ((unsettled order s.service nodeID).map (·.id)) →
      (b.map (·.id)).Perm ((unsettled order s.service nodeID).map (·.id))
  | .execute i signer => ∀ m ∈ s.pool[i]?,
    Authorised s.chain nodeID signer ∧ m.batch.length < 2 ^ 63 ∧
    (lastBatch s.chain nodeID ≠ some m.invoke.batchID →
      uintAt s.chain (nodeKey nodeID .settled) + m.invoke.total.toNat < 2 ^ 64)

instance (s : State F) (op : Op F) : Decidable (Admissible sha256 nodeID s op) := by
  cases op <;> unfold Admissible <;> infer_instance

/-- The receipt IDs contained in at least one executed batch. -/
def executedIDs (s : State F) : List String := s.executed.flatMap fun b => b.map (·.id)

/-- The on-chain total is the sum over the distinct executed receipt IDs. -/
def CountedOnce (s : State F) : Prop :=
  (uintAt s.chain (nodeKey nodeID .settled) : ℤ) =
    ∑ id ∈ (executedIDs s).toFinset, valueAt (·.amount.toInt) s.service.receipts id

/-- An executed invoke repeats the batch ID that the contract remembers, or each
of its receipts that was executed before has amount 0. -/
def NoRecount (s : State F) : Op F → Prop
  | .execute i _ => ∀ m ∈ s.pool[i]?,
    lastBatch s.chain nodeID = some m.invoke.batchID ∨
      ∀ r ∈ m.batch, r.id ∈ executedIDs s → r.amount = 0
  | .receipt .. | .attempt .. => True

instance (s : State F) : Decidable (CountedOnce nodeID s) :=
  inferInstanceAs (Decidable (_ = _))

instance (s : State F) (op : Op F) : Decidable (NoRecount nodeID s op) := by
  cases op <;> unfold NoRecount <;> infer_instance

end definitions

section invariant
variable {F : Type}

/-- A batch that was handed to the wallet. -/
structure Submitted (receipts : GoMap String Receipt) (b : List Receipt) : Prop where
  distinct : (b.map (·.id)).Nodup
  nonneg : ∀ r ∈ b, 0 ≤ r.amount
  stored : ∀ r ∈ b, ∃ r', receipts.lookup r.id = some r' ∧ r'.amount = r.amount

/-- An invoke says what its batch is. -/
structure Carries (sha256 : String → List UInt8) (nodeID : String) (m : Message) : Prop where
  nonempty : m.batch ≠ []
  nodeID : m.invoke.nodeID = nodeID
  total : (m.invoke.total.toNat : ℤ) = (m.batch.map (·.amount.toInt)).sum
  count : m.invoke.count = UInt64.ofNat m.batch.length
  batchID : m.invoke.batchID = batchIDFor sha256 (m.batch.map (·.id))

structure Coherent (sha256 : String → List UInt8) (nodeID : String) (s : State F) : Prop where
  keyed : WellKeyed s.service.receipts
  submitted : ∀ b ∈ s.submitted, Submitted s.service.receipts b
  collisionFree : ∀ b ∈ s.submitted, ∀ b' ∈ s.submitted,
    batchIDFor sha256 (b.map (·.id)) = batchIDFor sha256 (b'.map (·.id)) →
      (b.map (·.id)).Perm (b'.map (·.id))
  pool : ∀ m ∈ s.pool, m.batch ∈ s.submitted ∧ Carries sha256 nodeID m
  executed : ∀ b ∈ s.executed, b ∈ s.submitted
  chain : ∃ r n, Represents s.chain r ∧ r.nodes nodeID = some n ∧
    ∀ batchID, n.lastbatch = some batchID →
      ∃ b ∈ s.executed, batchIDFor sha256 (b.map (·.id)) = batchID

variable {sha256 : String → List UInt8} {nodeID : String} {s : State F}

/-- The store may change as long as it keeps the amounts of the stored receipts. -/
def KeepsAmounts (receipts receipts' : GoMap String Receipt) : Prop :=
  ∀ id r, receipts.lookup id = some r → ∃ r', receipts'.lookup id = some r' ∧ r'.amount = r.amount

theorem keepsAmounts_refl (receipts : GoMap String Receipt) : KeepsAmounts receipts receipts :=
  fun _ r found => ⟨r, found, rfl⟩

variable {receipts : GoMap String Receipt} {r : Receipt}

theorem keepsAmounts_insert
    (fresh : receipts.lookup r.id = none) : KeepsAmounts receipts (receipts.insert r.id r) :=
  fun _ old found => ⟨old, lookup_insert_fresh fresh found, rfl⟩

theorem recordSettlement_keeps (keyed : WellKeyed s.service.receipts) (opts : Options F)
    (now : Time) (order : RangeOrder) :
    WellKeyed (recordSettlement sha256 opts now order s.service nodeID).2.receipts ∧
    KeepsAmounts s.service.receipts
      (recordSettlement sha256 opts now order s.service nodeID).2.receipts := by
  rcases recordSettlement_cases sha256 opts now order s.service nodeID with same |
    ⟨st, prepared, eq⟩
  · rw [same]
    exact ⟨keyed, keepsAmounts_refl _⟩
  · have stored : ∀ id ∈ st.receiptIDs, (s.service.receipts.lookup id).isSome := by
      rw [prepared.receiptIDs]
      exact stored_ids fun r inBatch => ((mem_unsettled keyed).mp inBatch).1
    rw [eq, commitSettlement]
    refine ⟨keyed.markSettled stored, fun id r found => ?_⟩
    rw [lookup_markSettled_of_stored stored, found]
    exact ⟨_, rfl, rfl⟩

variable {b : List Receipt}

theorem Submitted.mono {receipts' : GoMap String Receipt}
    (h : Submitted receipts b) (keeps : KeepsAmounts receipts receipts') :
    Submitted receipts' b := by
  refine ⟨h.distinct, h.nonneg, fun r inBatch => ?_⟩
  obtain ⟨stored, found, amount⟩ := h.stored r inBatch
  obtain ⟨stored', found', amount'⟩ := keeps r.id stored found
  exact ⟨stored', found', amount'.trans amount⟩

theorem Submitted.valueAt (h : Submitted receipts b) (inBatch : r ∈ b) :
    valueAt (·.amount.toInt) receipts r.id = r.amount.toInt := by
  obtain ⟨stored, found, amount⟩ := h.stored r inBatch
  simp [Source.Payments.valueAt, found, amount]

theorem Submitted.total (h : Submitted receipts b) : (b.map (·.amount.toInt)).sum =
      ∑ id ∈ (b.map (·.id)).toFinset, Source.Payments.valueAt (·.amount.toInt) receipts id := by
  rw [List.sum_toFinset _ h.distinct, List.map_map]
  congr 1
  apply List.map_congr_left
  intro r inBatch
  exact (h.valueAt inBatch).symm

theorem mem_executedIDs {id : String} :
    id ∈ executedIDs s ↔ ∃ b ∈ s.executed, ∃ r ∈ b, r.id = id := by
  simp [executedIDs]

variable (h : Coherent sha256 nodeID s)
include h

/-- A change of the service alone does not change what is counted. -/
theorem Coherent.countedOnce_iff (s' : State F)
    (chain : s'.chain = s.chain) (executed : s'.executed = s.executed)
    (keeps : KeepsAmounts s.service.receipts s'.service.receipts) :
    CountedOnce nodeID s' ↔ CountedOnce nodeID s := by
  have sums : ∑ id ∈ (executedIDs s).toFinset, valueAt (·.amount.toInt) s'.service.receipts id =
      ∑ id ∈ (executedIDs s).toFinset, valueAt (·.amount.toInt) s.service.receipts id := by
    apply Finset.sum_congr rfl
    intro id member
    obtain ⟨b, ran, r, inBatch, rfl⟩ := mem_executedIDs.mp (List.mem_toFinset.mp member)
    have submitted := h.submitted b (h.executed b ran)
    rw [(submitted.mono keeps).valueAt inBatch, submitted.valueAt inBatch]
  unfold CountedOnce executedIDs
  rw [chain, executed]
  unfold executedIDs at sums
  rw [sums]

variable {next : Service F}

theorem Coherent.receipt
    {verify : List UInt8 → String → List UInt8 → Bool} {order : RangeOrder}
    (accepted : recordReceipt verify order s.service r = .ok next) :
    Coherent sha256 nodeID { s with service := next } ∧
      KeepsAmounts s.service.receipts next.receipts := by
  obtain ⟨rfl, _, fresh, _⟩ := recordReceipt_ok accepted
  have keeps := keepsAmounts_insert fresh
  exact ⟨⟨h.keyed.insert r, fun b made => (h.submitted b made).mono keeps, h.collisionFree, h.pool,
    h.executed, h.chain⟩, keeps⟩

theorem Coherent.attempt_unsent
    (keyed : WellKeyed next.receipts) (keeps : KeepsAmounts s.service.receipts next.receipts) :
    Coherent sha256 nodeID { s with service := next } :=
  ⟨keyed, fun b made => (h.submitted b made).mono keeps, h.collisionFree, h.pool, h.executed,
    h.chain⟩

variable {m : Message}

theorem Coherent.attempt_sent
    (keyed : WellKeyed next.receipts) (keeps : KeepsAmounts s.service.receipts next.receipts)
    (submitted : Submitted next.receipts m.batch) (carries : Carries sha256 nodeID m)
    (fresh : ∀ b ∈ s.submitted,
      batchIDFor sha256 (b.map (·.id)) = batchIDFor sha256 (m.batch.map (·.id)) →
        (b.map (·.id)).Perm (m.batch.map (·.id))) :
    Coherent sha256 nodeID
      { s with service := next, pool := s.pool ++ [m], submitted := s.submitted ++ [m.batch] } := by
  refine ⟨keyed, ?_, ?_, ?_, fun b ran => ?_, h.chain⟩
  · intro b made
    rcases List.mem_append.mp made with old | new
    · exact (h.submitted b old).mono keeps
    · obtain rfl := List.mem_singleton.mp new
      exact submitted
  · intro b made b' made' same
    rcases List.mem_append.mp made with old | new <;> rcases List.mem_append.mp made' with old' |
      new'
    · exact h.collisionFree b old b' old' same
    · obtain rfl := List.mem_singleton.mp new'
      exact fresh b old same
    · obtain rfl := List.mem_singleton.mp new
      exact (fresh b' old' same.symm).symm
    · obtain rfl := List.mem_singleton.mp new
      obtain rfl := List.mem_singleton.mp new'
      exact .refl _
  · intro m' inPool
    rcases List.mem_append.mp inPool with old | new
    · exact ⟨List.mem_append_left _ (h.pool m' old).1, (h.pool m' old).2⟩
    · obtain rfl := List.mem_singleton.mp new
      exact ⟨by simp, carries⟩
  · exact List.mem_append_left _ (h.executed b ran)

variable {signer : String}

theorem Coherent.execute_effect {i : ℕ}
    (found : s.pool[i]? = some m) (admissible : Admissible sha256 nodeID s (.execute i signer)) :
    ∃ r n, Represents (afterInvoke s.chain (m.invocation signer)) r ∧ r.nodes nodeID = some n ∧
      n.lastbatch = some m.invoke.batchID ∧
      (uintAt (afterInvoke s.chain (m.invocation signer)) (nodeKey nodeID .settled) : ℤ) =
        uintAt s.chain (nodeKey nodeID .settled) +
          if lastBatch s.chain nodeID = some m.invoke.batchID then 0
          else (m.batch.map (·.amount.toInt)).sum := by
  obtain ⟨r, n, represents, registered, _⟩ := h.chain
  obtain ⟨auth, length, fits⟩ := admissible m found
  obtain ⟨_, carries⟩ := h.pool m (List.mem_of_getElem? found)
  have count : m.invoke.count ≠ 0 := by
    rw [carries.count]
    exact Word.ofNat_ne_zero (List.length_pos_iff.mpr carries.nonempty) (by omega)
  have named : m.invoke.batchID ≠ "" := by
    rw [carries.batchID]
    intro empty
    have chars := congrArg String.toList empty
    simp [batchIDFor] at chars
  obtain ⟨n', after, _, last, settled⟩ := submit_effect represents registered
    (fun _ => m.invoke.total) ⟨signer, m.invoke.count, m.invoke.batchID⟩ auth count named fits
  have same : afterInvoke s.chain (m.invocation signer) =
      submit nodeID (fun _ => m.invoke.total) s.chain
        ⟨signer, m.invoke.count, m.invoke.batchID⟩ := by
    rw [Message.invocation, carries.nodeID]
    rfl
  refine ⟨_, n', by rw [same]; exact after, by simp, last, ?_⟩
  rw [same, after.uintAt_settled, represents.uintAt_settled, registered, lastBatch_eq represents
    registered]
  simp only [Registry.setNode_nodes, Option.elim_some]
  rw [settled]
  split
  · simp
  · rw [Nat.cast_add, carries.total]

theorem Coherent.execute {i : ℕ}
    (found : s.pool[i]? = some m) (admissible : Admissible sha256 nodeID s (.execute i signer)) :
    Coherent sha256 nodeID
      { s with
        chain := afterInvoke s.chain (m.invocation signer)
        pool := s.pool.eraseIdx i
        executed := s.executed ++ [m.batch] } := by
  obtain ⟨made, carries⟩ := h.pool m (List.mem_of_getElem? found)
  obtain ⟨r, n, represents, registered, last, _⟩ := h.execute_effect found admissible
  refine ⟨h.keyed, h.submitted, h.collisionFree, ?_, ?_, r, n, represents, registered, ?_⟩
  · intro m' inPool
    exact h.pool m' (List.mem_of_mem_eraseIdx inPool)
  · intro b ran
    rcases List.mem_append.mp ran with old | new
    · exact h.executed b old
    · obtain rfl := List.mem_singleton.mp new
      exact made
  · intro batchID stored
    obtain rfl := Option.some.inj (last.symm.trans stored)
    exact ⟨m.batch, by simp, carries.batchID.symm⟩

/-- A batch whose ID the contract remembers was executed before. -/
theorem Coherent.executed_of_last (inPool : m ∈ s.pool)
    (last : lastBatch s.chain nodeID = some m.invoke.batchID) :
    ∀ r ∈ m.batch, r.id ∈ executedIDs s := by
  obtain ⟨made, carries⟩ := h.pool m inPool
  obtain ⟨registry, n, represents, registered, remembered⟩ := h.chain
  rw [lastBatch_eq represents registered] at last
  obtain ⟨b, ran, sameID⟩ := remembered _ last
  have perm := h.collisionFree b (h.executed b ran) m.batch made (sameID.trans carries.batchID)
  intro r inBatch
  have member : r.id ∈ b.map (·.id) := perm.mem_iff.mpr (List.mem_map_of_mem inBatch)
  obtain ⟨r', inBatch', same⟩ := List.mem_map.mp member
  exact mem_executedIDs.mpr ⟨b, ran, r', inBatch', same⟩

omit h in
/-- The part of a batch that was executed before weighs nothing exactly when each
of its receipts has amount 0. -/
theorem Submitted.recounted_zero_iff (h : Submitted receipts b) (old : Finset String) :
    ∑ id ∈ old ∩ (b.map (·.id)).toFinset, Source.Payments.valueAt (·.amount.toInt) receipts id = 0 ↔
      ∀ r ∈ b, r.id ∈ old → r.amount = 0 := by
  have members : ∀ id ∈ old ∩ (b.map (·.id)).toFinset, id ∈ old ∧ ∃ r ∈ b, r.id = id := by
    intro id member
    obtain ⟨isOld, isNew⟩ := Finset.mem_inter.mp member
    exact ⟨isOld, List.mem_map.mp (List.mem_toFinset.mp isNew)⟩
  rw [Finset.sum_eq_zero_iff_of_nonneg]
  · constructor
    · intro zero r inBatch isOld
      have value := zero r.id (by simp only [Finset.mem_inter, isOld, List.mem_toFinset,
        List.mem_map_of_mem inBatch, and_self])
      rw [h.valueAt inBatch] at value
      exact Int64.toInt_inj.mp value
    · intro zero id member
      obtain ⟨isOld, r, inBatch, rfl⟩ := members id member
      rw [h.valueAt inBatch, zero r inBatch isOld]
      rfl
  · intro id member
    obtain ⟨_, r, inBatch, rfl⟩ := members id member
    rw [h.valueAt inBatch]
    exact toInt_nonneg (h.nonneg r inBatch)

/-- One executed invoke, when the count was right before: it is right afterwards
exactly when the invoke meets the condition. -/
theorem Coherent.execute_counted_iff {i : ℕ} (found : s.pool[i]? = some m)
    (admissible : Admissible sha256 nodeID s (.execute i signer)) (before : CountedOnce nodeID s) :
    CountedOnce nodeID
      { s with
        chain := afterInvoke s.chain (m.invocation signer)
        pool := s.pool.eraseIdx i
        executed := s.executed ++ [m.batch] } ↔
    lastBatch s.chain nodeID = some m.invoke.batchID ∨
      ∀ r ∈ m.batch, r.id ∈ executedIDs s → r.amount = 0 := by
  have inPool := List.mem_of_getElem? found
  have submitted := h.submitted m.batch (h.pool m inPool).1
  obtain ⟨_, _, _, _, _, settled⟩ := h.execute_effect found admissible
  have ids : (executedIDs
      { s with
        chain := afterInvoke s.chain (m.invocation signer)
        pool := s.pool.eraseIdx i
        executed := s.executed ++ [m.batch] }).toFinset =
      (executedIDs s).toFinset ∪ (m.batch.map (·.id)).toFinset := by
    simp [executedIDs, List.toFinset_append]
  unfold CountedOnce at before ⊢
  dsimp only
  rw [ids, settled, before]
  by_cases last : lastBatch s.chain nodeID = some m.invoke.batchID
  · -- The invoke repeats the remembered batch: nothing is added on either side.
    have covered : (m.batch.map (·.id)).toFinset ⊆ (executedIDs s).toFinset := by
      intro id member
      obtain ⟨r, inBatch, rfl⟩ := List.mem_map.mp (List.mem_toFinset.mp member)
      exact List.mem_toFinset.mpr (h.executed_of_last inPool last r inBatch)
    simp [last, Finset.union_eq_left.mpr covered]
  · -- The whole batch is added, its part that was executed before a second time.
    have parts : ∑ id ∈ (executedIDs s).toFinset ∪ (m.batch.map (·.id)).toFinset,
          valueAt (·.amount.toInt) s.service.receipts id +
        ∑ id ∈ (executedIDs s).toFinset ∩ (m.batch.map (·.id)).toFinset,
          valueAt (·.amount.toInt) s.service.receipts id =
        ∑ id ∈ (executedIDs s).toFinset, valueAt (·.amount.toInt) s.service.receipts id +
          ∑ id ∈ (m.batch.map (·.id)).toFinset, valueAt (·.amount.toInt) s.service.receipts id :=
      Finset.sum_union_inter
    have recounted := submitted.recounted_zero_iff (executedIDs s).toFinset
    simp only [List.mem_toFinset] at recounted
    rw [if_neg last, submitted.total, or_iff_right last, ← recounted]
    omega

end invariant

section run
variable {F : Type} (verify : List UInt8 → String → List UInt8 → Bool)
  {sha256 : String → List UInt8} {nodeID : String}

/-- An attempt keeps the invariant and the amounts of the stored receipts. -/
theorem Coherent.attempt {s : State F} (h : Coherent sha256 nodeID s) {opts : Options F}
    {now : Time} {order : RangeOrder}
    (admissible : Admissible sha256 nodeID s (.attempt opts now order)) :
    Coherent sha256 nodeID (step verify sha256 nodeID s (.attempt opts now order)) ∧
    KeepsAmounts s.service.receipts
      (step verify sha256 nodeID s (.attempt opts now order)).service.receipts := by
  obtain ⟨keyed, keeps⟩ := recordSettlement_keeps h.keyed opts now order
  simp only [step]
  split
  · exact ⟨h.attempt_unsent keyed keeps, keeps⟩
  · next invoke sent =>
    obtain ⟨st, prepared, rfl⟩ := submittedInvoke_some sent
    have submitted : Submitted s.service.receipts (unsettled order s.service nodeID) :=
      ⟨nodup_unsettled h.keyed, prepared.amounts, fun r inBatch =>
        ⟨r, ((mem_unsettled h.keyed).mp inBatch).1, rfl⟩⟩
    have carries : Carries sha256 nodeID
        ⟨st.invoke opts.scid (unsettled order s.service nodeID).length,
          unsettled order s.service nodeID⟩ :=
      ⟨prepared.nonempty, prepared.nodeID,
        (Word.toNat_toUInt64_of_nonneg prepared.nonneg).trans prepared.total, rfl, prepared.id⟩
    exact ⟨h.attempt_sent keyed keeps (submitted.mono keeps) carries admissible, keeps⟩

theorem coherent_step (s : State F) (op : Op F) (admissible : Admissible sha256 nodeID s op)
    (h : Coherent sha256 nodeID s) : Coherent sha256 nodeID (step verify sha256 nodeID s op) := by
  cases op with
  | receipt order r =>
    rw [step]
    rcases afterReceipt_cases verify order s.service r with ⟨unchanged, _⟩ | accepted
    · rw [unchanged]
      exact h
    · exact (h.receipt accepted).1
  | attempt opts now order => exact (h.attempt verify admissible).1
  | execute i signer =>
    simp only [step]
    split
    · exact h
    · next found => exact h.execute found admissible

/-- The count stays right over a step exactly when the step meets the condition. -/
theorem counted_step_iff (s : State F) (op : Op F) (admissible : Admissible sha256 nodeID s op)
    (h : Coherent sha256 nodeID s) (before : CountedOnce nodeID s) :
    CountedOnce nodeID (step verify sha256 nodeID s op) ↔ NoRecount nodeID s op := by
  cases op with
  | receipt order r =>
    refine iff_of_true ?_ trivial
    rw [step]
    rcases afterReceipt_cases verify order s.service r with ⟨unchanged, _⟩ | accepted
    · rw [unchanged]
      exact before
    · exact (h.countedOnce_iff { s with service := afterReceipt verify order s.service r } rfl rfl
        (h.receipt accepted).2).mpr before
  | attempt opts now order =>
    refine iff_of_true ?_ trivial
    have keeps := (h.attempt verify admissible).2
    refine (h.countedOnce_iff _ ?_ ?_ keeps).mpr before
    · simp only [step]
      split <;> rfl
    · simp only [step]
      split <;> rfl
  | execute i signer =>
    simp only [step, NoRecount]
    cases found : s.pool[i]? with
    | none => simpa using before
    | some m => simpa using h.execute_counted_iff found admissible before

end run

/-- The on-chain total of a registered node that starts from 0 is the sum over the distinct
executed receipts in every state of a run exactly when every executed invoke repeats the
remembered batch ID or brings no amount that was executed before. -/
theorem counted_once_iff {F : Type} (verify : List UInt8 → String → List UInt8 → Bool)
    (sha256 : String → List UInt8) (nodeID : String) (service : Service F)
    (keyed : WellKeyed service.receipts) {chain : Storage} (reachable : Reachable chain)
    (registered : (chain (nodeKey nodeID .owner)).isSome)
    (unsettledYet : uintAt chain (nodeKey nodeID .settled) = 0)
    (noBatch : lastBatch chain nodeID = none) (ops : List (Op F))
    (admissible : Run.Along (step verify sha256 nodeID) (Admissible sha256 nodeID)
      ⟨service, chain, [], [], []⟩ ops) :
    Run.Throughout (step verify sha256 nodeID) (CountedOnce nodeID)
      ⟨service, chain, [], [], []⟩ ops ↔
      Run.Along (step verify sha256 nodeID) (NoRecount nodeID)
        ⟨service, chain, [], [], []⟩ ops := by
  have start : Coherent sha256 nodeID (⟨service, chain, [], [], []⟩ : State F) := by
    obtain ⟨r, represents⟩ := reachable.represents
    obtain ⟨value, set⟩ := Option.isSome_iff_exists.mp registered
    obtain ⟨n, found, _⟩ := ContractSafety.registered_of_owner represents set
    rw [lastBatch_eq represents found] at noBatch
    refine ⟨keyed, by simp, by simp, by simp, by simp, r, n, represents, found, ?_⟩
    rw [noBatch]
    simp
  have zero : CountedOnce nodeID (⟨service, chain, [], [], []⟩ : State F) := by
    simp [CountedOnce, executedIDs, unsettledYet]
  exact Run.throughout_iff_along start zero (coherent_step verify)
    (counted_step_iff verify) admissible

section sample

/-- A wallet that always submits, and answers as given. -/
def answering (answer : Except String String) : Options ℚ :=
  { wallet := some
      { getBalance := .ok 0
        buildTransfer := fun _ _ => .ok ()
        submitTransfer := fun _ _ => .ok ""
        buildInvoke := fun _ => .ok ()
        submitInvoke := fun _ => answer }
    registry := none
    approver := fun _ => .ok .reject
    network := "testnet"
    scid := "scid" }

/-- A receipt of node `n` over the given amount. -/
def usage (id : String) (amount : Int64) : Receipt :=
  ⟨id, "s", "n", "tok", 0, 0, 0, amount, false, .replicate 32 0, .replicate 64 0⟩

/-- An attempt is executed but reported as failed; its retry is executed too. -/
def plainRetry : List (Op ℚ) :=
  [ .receipt .forward (usage "r1" 5), .attempt (answering (.error "timeout")) 0 .forward,
    .execute 0 "op", .attempt (answering (.ok "tx")) 1 .forward, .execute 0 "op" ]

/-- The same, but a second receipt arrives before the retry. -/
def retryAfterReceipt : List (Op ℚ) :=
  [ .receipt .forward (usage "r1" 5), .attempt (answering (.error "timeout")) 0 .forward,
    .execute 0 "op", .receipt .forward (usage "r2" 7), .attempt (answering (.ok "tx")) 1 .forward,
    .execute 0 "op" ]

def begin : State ℚ := ⟨newService ℚ Source.Tokens.newIssuer, freshNode, [], [], []⟩

theorem plainRetry_counted_once :
    Run.Along (step anySignature GoText.utf8 "n") (Admissible GoText.utf8 "n") begin plainRetry ∧
    Run.Throughout (step anySignature GoText.utf8 "n") (CountedOnce "n") begin plainRetry ∧
    uintAt (Run.run (step anySignature GoText.utf8 "n") begin plainRetry).chain
      (nodeKey "n" .settled) = 5 := by
  have admissible : Run.Along (step anySignature GoText.utf8 "n") (Admissible GoText.utf8 "n") begin
      plainRetry := by decide
  have keyed : WellKeyed (newService ℚ Source.Tokens.newIssuer).receipts := by
    intro id r found
    cases found
  refine ⟨admissible, ?_, by decide⟩
  exact (counted_once_iff anySignature GoText.utf8 "n" _ keyed freshNode_reachable
    (by decide)
    (by decide) (by decide) plainRetry admissible).mpr (by decide)

/-- Receipts over 5 and 7 units are executed, and 17 units are counted: the
receipt over 5 units is in both executed batches. -/
theorem retryAfterReceipt_counted_twice :
    Run.Along (step anySignature GoText.utf8 "n")
      (Admissible GoText.utf8 "n") begin retryAfterReceipt ∧
    executedIDs (Run.run (step anySignature GoText.utf8 "n") begin retryAfterReceipt) =
      ["r1", "r2", "r1"] ∧
    uintAt (Run.run (step anySignature GoText.utf8 "n") begin retryAfterReceipt).chain
      (nodeKey "n" .settled) = 17 ∧
    ¬ CountedOnce "n" (Run.run (step anySignature GoText.utf8 "n") begin retryAfterReceipt) := by
  decide

end sample

end VeilNet.Guarantees.SettlementProtocol
