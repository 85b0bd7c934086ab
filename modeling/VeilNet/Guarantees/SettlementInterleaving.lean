import VeilNet.Source.Payments.Effects
import VeilNet.Lib.Slots
import Mathlib.Algebra.BigOperators.Group.Finset.Basic

/-!
# Concurrent settlements

`RecordSettlement` snapshots its batch in one critical section and marks it in another, with the
wallet submit in between; any number of calls interleave with each other and with `RecordReceipt`.
Nothing in the second section looks at the flags again, so two overlapping calls for one node
settle the same receipts twice; otherwise every receipt is settled and attributed at most once.
-/
namespace VeilNet.Guarantees.SettlementInterleaving
open Lib Source.Payments

/-- A `RecordSettlement` call between its two critical sections. -/
structure Call where
  batch : List Receipt
  st : Settlement
  submitted : Bool

structure State (F : Type) where
  service : Service F
  inflight : List Call

inductive Op where
  | receipt (order : RangeOrder) (r : Receipt)
  | snapshot (order : RangeOrder) (now : Time) (nodeID : String)
  | submit (i : ℕ) (txid : String)
  | commit (i : ℕ)

section definitions
variable {F : Type} (verify : List UInt8 → String → List UInt8 → Bool)
  (sha256 : String → List UInt8)

/-- A call that fails before the submit ends without an effect; a position
without a call, a second submit and a commit before the submit are no steps. -/
def step (s : State F) : Op → State F
  | .receipt order r => { s with service := afterReceipt verify order s.service r }
  | .snapshot order now nodeID =>
    let batch := unsettled order s.service nodeID
    match prepareSettlement sha256 now nodeID batch with
    | .error _ => s
    | .ok st => { s with inflight := s.inflight ++ [⟨batch, st, false⟩] }
  | .submit i txid =>
    match s.inflight[i]? with
    | some ⟨batch, st, false⟩ =>
      { s with inflight := s.inflight.set i ⟨batch, { st with txid }, true⟩ }
    | _ => s
  | .commit i =>
    match s.inflight[i]? with
    | some ⟨batch, st, true⟩ =>
      { service := commitSettlement st batch s.service, inflight := s.inflight.eraseIdx i }
    | _ => s

/-- When a call takes its snapshot, no other call for its node is under way. -/
def Alone (s : State F) : Op → Prop
  | .snapshot _ _ nodeID => ∀ c ∈ s.inflight, c.st.nodeID ≠ nodeID
  | .receipt .. | .submit .. | .commit .. => True

instance (s : State F) (op : Op) : Decidable (Alone s op) := by
  cases op <;> unfold Alone <;> infer_instance

/-- The receipt IDs of the settlements appended since `s₀`. -/
def settledIDs (s₀ s : Service F) : List String :=
  (s.settled.drop s₀.settled.length).flatMap (·.receiptIDs)

/-- Every receipt occurs in at most one appended settlement, and the spent amount
of each credited session grew by each of its settled receipts at most once. -/
structure AtMostOnce (s₀ s : Service F) : Prop where
  settlements : (settledIDs s₀ s).Nodup
  spend : ∀ sid p₀ p, s₀.prepaid.lookup sid = some p₀ → s.prepaid.lookup sid = some p →
    p.spentAtomic.toInt ≤ p₀.spentAtomic.toInt +
      ∑ id ∈ (settledIDs s₀ s).toFinset, valueAt (amountFor sid) s.receipts id

end definitions

section invariant
variable {F : Type}

/-- What holds of a call under way: its batch is stored, unsettled and its node's. -/
structure Pending (sha256 : String → List UInt8) (receipts : GoMap String Receipt) (c : Call) :
    Prop where
  prepared : Prepared sha256 c.st.nodeID c.batch c.st
  distinct : (c.batch.map (·.id)).Nodup
  stored : ∀ r ∈ c.batch,
    receipts.lookup r.id = some r ∧ r.nodeID = c.st.nodeID ∧ r.settled = false

/-- What the appended settlements say about the store and the credits. -/
structure Booked (s₀ s : Service F) (done : List String) : Prop where
  once : done.Nodup
  marked : ∀ id ∈ done, ∃ r, s.receipts.lookup id = some r ∧ r.settled = true
  spend : ∀ sid p₀, s₀.prepaid.lookup sid = some p₀ → ∃ p, s.prepaid.lookup sid = some p ∧
    p.spentAtomic.toInt ≤ p₀.spentAtomic.toInt +
      (done.map (valueAt (amountFor sid) s.receipts)).sum

structure Orderly (sha256 : String → List UInt8) (s₀ : Service F) (s : State F) : Prop where
  keyed : WellKeyed s.service.receipts
  calls : ∀ c ∈ s.inflight, Pending sha256 s.service.receipts c
  nodes : (s.inflight.map (·.st.nodeID)).Nodup
  appended : ∃ done, s.service.settled = s₀.settled ++ done ∧
    Booked s₀ s.service (done.flatMap (·.receiptIDs))

variable {sha256 : String → List UInt8} {s₀ : Service F} {s : State F}

theorem orderly_start (keyed : WellKeyed s₀.receipts) : Orderly sha256 s₀ ⟨s₀, []⟩ := by
  refine ⟨keyed, by simp, List.nodup_nil, [], by simp, List.nodup_nil, by simp, ?_⟩
  intro sid p₀ known
  exact ⟨p₀, known, by simp⟩

theorem Orderly.atMostOnce (h : Orderly sha256 s₀ s) : AtMostOnce s₀ s.service := by
  obtain ⟨done, appended, booked⟩ := h.appended
  have ids : settledIDs s₀ s.service = done.flatMap (·.receiptIDs) := by
    unfold settledIDs
    rw [appended, List.drop_left]
  refine ⟨by rw [ids]; exact booked.once, ?_⟩
  intro sid p₀ p before after
  obtain ⟨p', found, bound⟩ := booked.spend sid p₀ before
  obtain rfl := Option.some.inj (found.symm.trans after)
  rw [ids, List.sum_toFinset _ booked.once]
  exact bound

/-- The sum over the booked IDs survives a change of the store that keeps their
session and amount. -/
theorem Booked.sum_eq {s s' : Service F} {done : List String} (h : Booked s₀ s done) (sid : String)
    (keeps : ∀ id r, s.receipts.lookup id = some r →
      valueAt (amountFor sid) s'.receipts id = amountFor sid r) :
    (done.map (valueAt (amountFor sid) s'.receipts)).sum =
      (done.map (valueAt (amountFor sid) s.receipts)).sum := by
  congr 1
  apply List.map_congr_left
  intro id member
  obtain ⟨r, found, _⟩ := h.marked id member
  rw [keeps id r found]
  simp [valueAt, found]

theorem Orderly.receipt (h : Orderly sha256 s₀ s)
    {verify : List UInt8 → String → List UInt8 → Bool} {order : RangeOrder} {r : Receipt}
    {next : Service F} (accepted : recordReceipt verify order s.service r = .ok next) :
    Orderly sha256 s₀ { s with service := next } := by
  obtain ⟨rfl, _, fresh, _⟩ := recordReceipt_ok accepted
  obtain ⟨done, appended, booked⟩ := h.appended
  refine ⟨h.keyed.insert r, fun c member => ?_, h.nodes, done, appended, booked.once, ?_, ?_⟩
  · have pending := h.calls c member
    refine ⟨pending.prepared, pending.distinct, fun r' inBatch => ?_⟩
    obtain ⟨stored, rest⟩ := pending.stored r' inBatch
    exact ⟨lookup_insert_fresh fresh stored, rest⟩
  · intro id member
    obtain ⟨old, found, settled⟩ := booked.marked id member
    exact ⟨old, lookup_insert_fresh fresh found, settled⟩
  · intro sid p₀ before
    obtain ⟨p, found, bound⟩ := booked.spend sid p₀ before
    refine ⟨p, found, ?_⟩
    rw [booked.sum_eq sid fun id old stored => by
      rw [valueAt, lookup_insert_fresh fresh stored]
      rfl]
    exact bound

variable {st : Settlement}

theorem Orderly.snapshot (h : Orderly sha256 s₀ s) {order : RangeOrder} {now : Time}
    {nodeID : String}
    (prepared : prepareSettlement sha256 now nodeID (unsettled order s.service nodeID) = .ok st)
    (alone : ∀ c ∈ s.inflight, c.st.nodeID ≠ nodeID) :
    Orderly sha256 s₀
      { s with inflight := s.inflight ++ [⟨unsettled order s.service nodeID, st, false⟩] } := by
  have spec := prepareSettlement_ok prepared
  refine ⟨h.keyed, ?_, ?_, h.appended⟩
  · intro c member
    rcases List.mem_append.mp member with old | new
    · exact h.calls c old
    · obtain rfl := List.mem_singleton.mp new
      refine ⟨by rw [spec.nodeID]; exact spec, nodup_unsettled h.keyed, fun r inBatch => ?_⟩
      rw [spec.nodeID]
      exact (mem_unsettled h.keyed).mp inBatch
  · rw [List.map_append, List.nodup_append]
    refine ⟨h.nodes, List.nodup_singleton _, ?_⟩
    intro old member new single same
    obtain ⟨c, inflight, rfl⟩ := List.mem_map.mp member
    obtain rfl := List.mem_singleton.mp single
    exact alone c inflight (same.trans spec.nodeID)

theorem Orderly.submit (h : Orderly sha256 s₀ s) {i : ℕ} {batch : List Receipt}
    (found : s.inflight[i]? = some ⟨batch, st, false⟩) (txid : String) :
    Orderly sha256 s₀
      { s with inflight := s.inflight.set i ⟨batch, { st with txid }, true⟩ } := by
  obtain ⟨front, back, whole, _, replaced⟩ := Slots.split_at found
  have calls := h.calls
  have nodes := h.nodes
  rw [whole] at calls nodes
  refine ⟨h.keyed, ?_, ?_, h.appended⟩
  · rw [replaced]
    intro c member
    rcases List.mem_append.mp member with inFront | rest
    · exact calls c (by simp [inFront])
    · rcases List.mem_cons.mp rest with rfl | inBack
      · have old := calls ⟨batch, st, false⟩ (by simp)
        have p := old.prepared
        exact ⟨⟨p.nonempty, p.id, rfl, p.receiptIDs, p.amounts, p.nonneg, p.total⟩, old.distinct,
          old.stored⟩
      · exact calls c (by simp [inBack])
  · rw [replaced]
    simpa using nodes

variable {receipts : GoMap String Receipt}

theorem Pending.stored_receiptIDs {c : Call}
    (h : Pending sha256 receipts c) : ∀ id ∈ c.st.receiptIDs, (receipts.lookup id).isSome := by
  rw [h.prepared.receiptIDs]
  exact stored_ids fun r inBatch => (h.stored r inBatch).1

/-- A call for another node keeps its batch when a batch is committed. -/
theorem Pending.commit {c d : Call}
    (h : Pending sha256 receipts c) (mine : Pending sha256 receipts d)
    (apart : c.st.nodeID ≠ d.st.nodeID) :
    Pending sha256 (d.st.receiptIDs.foldl markSettled receipts) c := by
  refine ⟨h.prepared, h.distinct, fun r inBatch => ?_⟩
  obtain ⟨stored, node, flag⟩ := h.stored r inBatch
  have untouched : r.id ∉ d.st.receiptIDs := by
    rw [mine.prepared.receiptIDs]
    intro member
    obtain ⟨r', inBatch', same⟩ := List.mem_map.mp member
    obtain ⟨stored', node', _⟩ := mine.stored r' inBatch'
    rw [same] at stored'
    obtain rfl := Option.some.inj (stored.symm.trans stored')
    exact apart (node.symm.trans node')
  rw [lookup_markSettled, if_neg untouched]
  exact ⟨stored, node, flag⟩

theorem Booked.commit {s : Service F} {done : List String} (h : Booked s₀ s done) {c : Call}
    (pending : Pending sha256 s.receipts c) :
    Booked s₀ (commitSettlement c.st c.batch s) (done ++ c.st.receiptIDs) := by
  have ids := pending.prepared.receiptIDs
  have batchStored : ∀ r ∈ c.batch, s.receipts.lookup r.id = some r := fun r m =>
    (pending.stored r m).1
  have stored := pending.stored_receiptIDs
  have lookups := lookup_markSettled_of_stored stored
  refine ⟨?_, ?_, ?_⟩
  · rw [List.nodup_append]
    refine ⟨h.once, by rw [ids]; exact pending.distinct, ?_⟩
    -- A booked receipt is marked; one of the batch is not.
    intro id booked id' batch same
    subst same
    rw [ids] at batch
    obtain ⟨r, inBatch, rfl⟩ := List.mem_map.mp batch
    obtain ⟨stored', _, flag⟩ := pending.stored r inBatch
    obtain ⟨r', found, settled⟩ := h.marked r.id booked
    obtain rfl := Option.some.inj (stored'.symm.trans found)
    rw [flag] at settled
    cases settled
  · intro id member
    have after := lookups id
    rcases List.mem_append.mp member with booked | batch
    · obtain ⟨r, found, settled⟩ := h.marked id booked
      rw [found] at after
      exact ⟨_, after, by simp [settled]⟩
    · obtain ⟨r, found⟩ := Option.isSome_iff_exists.mp (stored id batch)
      rw [found] at after
      exact ⟨_, after, by simp [batch]⟩
  · intro sid p₀ before
    have values : ∀ id, valueAt (amountFor sid) (commitSettlement c.st c.batch s).receipts id =
        valueAt (amountFor sid) s.receipts id :=
      valueAt_markSettled (fun _ _ => rfl) stored
    obtain ⟨p, known, bound⟩ := h.spend sid p₀ before
    obtain ⟨p', found, grown⟩ := attributed_le known pending.prepared.amounts
    have batchSum := sum_valueAt (amountFor sid) batchStored
    refine ⟨p', found, ?_⟩
    rw [List.map_congr_left fun id _ => values id, List.map_append, List.sum_append, ids, batchSum]
    omega

theorem Orderly.commit (h : Orderly sha256 s₀ s) {i : ℕ} {batch : List Receipt}
    (found : s.inflight[i]? = some ⟨batch, st, true⟩) :
    Orderly sha256 s₀
      ⟨commitSettlement st batch s.service, s.inflight.eraseIdx i⟩ := by
  obtain ⟨front, back, whole, erased, _⟩ := Slots.split_at found
  have calls := h.calls
  have nodes := h.nodes
  rw [whole] at calls nodes
  have mine : Pending sha256 s.service.receipts ⟨batch, st, true⟩ := calls _ (by simp)
  have others : ∀ c ∈ front ++ back, Pending sha256 s.service.receipts c := by
    intro c member
    rcases List.mem_append.mp member with inFront | inBack
    · exact calls c (by simp [inFront])
    · exact calls c (by simp [inBack])
  obtain ⟨done, appended, booked⟩ := h.appended
  refine ⟨?_, ?_, ?_, done ++ [st], ?_, ?_⟩
  · exact h.keyed.markSettled mine.stored_receiptIDs
  · rw [erased]
    intro c member
    exact (others c member).commit mine (Slots.key_ne_of_nodup (·.st.nodeID) nodes member)
  · rw [erased]
    exact nodes.sublist (((List.sublist_cons_self _ back).append_left front).map _)
  · rw [commitSettlement, appended, List.append_assoc]
  · rw [List.flatMap_append, List.flatMap_singleton]
    exact booked.commit mine

theorem orderly_step (verify : List UInt8 → String → List UInt8 → Bool) (s : State F) (op : Op)
    (alone : Alone s op) (h : Orderly sha256 s₀ s) :
    Orderly sha256 s₀ (step verify sha256 s op) := by
  cases op with
  | receipt order r =>
    rw [step]
    rcases afterReceipt_cases verify order s.service r with ⟨unchanged, _⟩ | accepted
    · rw [unchanged]
      exact h
    · exact h.receipt accepted
  | snapshot order now nodeID =>
    simp only [step]
    split
    · exact h
    · next prepared => exact h.snapshot prepared alone
  | submit i txid =>
    simp only [step]
    split
    · next found => exact h.submit found txid
    · exact h
  | commit i =>
    simp only [step]
    split
    · next found => exact h.commit found
    · exact h

end invariant

/-- A sequential `RecordSettlement` whose submit succeeds is the schedule that
runs its three steps at once. -/
theorem recordSettlement_schedule {F : Type} (verify : List UInt8 → String → List UInt8 → Bool)
    (sha256 : String → List UInt8) (opts : Options F) (now : Time) (order : RangeOrder)
    (s : Service F) (nodeID : String) {st : Settlement} {txid : String}
    (prepared : prepareSettlement sha256 now nodeID (unsettled order s nodeID) = .ok st)
    (submitted : submitSettlement opts st (unsettled order s nodeID).length = .ok txid) :
    Run.run (step verify sha256) ⟨s, []⟩ [.snapshot order now nodeID, .submit 0 txid, .commit 0] =
      ⟨(recordSettlement sha256 opts now order s nodeID).2, []⟩ := by
  simp [Run.run, step, recordSettlement, prepared, submitted]

/-- As long as no call takes its snapshot while another call for its node is under way, every
receipt is settled at most once and attributed at most once, in every state of the run. -/
theorem settled_at_most_once {F : Type} (verify : List UInt8 → String → List UInt8 → Bool)
    (sha256 : String → List UInt8) (s₀ : Service F) (keyed : WellKeyed s₀.receipts) (ops : List Op)
    (alone : Run.Along (step verify sha256) Alone ⟨s₀, []⟩ ops) :
    Run.Throughout (step verify sha256) (fun s => AtMostOnce s₀ s.service) ⟨s₀, []⟩ ops :=
  (Run.throughout_of_invariant (orderly_start keyed) (orderly_step verify) alone).mono
    fun _ orderly => orderly.atMostOnce

section sample

/-- A service with a credit of 100 units for session `s`, and no receipts. -/
def funded : Service ℚ :=
  { issuer := Source.Tokens.newIssuer
    prepaid := AList.singleton "s" ⟨"s", "n", 100, 0, 1, 0, "tx"⟩
    receipts := ∅
    settled := [] }

theorem funded_keyed : WellKeyed funded.receipts := by
  intro id r found
  cases found

/-- A receipt of session `s` and node `n` over 5 units. -/
def usage (id : String) : Receipt :=
  ⟨id, "s", "n", "tok", 0, 0, 0, 5, false, .replicate 32 0, .replicate 64 0⟩

/-- A receipt arrives during a settlement and is settled by the next call. -/
def inTurn : List Op :=
  [ .receipt .forward (usage "r1"), .snapshot .forward 0 "n", .receipt .forward (usage "r2"),
    .submit 0 "tx1", .commit 0, .snapshot .backward 1 "n", .submit 0 "tx2", .commit 0 ]

/-- Two calls take their snapshots before either commits. -/
def overlapping : List Op :=
  [ .receipt .forward (usage "r1"), .snapshot .forward 0 "n", .snapshot .forward 0 "n",
    .submit 0 "tx1", .submit 1 "tx2", .commit 0, .commit 0 ]

theorem inTurn_settles_once :
    Run.Along (step anySignature noDigest) Alone ⟨funded, []⟩ inTurn ∧
    Run.Throughout (step anySignature noDigest) (fun s => AtMostOnce funded s.service) ⟨funded, []⟩
      inTurn ∧
    (Run.run (step anySignature noDigest) ⟨funded, []⟩ inTurn).service.settled.map (·.receiptIDs) =
      [["r1"], ["r2"]] := by
  have alone : Run.Along (step anySignature noDigest) Alone ⟨funded, []⟩ inTurn := by
    decide
  exact ⟨alone, settled_at_most_once anySignature noDigest funded funded_keyed inTurn alone,
    by decide⟩

/-- One receipt of 5 units ends up in two settlements, and 10 units are spent. -/
theorem overlapping_settles_twice :
    (Run.run (step anySignature noDigest) ⟨funded, []⟩ overlapping).service.settled.map
      (·.receiptIDs) = [["r1"], ["r1"]] ∧
    ((Run.run (step anySignature noDigest) ⟨funded, []⟩ overlapping).service.prepaid.lookup "s").map
      (·.spentAtomic) = some 10 ∧
    ¬ AtMostOnce funded (Run.run (step anySignature noDigest)
      ⟨funded, []⟩ overlapping).service := by
  refine ⟨by decide, by decide, fun once => ?_⟩
  exact absurd once.settlements (by decide)

end sample

end VeilNet.Guarantees.SettlementInterleaving
