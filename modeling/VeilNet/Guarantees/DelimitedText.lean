import Mathlib
import VeilNet.Source.Payments.Effects

/-!
# Texts that stand for records

A receipt is signed as its fields joined by `|`, and a batch is named by the hash of its sorted
receipt IDs joined by `,`. The IDs are arbitrary texts, so a signature binds one receipt, and a
batch ID one set, exactly as far as the separators stand in the same places.
-/
namespace VeilNet.Guarantees.DelimitedText
open Lib Source.Payments
open GoText (bars)

section receipts

/-- The two receipts agree on every field that `SignReceipt` signs. -/
structure SameContent (r r' : Receipt) : Prop where
  id : r.id = r'.id
  sessionID : r.sessionID = r'.sessionID
  nodeID : r.nodeID = r'.nodeID
  tokenID : r.tokenID = r'.tokenID
  rxBytes : r.rxBytes = r'.rxBytes
  txBytes : r.txBytes = r'.txBytes
  minutes : r.minutes = r'.minutes
  amount : r.amount = r'.amount

/-- Receipt ID, session ID and node ID hold as many `|` in the one receipt as in
the other. -/
structure SameBars (r r' : Receipt) : Prop where
  id : bars r.id = bars r'.id
  sessionID : bars r.sessionID = bars r'.sessionID
  nodeID : bars r.nodeID = bars r'.nodeID

def words (r : Receipt) : List (List Char) :=
  [r.id.toList, r.sessionID.toList, r.nodeID.toList, r.tokenID.toList,
    (toString r.rxBytes.toNat).toList, (toString r.txBytes.toNat).toList,
    (toString r.minutes.toNat).toList, (toString r.amount.toInt).toList]

theorem toList_receiptBody (r : Receipt) :
    (receiptBody r).toList = ['|'].intercalate (words r) := by
  rw [receiptBody, String.toList_intercalate]
  rfl

variable {r r' : Receipt}

theorem receiptBody_inj_iff :
    receiptBody r = receiptBody r' ↔ ['|'].intercalate (words r) =
      ['|'].intercalate (words r') := by
  rw [← String.toList_inj, toList_receiptBody, toList_receiptBody]

theorem count_words (r : Receipt) :
    (words r).map (List.count '|') =
      [bars r.id, bars r.sessionID, bars r.nodeID, bars r.tokenID, 0, 0, 0, 0] := by
  have natural : ∀ n : ℕ, (toString n).toList.count '|' = 0 := GoText.count_toString_nat (by decide)
  have integer : ∀ k : ℤ, (toString k).toList.count '|' = 0 :=
    GoText.count_toString_int (by decide) (by decide)
  simp only [words, List.map_cons, List.map_nil, natural, integer, bars]

/-- Receipts with the same signed text and the same number of `|` in their first
three IDs have the same content. -/
theorem sameContent_of_body (body : receiptBody r = receiptBody r')
    (same : SameBars r r') : SameContent r r' := by
  have joined := receiptBody_inj_iff.mp body
  -- the whole text holds equally many bars, so the fourth word does too
  have token : bars r.tokenID = bars r'.tokenID := by
    have total := congrArg (List.count '|') joined
    rw [Separator.count_intercalate, Separator.count_intercalate, count_words, count_words, same.id,
      same.sessionID, same.nodeID] at total
    simpa [words] using total
  have counts : (words r).map (List.count '|') = (words r').map (List.count '|') := by
    rw [count_words, count_words, same.id, same.sessionID, same.nodeID, token]
  have equal := Separator.intercalate_inj_of_count counts joined
  simp only [words, List.cons.injEq, String.toList_inj, and_true] at equal
  obtain ⟨id, sessionID, nodeID, tokenID, rxBytes, txBytes, minutes, amount⟩ := equal
  exact
    { id, sessionID, nodeID, tokenID
      rxBytes := UInt64.toNat_inj.mp (Nat.repr_inj.mp rxBytes)
      txBytes := UInt64.toNat_inj.mp (Nat.repr_inj.mp txBytes)
      minutes := UInt64.toNat_inj.mp (Nat.repr_inj.mp minutes)
      amount := Int64.toInt_inj.mp (Int.repr_inj.mp amount) }

theorem SameContent.sameBars (h : SameContent r r') : SameBars r r' :=
  ⟨by rw [h.id], by rw [h.sessionID], by rw [h.nodeID]⟩

variable {verify : List UInt8 → String → List UInt8 → Bool}

theorem verifyReceipt_ok (passes : verifyReceipt verify r = .ok ()) :
    verify r.nodePub (receiptBody r) r.sig = true := by
  unfold verifyReceipt at passes
  split at passes
  · cases passes
  · split at passes
    · cases passes
    · split at passes
      · cases passes
      · next verified => simpa using verified

end receipts

/-- Two receipts under one signature of one key agree on all signed fields exactly
when their IDs hold equally many `|`. Then the second cannot be recorded beside the
first. -/
theorem signature_binds_iff {F : Type} (verify : List UInt8 → String → List UInt8 → Bool)
    (oneMessage : ∀ pub sig m m', verify pub m sig = true → verify pub m' sig = true → m = m')
    (r r' : Receipt) (sameKey : r.nodePub = r'.nodePub) (sameSig : r.sig = r'.sig)
    (passes : verifyReceipt verify r = .ok ()) (passes' : verifyReceipt verify r' = .ok ()) :
    (SameContent r r' ↔ SameBars r r') ∧
    (SameBars r r' → ∀ (order : RangeOrder) (s next : Service F),
      (s.receipts.lookup r.id).isSome = true → recordReceipt verify order s r' ≠ .ok next) := by
  have body : receiptBody r = receiptBody r' := by
    have signed := verifyReceipt_ok passes
    rw [sameKey, sameSig] at signed
    exact oneMessage r'.nodePub r'.sig _ _ signed (verifyReceipt_ok passes')
  refine ⟨⟨SameContent.sameBars, sameContent_of_body body⟩, ?_⟩
  intro same order s next stored accepted
  have fresh := (recordReceipt_ok accepted).2.2.1
  rw [← (sameContent_of_body body same).id] at fresh
  rw [fresh] at stored
  cases stored

section sampleReceipts

/-- A receipt over 5 atomic units with the given receipt and session ID. -/
def usage (id sessionID : String) : Receipt :=
  ⟨id, sessionID, "node", "tok", 1, 2, 3, 5, false, .replicate 32 0, .replicate 64 0⟩

/-- One message is signed: the body of the receipt `a|b` of session `c`. -/
def signedOnce (_ : List UInt8) (message : String) (_ : List UInt8) : Bool :=
  message == "a|b|c|node|tok|1|2|3|5"

theorem signedOnce_oneMessage (pub sig : List UInt8) (m m' : String)
    (first : signedOnce pub m sig = true) (second : signedOnce pub m' sig = true) : m = m' :=
  (beq_iff_eq.mp first).trans (beq_iff_eq.mp second).symm

/-- The receipt before and after it is settled. -/
theorem usage_bound : SameContent (usage "a|b" "c") { usage "a|b" "c" with settled := true } :=
  (signature_binds_iff (F := ℚ) signedOnce signedOnce_oneMessage (usage "a|b" "c")
    { usage "a|b" "c" with settled := true } rfl rfl (by decide) (by decide)).1.mpr
    ⟨rfl, rfl, rfl⟩

/-- The signature for receipt `a|b` of session `c` also passes for receipt `a` of
session `b|c`, and both are recorded. -/
theorem usage_recorded_twice :
    (∀ pub sig m m', signedOnce pub m sig = true → signedOnce pub m' sig = true → m = m') ∧
    verifyReceipt signedOnce (usage "a|b" "c") = .ok () ∧
    verifyReceipt signedOnce (usage "a" "b|c") = .ok () ∧
    (usage "a|b" "c").id ≠ (usage "a" "b|c").id ∧
    (recordReceipt signedOnce .forward (newService ℚ Source.Tokens.newIssuer) (usage "a|b" "c") >>=
      fun s => recordReceipt signedOnce .forward s (usage "a" "b|c")).isOk = true :=
  ⟨signedOnce_oneMessage, by decide, by decide, by decide, by decide⟩

end sampleReceipts

section batches

/-- The IDs in the order in which they are joined. -/
def sorted (ids : List String) : List String := ids.insertionSort (· ≤ ·)

/-- The comma-free pieces of the IDs, in that order. -/
def pieces (ids : List String) : List (List Char) := (sorted ids).flatMap (·.toList.splitOn ',')

/-- How many commas each ID holds, in that order. -/
def commas (ids : List String) : List ℕ := (sorted ids).map (·.toList.count ',')

variable {ids : List String}

theorem mem_sorted {id : String} : id ∈ sorted ids ↔ id ∈ ids :=
  (List.perm_insertionSort (· ≤ ·) ids).mem_iff

variable {ids' : List String}

theorem sorted_eq_iff : sorted ids = sorted ids' ↔ ids.Perm ids' := by
  constructor
  · intro same
    have perm := List.perm_insertionSort (· ≤ ·) ids'
    rw [show ids'.insertionSort (· ≤ ·) = sorted ids from same.symm] at perm
    exact (List.perm_insertionSort (· ≤ ·) ids).symm.trans perm
  · intro perm
    refine List.Perm.eq_of_pairwise (fun _ _ _ _ => le_antisymm)
      (List.pairwise_insertionSort (· ≤ ·) ids) (List.pairwise_insertionSort (· ≤ ·) ids') ?_
    exact ((List.perm_insertionSort (· ≤ ·) ids).trans perm).trans
      (List.perm_insertionSort (· ≤ ·) ids').symm

variable {sha256 : String → List UInt8}

theorem batchIDFor_eq_iff (collisionFree : Function.Injective sha256) :
    batchIDFor sha256 ids = batchIDFor sha256 ids' ↔
      [','].intercalate ((sorted ids).map String.toList) =
        [','].intercalate ((sorted ids').map String.toList) := by
  have text : ∀ ids, (",".intercalate (sorted ids)).toList =
      [','].intercalate ((sorted ids).map String.toList) := fun ids => String.toList_intercalate
  rw [← text, ← text, String.toList_inj]
  constructor
  · intro same
    have digits : GoText.hexEncode (sha256 (",".intercalate (sorted ids))) =
        GoText.hexEncode (sha256 (",".intercalate (sorted ids'))) := by
      have chars := congrArg String.toList same
      simp only [batchIDFor, String.toList_append, List.append_cancel_left_eq] at chars
      exact String.toList_inj.mp chars
    exact collisionFree (GoText.hexEncode_injective digits)
  · intro same
    unfold batchIDFor
    rw [show ids.insertionSort (· ≤ ·) = sorted ids from rfl, same]
    rfl

/-- Non-empty IDs have one batch ID exactly when they have the same pieces. -/
theorem batchIDFor_eq_iff_pieces (collisionFree : Function.Injective sha256)
    (named : ∀ id ∈ ids, id ≠ "") (named' : ∀ id ∈ ids', id ≠ "") :
    batchIDFor sha256 ids = batchIDFor sha256 ids' ↔ pieces ids = pieces ids' := by
  have nonempty : ∀ {ids : List String}, (∀ id ∈ ids, id ≠ "") →
      ∀ word ∈ (sorted ids).map String.toList, word ≠ [] := by
    intro ids named word member
    obtain ⟨id, inSorted, rfl⟩ := List.mem_map.mp member
    have text := named id (mem_sorted.mp inSorted)
    simpa using text
  rw [batchIDFor_eq_iff collisionFree,
    Separator.intercalate_eq_iff (nonempty named) (nonempty named'), List.flatMap_map,
    List.flatMap_map]
  rfl

theorem perm_iff_pieces_commas :
    ids.Perm ids' ↔ pieces ids = pieces ids' ∧ commas ids = commas ids' := by
  have chars : sorted ids = sorted ids' ↔
      (sorted ids).map String.toList = (sorted ids').map String.toList :=
    (List.map_injective_iff.mpr fun _ _ => String.toList_injective).eq_iff.symm
  rw [← sorted_eq_iff, chars, @Separator.eq_iff_pieces_counts Char ',' _ _]
  simp only [List.flatMap_map, List.map_map]
  rfl

theorem commas_of_commaFree (free : ∀ id ∈ ids, ',' ∉ id.toList)
    (free' : ∀ id ∈ ids', ',' ∉ id.toList) (same : pieces ids = pieces ids') :
    commas ids = commas ids' := by
  have whole : ∀ {ids : List String}, (∀ id ∈ ids, ',' ∉ id.toList) →
      pieces ids = (sorted ids).map String.toList := by
    intro ids free
    rw [pieces, List.map_eq_flatMap]
    refine List.flatMap_congr fun id member => ?_
    exact List.splitOn_eq_singleton (free id (mem_sorted.mp member))
  rw [whole free, whole free'] at same
  unfold commas
  have counts := congrArg (List.map (List.count ',')) same
  rwa [List.map_map, List.map_map] at counts

end batches

/-- For receipt IDs that `RecordReceipt` accepts: batch IDs tell two lists apart exactly as
permutations do, if and only if lists of the same comma-free pieces also agree on their commas.
Lists without commas do. -/
theorem batchID_identifies_iff (sha256 : String → List UInt8)
    (collisionFree : Function.Injective sha256) (ids ids' : List String)
    (named : ∀ id ∈ ids, id ≠ "") (named' : ∀ id ∈ ids', id ≠ "") :
    (batchIDFor sha256 ids = batchIDFor sha256 ids' ↔ ids.Perm ids') ↔
      (pieces ids = pieces ids' → commas ids = commas ids') := by
  rw [batchIDFor_eq_iff_pieces collisionFree named named', perm_iff_pieces_commas]
  constructor
  · intro identified same
    exact (identified.mp same).2
  · intro agree
    exact ⟨fun same => ⟨same, agree same⟩, fun both => both.1⟩

section sampleBatches

theorem plain_ids_identified :
    batchIDFor GoText.utf8 ["r1", "r2"] = batchIDFor GoText.utf8 ["r2", "r1"] ↔
      ["r1", "r2"].Perm ["r2", "r1"] := by
  refine (batchID_identifies_iff GoText.utf8 GoText.utf8_injective ["r1", "r2"] ["r2", "r1"]
    (by decide) (by decide)).mpr (commas_of_commaFree ?_ ?_)
  · simp
  · simp

/-- One receipt `a,b` and two receipts `a` and `b` make batches of one ID. -/
theorem comma_batches_collide :
    batchIDFor GoText.utf8 ["a,b"] = batchIDFor GoText.utf8 ["a", "b"] ∧
      ¬ ["a,b"].Perm ["a", "b"] := by
  refine ⟨by decide, fun perm => ?_⟩
  cases perm.length_eq

end sampleBatches

end VeilNet.Guarantees.DelimitedText
