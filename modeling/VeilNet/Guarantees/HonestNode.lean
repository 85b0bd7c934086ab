import VeilNet.Source.Reputation
import VeilNet.Lib.Run

/-!
# Slashing an honest node

A node signs with one key, at most one body for each receipt ID. Nothing ties what evidence shows
to the key of the node it names: a receipt whose signature does not verify is a forged one of
whoever is accused, and two receipts under any other key settle twice. And an ID may contain the
separator of the signed text, so that two honest receipts are read under one ID. Apart from these,
an honest node is not slashed.
-/
namespace VeilNet.Guarantees.HonestNode
open Lib Source.Reputation

inductive Op (F : Type) where
  | add (e : Evidence) (saved : Except String Unit)
  | recordSession (nodeID : String) (ok : Bool) (saved : Except String Unit)
  | setNodeInfo (nodeID : String) (bondDERO uptime : F)

def step {F : Type} (codec : Codec) (s : Store F) : Op F → Store F
  | .add e saved => (s.add codec saved e).2
  | .recordSession nodeID ok saved => (s.recordSession saved nodeID ok).2
  | .setNodeInfo nodeID bondDERO uptime => s.setNodeInfo nodeID bondDERO uptime

/-- What the holder of `key` has signed, and that nothing else verifies under it: the
texts of `receipts`, one for each receipt ID. -/
structure Honest (codec : Codec) (key : List UInt8) (receipts : ReceiptView → Prop) : Prop where
  unforgeable : ∀ message sig, codec.ed25519Verify key message sig = true →
    ∃ r, receipts r ∧ message = GoText.utf8 (receiptBody r)
  once : ∀ r r', receipts r → receipts r' → r.id = r'.id → receiptBody r = receiptBody r'

/-- The node is not slashed, and its score is the one without a slash. -/
def Unslashed {F : Type} [GoFloatSum F] (nodeID : String) (s : Store F) : Prop :=
  s.slashed nodeID = false ∧ s.reputationScore nodeID = score (s.scoreInput nodeID false)

/-- Slashable evidence that names the node is a double settlement under its key. -/
def Tied {F : Type} (codec : Codec) (nodeID : String) (key : List UInt8) (_ : Store F) : Op F → Prop
  | .add e _ => e.nodeID = nodeID → isSlashable e.kind = true →
      e.kind = kindDoubleSettlement ∧
        ∀ a b, codec.decodeDoubleSettlement e.proof = .ok (a, b) → a.nodePub = key
  | .recordSession .. | .setNodeInfo .. => True

/-- The text before the first separator is read off the receipt ID alone. -/
theorem firstField_receiptBody (r : ReceiptView) :
    (receiptBody r).toList.takeWhile (· ≠ '|') = r.id.toList.takeWhile (· ≠ '|') := by
  simp only [receiptBody, String.toList_append, List.append_assoc]
  rw [List.takeWhile_append]
  split
  · next whole =>
    have separator : List.takeWhile (· ≠ '|') ("|".toList ++ ("|".intercalate
        [r.sessionID, r.nodeID, r.tokenID, toString r.rxBytes.toNat, toString r.txBytes.toNat,
          toString r.minutes.toNat, toString r.amount.toInt]).toList) = [] := by
      simp
    rw [separator, List.append_nil]
    exact ((List.takeWhile_prefix _).eq_of_length whole).symm
  · rfl

/-- Two texts that the node has signed and that can be read under one ID are the same. -/
theorem Honest.body_unique {codec : Codec} {key : List UInt8} {receipts : ReceiptView → Prop}
    (h : Honest codec key receipts) (plain : ∀ r, receipts r → '|' ∉ r.id.toList)
    {a b : ReceiptView} {sigA sigB : List UInt8} (sameID : a.id = b.id)
    (signedA : codec.ed25519Verify key (GoText.utf8 (receiptBody a)) sigA = true)
    (signedB : codec.ed25519Verify key (GoText.utf8 (receiptBody b)) sigB = true) :
    receiptBody a = receiptBody b := by
  obtain ⟨r, isReceipt, bodyA⟩ := h.unforgeable _ _ signedA
  obtain ⟨r', isReceipt', bodyB⟩ := h.unforgeable _ _ signedB
  have textA := GoText.utf8_injective bodyA
  have textB := GoText.utf8_injective bodyB
  have field : ∀ r, receipts r → (receiptBody r).toList.takeWhile (· ≠ '|') = r.id.toList := by
    intro r isReceipt
    rw [firstField_receiptBody, List.takeWhile_eq_self_iff]
    intro c member
    have other : c ≠ '|' := fun same => plain r isReceipt (same ▸ member)
    simpa using other
  have ids : r.id = r'.id := by
    rw [← String.toList_inj, ← field r isReceipt, ← field r' isReceipt', ← textA, ← textB,
      firstField_receiptBody, firstField_receiptBody, sameID]
  rw [textA, textB]
  exact h.once r r' isReceipt isReceipt' ids

section steps
variable {F : Type} {codec : Codec} {nodeID : String} {key : List UInt8}
  {receipts : ReceiptView → Prop}

/-- Evidence that verifies and is tied to the node's key does not slash it. -/
theorem Honest.not_slashable (h : Honest codec key receipts)
    (plain : ∀ r, receipts r → '|' ∉ r.id.toList) {e : Evidence} (valid : codec.verify e = .ok ())
    {saved : Except String Unit} {s : Store F} (tied : Tied codec nodeID key s (.add e saved))
    (named : e.nodeID = nodeID) : isSlashable e.kind = false := by
  cases slashable : isSlashable e.kind with
  | false => rfl
  | true =>
    obtain ⟨kind, underKey⟩ := tied named slashable
    obtain ⟨a, b, decoded, sameID, differ, sameKey, signedA, signedB⟩ :=
      verifyDoubleSettlement_ok (verify_doubleSettlement valid kind)
    have keyA := underKey a b decoded
    rw [keyA] at signedA
    rw [← sameKey, keyA] at signedB
    exact absurd (h.body_unique plain sameID signedA signedB) differ

theorem slashed_append (s : Store F) (e : Evidence) :
    Store.slashed { s with evidence := s.evidence ++ [e] } nodeID =
      (s.slashed nodeID || (decide (e.nodeID = nodeID) && isSlashable e.kind)) := by
  simp [Store.slashed]

theorem Honest.step (h : Honest codec key receipts)
    (plain : ∀ r, receipts r → '|' ∉ r.id.toList) {s : Store F} {op : Op F}
    (tied : Tied codec nodeID key s op) (clean : s.slashed nodeID = false) :
    (step codec s op).slashed nodeID = false := by
  cases op with
  | add e saved =>
    rcases add_evidence saved s e with ⟨same, _⟩ | ⟨added, valid⟩
    · rw [HonestNode.step, same]
      exact clean
    · rw [HonestNode.step, added, slashed_append, clean, Bool.false_or, Bool.and_eq_false_imp]
      intro named
      exact h.not_slashable plain valid tied (of_decide_eq_true named)
  | recordSession other ok saved =>
    have same : (HonestNode.step codec s (.recordSession other ok saved)).evidence =
        s.evidence := by
      rw [HonestNode.step, Store.recordSession]
      split
      · rfl
      · dsimp only
        split <;> rfl
    rw [Store.slashed, same]
    exact clean
  | setNodeInfo other bondDERO uptime => exact clean

end steps

/-- Any evidence, from any reporters: while the evidence against the node that could
slash it is about its own key, and its receipt IDs are free of the separator, it is
never slashed. -/
theorem honest_unslashed {F : Type} [GoFloatSum F] (codec : Codec) (nodeID : String)
    (key : List UInt8) (receipts : ReceiptView → Prop) (honest : Honest codec key receipts)
    (plain : ∀ r, receipts r → '|' ∉ r.id.toList) (s : Store F) (clean : s.slashed nodeID = false)
    (ops : List (Op F)) (tied : Run.Along (step codec) (Tied codec nodeID key) s ops) :
    Run.Throughout (step codec) (Unslashed nodeID) s ops := by
  have preserved : ∀ (s : Store F) op, Tied codec nodeID key s op → s.slashed nodeID = false →
      (step codec s op).slashed nodeID = false := fun _ _ met before => honest.step plain met before
  have kept : Run.Throughout (step codec) (fun s => s.slashed nodeID = false) s ops :=
    Run.throughout_of_invariant clean preserved tied
  refine kept.mono fun s unslashed => ⟨unslashed, ?_⟩
  rw [Store.reputationScore, unslashed]

section sample

def nodeKey : List UInt8 := List.replicate 32 7

def receipt (id sessionID : String) (minutes : UInt64) (nodePub : List UInt8) : ReceiptView :=
  { id, sessionID, nodeID := "n", tokenID := "t", rxBytes := 0, txBytes := 0, minutes, amount := 5,
    nodePub, sig := List.replicate 64 0 }

/-- Under the node's key exactly the texts of `signed` verify; the adversary has all
other keys. The first byte of a proof says which receipts it holds. -/
def sampleCodec (signed : List ReceiptView) : Codec where
  ed25519Verify key message _ :=
    key ≠ nodeKey || (signed.map fun r => GoText.utf8 (receiptBody r)).contains message
  decodeDoubleSettlement proof := match proof with
    | [1] => .ok (receipt "r" "s" 1 nodeKey, receipt "r" "s" 1 nodeKey)
    | [2] => .ok (receipt "r" "s" 1 (List.replicate 32 9), receipt "r" "s" 2 (List.replicate 32 9))
    | _ => .ok (receipt "r" "1|s" 1 nodeKey, receipt "r" "2|s" 2 nodeKey)
  decodeForgedReceipt _ := .ok (receipt "r" "s" 999 nodeKey, "")
  decodeAdvisory _ := .ok ()

theorem sampleCodec_honest {signed : List ReceiptView}
    (once : ∀ r ∈ signed, ∀ r' ∈ signed, r.id = r'.id → receiptBody r = receiptBody r') :
    Honest (sampleCodec signed) nodeKey (· ∈ signed) := by
  refine ⟨fun message sig verified => ?_, fun r r' member member' => once r member r' member'⟩
  simp only [sampleCodec, ne_eq, not_true_eq_false, decide_false, Bool.false_or,
    List.contains_iff_mem, List.mem_map] at verified
  obtain ⟨r, member, rfl⟩ := verified
  exact ⟨r, member, rfl⟩

/-- Evidence against `n`, from a reporter who is not `n`. -/
def accusation (kind : String) (proof : List UInt8) : Evidence :=
  { kind, nodeID := "n", proof, reporter := List.replicate 32 3, sig := List.replicate 64 0,
    observedAt := 0 }

/-- One receipt: the same receipt twice proves nothing, and advisories are stored. -/
theorem oneReceipt_unslashed :
    Run.Throughout (step (sampleCodec [receipt "r" "s" 1 nodeKey])) (Unslashed "n") (emptyStore ℚ)
      [ .add (accusation kindDoubleSettlement [1]) (.ok ()), .recordSession "n" true (.ok ()),
        .add (accusation kindLatency []) (.ok ()), .setNodeInfo "n" 100 1 ] := by
  refine honest_unslashed (sampleCodec [receipt "r" "s" 1 nodeKey]) "n" nodeKey _
    (sampleCodec_honest (by decide)) (by decide) (emptyStore ℚ) rfl _ ?_
  refine ⟨fun _ _ => ⟨rfl, fun a b decoded => ?_⟩, trivial, fun _ slashable => ?_, trivial, trivial⟩
  · cases decoded
    rfl
  · exact absurd slashable (by decide)

/-- The store after one accusation. -/
def accused (signed : List ReceiptView) (kind : String) (proof : List UInt8) : Store ℚ :=
  step (sampleCodec signed) (emptyStore ℚ) (.add (accusation kind proof) (.ok ()))

/-- An honest node is slashed by a receipt of its own that someone has tampered with, by
two receipts under another key, and by two honest receipts whose IDs contain the
separator. -/
theorem honest_slashed :
    (Honest (sampleCodec [receipt "r" "s" 1 nodeKey]) nodeKey (· ∈ [receipt "r" "s" 1 nodeKey]) ∧
      (accused [receipt "r" "s" 1 nodeKey] kindForgedReceipt []).slashed "n" = true ∧
      (accused [receipt "r" "s" 1 nodeKey] kindDoubleSettlement [2]).slashed "n" = true) ∧
    (Honest (sampleCodec [receipt "r|1" "s" 1 nodeKey, receipt "r|2" "s" 2 nodeKey]) nodeKey
        (· ∈ [receipt "r|1" "s" 1 nodeKey, receipt "r|2" "s" 2 nodeKey]) ∧
      (accused [receipt "r|1" "s" 1 nodeKey, receipt "r|2" "s" 2 nodeKey] kindDoubleSettlement
        [3]).slashed "n" = true) :=
  ⟨⟨sampleCodec_honest (by decide), by decide, by decide⟩,
    sampleCodec_honest (by decide), by decide⟩

end sample

end VeilNet.Guarantees.HonestNode
