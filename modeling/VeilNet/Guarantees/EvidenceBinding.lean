import Mathlib
import VeilNet.Source.Reputation

/-!
# What a reporter's signature binds

Evidence is signed as its kind, node, proof and time with `|` between them. The first and the last
`|` are found again, but a node ID and a proof may hold some, and a proof is read only as far as
its first JSON value: bytes may move between the two.
-/
namespace VeilNet.Guarantees.EvidenceBinding
open Lib Source.Reputation
open GoText (bars)

/-- The two accuse one node of the same, by the same proof, at the same second. -/
structure SameAccusation (e e' : Evidence) : Prop where
  kind : e.kind = e'.kind
  nodeID : e.nodeID = e'.nodeID
  proof : e.proof = e'.proof
  seconds : unix e.observedAt = unix e'.observedAt

def bar : UInt8 := UInt8.ofNat '|'.val.toNat

theorem count_bar_utf8 (s : String) : (GoText.utf8 s).count bar = bars s :=
  GoText.count_utf8 (by decide) s

theorem bar_notMem_utf8 {s : String} (free : bars s = 0) : bar ∉ GoText.utf8 s :=
  List.count_eq_zero.mp ((count_bar_utf8 s).trans free)

theorem bodyBytes_eq (e : Evidence) :
    e.bodyBytes = GoText.utf8 e.kind ++ bar :: (GoText.utf8 e.nodeID ++ bar :: e.proof ++
      bar :: GoText.utf8 (toString (unix e.observedAt))) := by
  have text : GoText.utf8 "|" = [bar] := by decide
  simp [Evidence.bodyBytes, GoText.utf8_append, text]

theorem bars_kind {e : Evidence} (known : isSlashable e.kind = true ∨ isAdvisory e.kind = true) :
    bars e.kind = 0 := by
  simp only [isSlashable, isAdvisory, Bool.or_eq_true, decide_eq_true_eq] at known
  rcases known with (h | h) | (h | h) | h <;> rw [h] <;> decide

theorem bars_unix (t : Time) : bars (toString (unix t)) = 0 :=
  GoText.count_toString_int (by decide) (by decide) (unix t)

/-- Of two equal bodies the kinds and the seconds agree, and so does what lies between. -/
theorem between_of_bodyBytes {e e' : Evidence} (known : bars e.kind = 0) (known' : bars e'.kind = 0)
    (body : e.bodyBytes = e'.bodyBytes) :
    e.kind = e'.kind ∧ unix e.observedAt = unix e'.observedAt ∧
      GoText.utf8 e.nodeID ++ bar :: e.proof = GoText.utf8 e'.nodeID ++ bar :: e'.proof := by
  rw [bodyBytes_eq, bodyBytes_eq] at body
  obtain ⟨kinds, rest⟩ :=
    Separator.first_separator (bar_notMem_utf8 known) (bar_notMem_utf8 known') body
  obtain ⟨between, seconds⟩ := Separator.last_separator (bar_notMem_utf8 (bars_unix e.observedAt))
    (bar_notMem_utf8 (bars_unix e'.observedAt)) rest
  exact ⟨GoText.utf8_injective kinds, Int.repr_inj.mp (GoText.utf8_injective seconds), between⟩

theorem of_verify {codec : Codec} {e : Evidence} (passes : codec.verify e = .ok ()) :
    (isSlashable e.kind = true ∨ isAdvisory e.kind = true) ∧
      codec.ed25519Verify e.reporter e.bodyBytes e.sig = true := by
  obtain ⟨_, known, passes⟩ := Outcome.of_bind_ok passes
  obtain ⟨_, _, passes⟩ := Outcome.of_bind_ok passes
  obtain ⟨_, reported, _⟩ := Outcome.of_bind_ok passes
  obtain ⟨_, _, reported⟩ := Outcome.of_bind_ok reported
  obtain ⟨_, _, signed⟩ := Outcome.of_bind_ok reported
  have known := Outcome.of_refuseIf_ok known
  rw [not_and_or, Bool.not_eq_false, Bool.not_eq_false] at known
  exact ⟨known, by simpa using Outcome.of_refuseIf_ok signed⟩

/-- Two pieces of evidence under one signature of one reporter are of one kind and of
one second. They are one accusation exactly when their node IDs hold equally many `|`. -/
theorem evidence_binds_iff (codec : Codec)
    (oneMessage : ∀ pub sig m m', codec.ed25519Verify pub m sig = true →
      codec.ed25519Verify pub m' sig = true → m = m')
    (e e' : Evidence) (sameReporter : e.reporter = e'.reporter) (sameSig : e.sig = e'.sig)
    (passes : codec.verify e = .ok ()) (passes' : codec.verify e' = .ok ()) :
    (e.kind = e'.kind ∧ unix e.observedAt = unix e'.observedAt) ∧
      (SameAccusation e e' ↔ bars e.nodeID = bars e'.nodeID) := by
  obtain ⟨known, signed⟩ := of_verify passes
  obtain ⟨known', signed'⟩ := of_verify passes'
  rw [sameReporter, sameSig] at signed
  have body : e.bodyBytes = e'.bodyBytes := oneMessage e'.reporter e'.sig _ _ signed signed'
  obtain ⟨kinds, seconds, between⟩ := between_of_bodyBytes (bars_kind known) (bars_kind known') body
  refine ⟨⟨kinds, seconds⟩, fun same => by rw [same.nodeID], fun same => ?_⟩
  have counts : (GoText.utf8 e.nodeID).count bar = (GoText.utf8 e'.nodeID).count bar := by
    rw [count_bar_utf8, count_bar_utf8, same]
  obtain ⟨nodes, proofs⟩ := Separator.separator_of_count counts between
  exact ⟨kinds, GoText.utf8_injective nodes, proofs, seconds⟩

section instances

/-- A forged-receipt proof: a receipt whose key and signature are zero bytes. -/
def forgedProof : String :=
  "\x7b\"receipt\":\x7b\"id\":\"r\",\"node_pub\":\"" ++ String.ofList (.replicate 43 'A') ++
    "=\",\"sig\":\"" ++ String.ofList (.replicate 86 'A') ++ "==\"\x7d\x7d"

/-- One message is signed. The JSON decoder reads the first value and is content with
whatever follows it. -/
def signedOnce (message : List UInt8) : Codec where
  ed25519Verify _ m _ := m == message
  decodeDoubleSettlement _ := .error "json: unknown field"
  decodeForgedReceipt raw :=
    if (GoText.utf8 forgedProof).isPrefixOf raw then
      .ok (⟨"r", "", "", "", 0, 0, 0, 0, .replicate 32 0, .replicate 64 0⟩, "")
    else .error "unexpected EOF"
  decodeAdvisory _ := .ok ()

theorem signedOnce_oneMessage (message : List UInt8) (pub sig m m' : List UInt8)
    (first : (signedOnce message).ed25519Verify pub m sig = true)
    (second : (signedOnce message).ed25519Verify pub m' sig = true) : m = m' :=
  (beq_iff_eq.mp first).trans (beq_iff_eq.mp second).symm

def accusation (nodeID proof : String) (observedAt : Time) : Evidence :=
  ⟨kindForgedReceipt, nodeID, GoText.utf8 proof, .replicate 32 1, .replicate 64 1, observedAt⟩

/-- One accusation, with the times of two clocks in one second. -/
theorem accusation_bound :
    SameAccusation (accusation "a" forgedProof 0) (accusation "a" forgedProof 1) := by
  refine (evidence_binds_iff (signedOnce (accusation "a" forgedProof 0).bodyBytes)
    (signedOnce_oneMessage _) (accusation "a" forgedProof 0) (accusation "a" forgedProof 1) rfl rfl
    ?_ ?_).2.mpr rfl
  · decide
  · decide

/-- The signature under an accusation of a node with `|` in its ID also accuses the
node before the `|`. -/
theorem accusation_moves : ¬ ∀ (codec : Codec), (∀ pub sig m m',
    codec.ed25519Verify pub m sig = true → codec.ed25519Verify pub m' sig = true → m = m') →
    ∀ e e' : Evidence, e.reporter = e'.reporter → e.sig = e'.sig →
      codec.verify e = .ok () → codec.verify e' = .ok () → SameAccusation e e' := by
  intro holds
  have same := holds (signedOnce (accusation ("a|" ++ forgedProof) forgedProof 0).bodyBytes)
    (signedOnce_oneMessage _) (accusation ("a|" ++ forgedProof) forgedProof 0)
    (accusation "a" (forgedProof ++ "|" ++ forgedProof) 0) rfl rfl (by decide +kernel)
    (by decide +kernel)
  exact absurd same.nodeID (by decide)

end instances

end VeilNet.Guarantees.EvidenceBinding
