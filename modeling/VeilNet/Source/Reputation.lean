import VeilNet.Lib.GoFloat
import VeilNet.Lib.GoMap
import VeilNet.Lib.GoText
import VeilNet.Lib.GoTime
import VeilNet.Lib.Outcome

/-!
The local reputation store of `internal/reputation`: evidence (`evidence.go`), the store
(`store.go`) and the score (`score.go`). ed25519 and the JSON decoders are in `Codec`; how saving
ends is an argument. Error texts are left out.
-/
namespace VeilNet.Source.Reputation
open Lib

def kindDoubleSettlement : String := "double-settlement"
def kindForgedReceipt : String := "forged-receipt"
def kindLatency : String := "latency"
def kindUptime : String := "uptime"
def kindDowntime : String := "downtime"

def isSlashable (kind : String) : Bool := kind = kindDoubleSettlement || kind = kindForgedReceipt

def isAdvisory (kind : String) : Bool :=
  kind = kindLatency || kind = kindUptime || kind = kindDowntime

structure Evidence where
  kind : String
  nodeID : String
  proof : List UInt8
  reporter : List UInt8
  sig : List UInt8
  observedAt : Time

/-- `Time.Unix`: whole seconds since 1970. -/
def unix (t : Time) : ℤ := t / 1000000000 - 62135596800

/-- The signed body: kind, node, proof and seconds, with `|` between them. -/
def Evidence.bodyBytes (e : Evidence) : List UInt8 :=
  GoText.utf8 (e.kind ++ "|" ++ e.nodeID ++ "|") ++ e.proof ++
    GoText.utf8 ("|" ++ toString (unix e.observedAt))

structure ReceiptView where
  id : String
  sessionID : String
  nodeID : String
  tokenID : String
  rxBytes : UInt64
  txBytes : UInt64
  minutes : UInt64
  amount : Int64
  nodePub : List UInt8
  sig : List UInt8

def receiptBody (r : ReceiptView) : String :=
  r.id ++ "|" ++ "|".intercalate
    [r.sessionID, r.nodeID, r.tokenID, toString r.rxBytes.toNat, toString r.txBytes.toNat,
      toString r.minutes.toNat, toString r.amount.toInt]

inductive ReceiptError where
  | keySize | signatureSize | signature
  deriving DecidableEq

inductive Error where
  | unknownKind (kind : String)
  | emptyNodeID
  | reporterKeySize | evidenceSignatureSize | evidenceSignature
  | badDoubleSettlement (err : String)
  | receiptIDs | sameBodies
  | receiptA (cause : ReceiptError)
  | receiptB (cause : ReceiptError)
  | differentKeys
  | badForgedReceipt (err : String)
  | forgedNeedsID | forgedKeySize | forgedSignatureSize | nothingForged
  | badAdvisory (err : String)
  | save (err : String)
  deriving DecidableEq

/-- The library functions. A forged-receipt proof is decoded to its receipt and its
note; of an advisory proof only whether it decodes is used. -/
structure Codec where
  ed25519Verify : List UInt8 → List UInt8 → List UInt8 → Bool
  decodeDoubleSettlement : List UInt8 → Except String (ReceiptView × ReceiptView)
  decodeForgedReceipt : List UInt8 → Except String (ReceiptView × String)
  decodeAdvisory : List UInt8 → Except String Unit

namespace Codec
variable (codec : Codec)

def verifyReporter (e : Evidence) : Except Error Unit := do
  Outcome.refuseIf (e.reporter.length ≠ 32) .reporterKeySize
  Outcome.refuseIf (e.sig.length ≠ 64) .evidenceSignatureSize
  Outcome.refuseIf (codec.ed25519Verify e.reporter e.bodyBytes e.sig = false) .evidenceSignature

def verifyReceiptView (r : ReceiptView) : Except ReceiptError Unit := do
  Outcome.refuseIf (r.nodePub.length ≠ 32) .keySize
  Outcome.refuseIf (r.sig.length ≠ 64) .signatureSize
  Outcome.refuseIf (codec.ed25519Verify r.nodePub (GoText.utf8 (receiptBody r)) r.sig = false)
    .signature

def verifyDoubleSettlement (raw : List UInt8) : Except Error Unit :=
  match codec.decodeDoubleSettlement raw with
  | .error err => .error (.badDoubleSettlement err)
  | .ok (a, b) => do
    Outcome.refuseIf (a.id = "" ∨ a.id ≠ b.id) .receiptIDs
    Outcome.refuseIf (receiptBody a = receiptBody b) .sameBodies
    (codec.verifyReceiptView a).mapError .receiptA
    (codec.verifyReceiptView b).mapError .receiptB
    Outcome.refuseIf (a.nodePub ≠ b.nodePub) .differentKeys

/-- The failure of the receipt's signature is the proof. -/
def verifyForgedReceipt (raw : List UInt8) : Except Error Unit :=
  match codec.decodeForgedReceipt raw with
  | .error err => .error (.badForgedReceipt err)
  | .ok (receipt, _) => do
    Outcome.refuseIf (receipt.id = "") .forgedNeedsID
    Outcome.refuseIf (receipt.nodePub.length ≠ 32) .forgedKeySize
    Outcome.refuseIf (receipt.sig.length ≠ 64) .forgedSignatureSize
    Outcome.refuseIf (codec.verifyReceiptView receipt = .ok ()) .nothingForged

def verify (e : Evidence) : Except Error Unit := do
  Outcome.refuseIf (isSlashable e.kind = false ∧ isAdvisory e.kind = false) (.unknownKind e.kind)
  Outcome.refuseIf (e.nodeID = "") .emptyNodeID
  codec.verifyReporter e
  if e.kind = kindDoubleSettlement then codec.verifyDoubleSettlement e.proof
  else if e.kind = kindForgedReceipt then codec.verifyForgedReceipt e.proof
  else match codec.decodeAdvisory e.proof with
    | .error err => .error (.badAdvisory err)
    | .ok () => .ok ()

end Codec

section score
variable {F : Type} [GoFloatSum F]

/-- The decimal constants are quotients of whole numbers. -/
def hundredths (n : ℤ) : F := GoFloat.div (GoFloat.ofInt n) (GoFloat.ofInt 100)

def wBond : F := hundredths 30
def wUptime : F := hundredths 30
def wHist : F := hundredths 40
def bondFullDERO : F := GoFloat.ofInt 100
def unknownHistory : F := hundredths 50

def clip01 (v : F) : F :=
  if GoFloat.lt v (GoFloat.ofInt 0) then GoFloat.ofInt 0
  else if GoFloat.lt (GoFloat.ofInt 1) v then GoFloat.ofInt 1
  else v

structure ScoreInput (F : Type) where
  bondDERO : F
  uptime : F
  history : F
  slashed : Bool

def score (input : ScoreInput F) : F :=
  if input.slashed then GoFloat.ofInt 0
  else
    let bondN := clip01 (GoFloat.div input.bondDERO bondFullDERO)
    clip01 (GoFloatSum.add
      (GoFloatSum.add (GoFloat.mul wBond bondN) (GoFloat.mul wUptime (clip01 input.uptime)))
      (GoFloat.mul wHist (clip01 input.history)))

end score

structure NodeInfo (F : Type) where
  bond : F
  uptime : F
  hasUp : Bool

structure Store (F : Type) where
  path : String
  evidence : List Evidence
  success : GoMap String ℤ
  fail : GoMap String ℤ
  info : GoMap String (NodeInfo F)

def emptyStore (F : Type) : Store F := ⟨"", [], ∅, ∅, ∅⟩

namespace Store
variable {F : Type}

/-- `saved` is how writing the file ends, when there is one. -/
def saveLocked (saved : Except String Unit) (s : Store F) : Option Error :=
  if s.path = "" then none
  else match saved with
    | .error err => some (.save err)
    | .ok () => none

/-- Evidence that verifies is kept, even if it cannot be saved. -/
def add (codec : Codec) (saved : Except String Unit) (s : Store F) (e : Evidence) :
    Option Error × Store F :=
  match codec.verify e with
  | .error err => (some err, s)
  | .ok () =>
    let s := { s with evidence := s.evidence ++ [e] }
    (s.saveLocked saved, s)

def count (counts : GoMap String ℤ) (nodeID : String) : ℤ := (counts.lookup nodeID).getD 0

def recordSession (saved : Except String Unit) (s : Store F) (nodeID : String) (ok : Bool) :
    Option Error × Store F :=
  if nodeID = "" then (some .emptyNodeID, s)
  else
    let s := if ok then { s with success := s.success.insert nodeID (count s.success nodeID + 1) }
      else { s with fail := s.fail.insert nodeID (count s.fail nodeID + 1) }
    (s.saveLocked saved, s)

/-- The outcome of saving is ignored. -/
def setNodeInfo (s : Store F) (nodeID : String) (bondDERO uptime : F) : Store F :=
  { s with info := s.info.insert nodeID ⟨bondDERO, uptime, true⟩ }

def slashed (s : Store F) (nodeID : String) : Bool :=
  s.evidence.any fun e => e.nodeID = nodeID && isSlashable e.kind

variable [GoFloatSum F]

/-- What the score of a node is computed from, apart from the slash. -/
def scoreInput (s : Store F) (nodeID : String) (slashed : Bool) : ScoreInput F :=
  let ni := (s.info.lookup nodeID).getD ⟨GoFloat.ofInt 0, GoFloat.ofInt 0, false⟩
  let ok := count s.success nodeID
  let bad := count s.fail nodeID
  { bondDERO := ni.bond
    uptime := if ni.hasUp then ni.uptime else hundredths 50
    history :=
      if ok + bad > 0 then GoFloat.div (GoFloat.ofInt ok) (GoFloat.ofInt (ok + bad))
      else unknownHistory
    slashed }

def reputationScore (s : Store F) (nodeID : String) : F :=
  score (s.scoreInput nodeID (s.slashed nodeID))

end Store

section specs
variable {codec : Codec} {F : Type}

theorem verifyReceiptView_ok {r : ReceiptView} (valid : codec.verifyReceiptView r = .ok ()) :
    codec.ed25519Verify r.nodePub (GoText.utf8 (receiptBody r)) r.sig = true := by
  obtain ⟨_, _, valid⟩ := Outcome.of_bind_ok valid
  obtain ⟨_, _, valid⟩ := Outcome.of_bind_ok valid
  simpa using Outcome.of_refuseIf_ok valid

/-- What an accepted double-settlement proof shows: one key has signed two different
bodies that begin with the same receipt ID. -/
theorem verifyDoubleSettlement_ok {raw : List UInt8}
    (valid : codec.verifyDoubleSettlement raw = .ok ()) :
    ∃ a b, codec.decodeDoubleSettlement raw = .ok (a, b) ∧ a.id = b.id ∧
      receiptBody a ≠ receiptBody b ∧ a.nodePub = b.nodePub ∧
      codec.ed25519Verify a.nodePub (GoText.utf8 (receiptBody a)) a.sig = true ∧
      codec.ed25519Verify b.nodePub (GoText.utf8 (receiptBody b)) b.sig = true := by
  unfold Codec.verifyDoubleSettlement at valid
  split at valid
  · cases valid
  · next a b decoded =>
    obtain ⟨_, ids, valid⟩ := Outcome.of_bind_ok valid
    obtain ⟨_, bodies, valid⟩ := Outcome.of_bind_ok valid
    obtain ⟨_, first, valid⟩ := Outcome.of_bind_ok valid
    obtain ⟨_, second, valid⟩ := Outcome.of_bind_ok valid
    have sameID : a.id = b.id := by
      have matching := Outcome.of_refuseIf_ok ids
      exact not_not.mp fun differ => matching (.inr differ)
    exact ⟨a, b, decoded, sameID, Outcome.of_refuseIf_ok bodies,
      not_not.mp (Outcome.of_refuseIf_ok valid),
        verifyReceiptView_ok (Outcome.of_mapError_ok first),
      verifyReceiptView_ok (Outcome.of_mapError_ok second)⟩

theorem verify_doubleSettlement {e : Evidence} (valid : codec.verify e = .ok ())
    (kind : e.kind = kindDoubleSettlement) : codec.verifyDoubleSettlement e.proof = .ok () := by
  obtain ⟨_, _, valid⟩ := Outcome.of_bind_ok valid
  obtain ⟨_, _, valid⟩ := Outcome.of_bind_ok valid
  obtain ⟨_, _, valid⟩ := Outcome.of_bind_ok valid
  rw [if_pos kind] at valid
  exact valid

theorem add_evidence (saved : Except String Unit) (s : Store F) (e : Evidence) :
    ((s.add codec saved e).2 = s ∧ codec.verify e ≠ .ok ()) ∨
      ((s.add codec saved e).2 = { s with evidence := s.evidence ++ [e] } ∧
        codec.verify e = .ok ()) := by
  unfold Store.add
  cases codec.verify e with
  | error err => exact .inl ⟨rfl, nofun⟩
  | ok u => exact .inr ⟨rfl, rfl⟩

end specs

end VeilNet.Source.Reputation
