import VeilNet.Source.Tokens
import VeilNet.Lib.GoFloat
import VeilNet.Lib.Outcome
import VeilNet.Lib.Word
import Mathlib.Data.List.Sort
import Mathlib.Data.String.Basic

/-!
The prepaid credit service of `internal/payments/payments.go`. The registry appears by its
lookups, the approver and the wallet by their answers; `ed25519.Verify` and SHA-256 are
parameters. `RecordSettlement` is cut at its two critical sections, `unsettled` and
`commitSettlement`, which the interleaved one shares. Published events and error texts are left
out.
-/
namespace VeilNet.Source.Payments
open Lib Lib.Outcome

inductive Decision where
  | authorise | reject

inductive NodeStatus where
  | active | disabled
  deriving DecidableEq

/-- What `Authorize` reads of a registry node. -/
structure RegistryNode (F : Type) where
  status : NodeStatus
  pricePerHourDERO : F
  endpoint : String

structure ApprovalPayload (F : Type) where
  nodeID : String
  endpoint : String
  operatorAddr : String
  depositDERO : F
  pricePerHour : F
  estHours : F
  network : String
  walletBalance : F

structure Prepaid (F : Type) where
  sessionID : String
  nodeID : String
  depositAtomic : Int64
  spentAtomic : Int64
  pricePerHour : F
  fundedAt : Time
  fundingTXID : String

def Prepaid.remainingAtomic {F : Type} (p : Prepaid F) : Int64 := p.depositAtomic - p.spentAtomic

structure Receipt where
  id : String
  sessionID : String
  nodeID : String
  tokenID : String
  rxBytes : UInt64
  txBytes : UInt64
  minutes : UInt64
  amount : Int64
  settled : Bool
  nodePub : List UInt8
  sig : List UInt8
  deriving DecidableEq

def Receipt.zero : Receipt := ⟨"", "", "", "", 0, 0, 0, 0, false, [], []⟩

structure Settlement where
  id : String
  nodeID : String
  receiptIDs : List String
  total : Int64
  txid : String
  settledAt : Time

/-- The arguments of one `RecordSettlementIdem` invoke. -/
structure Invoke where
  scid : String
  nodeID : String
  total : UInt64
  count : UInt64
  batchID : String

structure Service (F : Type) where
  issuer : Tokens.Issuer
  prepaid : GoMap String (Prepaid F)
  receipts : GoMap String Receipt
  settled : List Settlement

def newService (F : Type) (issuer : Tokens.Issuer) : Service F := ⟨issuer, ∅, ∅, []⟩

/-- The wallet's answers during one call; an error carries its text. -/
structure Wallet where
  getBalance : Except String UInt64
  buildTransfer : String → UInt64 → Except String Unit
  submitTransfer : String → UInt64 → Except String String
  buildInvoke : Invoke → Except String Unit
  submitInvoke : Invoke → Except String String

/-- The collaborators of a service during one call. -/
structure Options (F : Type) where
  wallet : Option Wallet
  registry : Option (String → Option (RegistryNode F))
  approver : ApprovalPayload F → Except String Decision
  network : String
  scid : String

/-- The failures, each with the values its text prints. -/
inductive Error where
  | unknownNode (nodeID : String)
  | nodeNotActive (nodeID : String)
  | operatorRequired
  | wallet (text : String)
  | insufficientBalance
  | approver (text : String)
  | rejected
  | sessionAndNodeRequired
  | depositNotPositive
  | negativePrice
  | token (e : Tokens.Error)
  | badPublicKeySize
  | badSignatureSize
  | badSignature
  | receiptIDRequired
  | negativeAmount (id : String) (amount : Int64)
  | duplicateReceipt (id : String)
  | pendingOverflow (id : String)
  | exceedsCredit (id : String) (amount remaining : Int64)
  | nothingToSettle (nodeID : String)
  | totalOverflow (nodeID : String)
  | negativeTotal (nodeID : String)
  deriving DecidableEq

section authorize
variable {F : Type} [GoFloat F]

/-- `dero.ToAtomic`, at 100000 atomic units per DERO. -/
def toAtomic (dero : F) : Int64 :=
  if GoFloat.le dero (GoFloat.ofInt 0) || GoFloat.isNaN dero || GoFloat.isInf dero then 0
  else GoFloat.toInt64 (GoFloat.round (GoFloat.mul dero (GoFloat.ofInt 100000)))

def fromAtomic (a : Int64) : F := GoFloat.div (GoFloat.ofInt a.toInt) (GoFloat.ofInt 100000)

/-- Quota hours; -1 on a free node. -/
def ApprovalPayload.estimate (a : ApprovalPayload F) : F :=
  if GoFloat.le a.pricePerHour (GoFloat.ofInt 0) then GoFloat.ofInt (-1)
  else GoFloat.div a.depositDERO a.pricePerHour

def newPrepaid (now : Time) (sessionID nodeID : String) (depositDERO pricePerHour : F) :
    Except Error (Prepaid F) :=
  if sessionID = "" ∨ nodeID = "" then .error .sessionAndNodeRequired
  else if toAtomic depositDERO ≤ 0 then .error .depositNotPositive
  else if GoFloat.lt pricePerHour (GoFloat.ofInt 0) then .error .negativePrice
  else .ok
    { sessionID, nodeID, depositAtomic := toAtomic depositDERO, spentAtomic := 0, pricePerHour,
      fundedAt := now, fundingTXID := "" }

variable (opts : Options F)

/-- Price and endpoint of the node; both are empty without a registry. -/
def resolveNode (nodeID : String) : Except Error (F × String) :=
  match opts.registry with
  | none => .ok (GoFloat.ofInt 0, "")
  | some get =>
    match get nodeID with
    | none => .error (.unknownNode nodeID)
    | some n =>
      if n.status ≠ .active then .error (.nodeNotActive nodeID)
      else .ok (n.pricePerHourDERO, n.endpoint)

/-- The wallet balance to show, -1 without a wallet. -/
def checkBalance (depositDERO : F) : Except Error F :=
  match opts.wallet with
  | none => .ok (GoFloat.ofInt (-1))
  | some w =>
    match w.getBalance with
    | .error text => .error (.wallet text)
    | .ok unlocked =>
      if unlocked.toInt64 < toAtomic depositDERO then .error .insufficientBalance
      else .ok (fromAtomic unlocked.toInt64)

def requestApproval (payload : ApprovalPayload F) : Except Error Unit :=
  match opts.approver payload with
  | .error text => .error (.approver text)
  | .ok .reject => .error .rejected
  | .ok .authorise => .ok ()

/-- The checks of `Authorize` that come before the funding transfer. -/
def approve (now : Time) (nodeID operatorAddr sessionID : String)
    (depositDERO : F) : Except Error (ApprovalPayload F × Prepaid F) := do
  let (price, endpoint) ← resolveNode opts nodeID
  refuseIf (operatorAddr = "") .operatorRequired
  let balance ← checkBalance opts depositDERO
  let payload : ApprovalPayload F :=
    { nodeID, endpoint, operatorAddr, depositDERO, pricePerHour := price,
      estHours := GoFloat.ofInt 0, network := opts.network, walletBalance := balance }
  let payload := { payload with estHours := payload.estimate }
  requestApproval opts payload
  let credit ← newPrepaid now sessionID nodeID depositDERO price
  return (payload, credit)

/-- The funding transfer: its ID, and the transfer itself when a wallet made one. -/
def fund (operatorAddr : String) (credit : Prepaid F) :
    Except Error (String × Option (String × UInt64)) :=
  match opts.wallet with
  | none => .ok ("demo-no-wallet", none)
  | some w => do
    let amount := credit.depositAtomic.toUInt64
    (w.buildTransfer operatorAddr amount).mapError .wallet
    let txid ← (w.submitTransfer operatorAddr amount).mapError .wallet
    return (txid, some (operatorAddr, amount))

/-- `time.Duration(hours * float64(time.Hour))` for a positive estimate, else 4 hours. -/
def tokenTTL (estHours : F) : Duration :=
  if GoFloat.lt (GoFloat.ofInt 0) estHours then
    (GoFloat.toInt64 (GoFloat.mul estHours (GoFloat.ofInt Duration.hour))).toInt
  else 4 * Duration.hour

structure Grant (F : Type) where
  approval : ApprovalPayload F
  credit : Prepaid F
  token : Tokens.Token

/-- The outcome of one `Authorize`, with the transfer that the wallet reported as
submitted. -/
structure Authorized (F : Type) where
  result : Except Error (Grant F)
  service : Service F
  transfer : Option (String × UInt64)

def authorize (now : Time) (draw : Tokens.Draw) (s : Service F)
    (nodeID operatorAddr sessionID : String) (depositDERO : F) : Authorized F :=
  match approve opts now nodeID operatorAddr sessionID depositDERO with
  | .error e => ⟨.error e, s, none⟩
  | .ok (payload, credit) =>
    match fund opts operatorAddr credit with
    | .error e => ⟨.error e, s, none⟩
    | .ok (txid, transfer) =>
      let credit := { credit with fundingTXID := txid }
      match Tokens.mint now draw s.issuer nodeID sessionID (tokenTTL payload.estHours)
        Tokens.scopeExit with
      | (.error e, issuer) => ⟨.error (.token e), { s with issuer }, transfer⟩
      | (.ok token, issuer) =>
        ⟨.ok ⟨payload, credit, token⟩,
          { s with issuer, prepaid := s.prepaid.insert sessionID credit }, transfer⟩

end authorize

section receipts

/-- The signed text; the `Settled` flag is not part of it. -/
def receiptBody (r : Receipt) : String :=
  "|".intercalate
    [r.id, r.sessionID, r.nodeID, r.tokenID, toString r.rxBytes.toNat, toString r.txBytes.toNat,
      toString r.minutes.toNat, toString r.amount.toInt]

variable (verify : List UInt8 → String → List UInt8 → Bool)

def verifyReceipt (r : Receipt) : Except Error Unit :=
  if r.nodePub.length ≠ 32 then .error .badPublicKeySize
  else if r.sig.length ≠ 64 then .error .badSignatureSize
  else if !verify r.nodePub (receiptBody r) r.sig then .error .badSignature
  else .ok ()

/-- The loop over the stored receipts for the receipt `id` of session `sessionID`. -/
def pendingTotal (id sessionID : String) : Int64 → List Receipt → Except Error Int64
  | pending, [] => .ok pending
  | pending, e :: rest =>
    if e.sessionID = sessionID ∧ e.settled = false then
      if pending > Int64.maxValue - e.amount then .error (.pendingOverflow id)
      else pendingTotal id sessionID (pending + e.amount) rest
    else pendingTotal id sessionID pending rest

variable {F : Type}

/-- The credit check of `RecordReceipt`; a session without credit is not checked. -/
def checkCredit (order : RangeOrder) (s : Service F) (r : Receipt) : Except Error Unit :=
  match s.prepaid.lookup r.sessionID with
  | none => .ok ()
  | some p => do
    let pending ← pendingTotal r.id r.sessionID 0 (order.visit (GoMap.values s.receipts))
    let remaining := p.remainingAtomic - pending
    refuseIf (r.amount > remaining) (.exceedsCredit r.id r.amount remaining)

def recordReceipt (order : RangeOrder) (s : Service F) (r : Receipt) :
    Except Error (Service F) := do
  verifyReceipt verify r
  refuseIf (r.id = "") .receiptIDRequired
  refuseIf (r.amount < 0) (.negativeAmount r.id r.amount)
  refuseIf (s.receipts.lookup r.id).isSome (.duplicateReceipt r.id)
  checkCredit order s r
  return { s with receipts := s.receipts.insert r.id r }

/-- The service after a call of `RecordReceipt`; a refused receipt changes nothing. -/
def afterReceipt (order : RangeOrder) (s : Service F) (r : Receipt) : Service F :=
  match recordReceipt verify order s r with
  | .ok next => next
  | .error _ => s

end receipts

section settlement
variable {F : Type}

/-- The unsettled receipts of a node, as the first critical section of
`RecordSettlement` and `Unsettled` collect them. -/
def unsettled (order : RangeOrder) (s : Service F) (nodeID : String) : List Receipt :=
  (order.visit (GoMap.values s.receipts)).filter fun r => r.nodeID = nodeID && !r.settled

variable (sha256 : String → List UInt8)

/-- Hex SHA-256 over the sorted receipt IDs. -/
def batchIDFor (ids : List String) : String :=
  "stl-" ++ GoText.hexEncode (sha256 (",".intercalate (ids.insertionSort (· ≤ ·))))

/-- The checked aggregation of a batch. -/
def batchTotal (nodeID : String) : Int64 → List Receipt → Except Error Int64
  | total, [] => .ok total
  | total, r :: rest =>
    if r.amount < 0 then .error (.negativeAmount r.id r.amount)
    else if total > Int64.maxValue - r.amount then .error (.totalOverflow nodeID)
    else batchTotal nodeID (total + r.amount) rest

/-- What `RecordSettlement` computes from its batch between the two critical
sections, before the submit; the transaction ID is still empty. -/
def prepareSettlement (now : Time) (nodeID : String)
    (batch : List Receipt) : Except Error Settlement := do
  refuseIf (batch = []) (.nothingToSettle nodeID)
  let total ← batchTotal nodeID 0 batch
  refuseIf (total < 0) (.negativeTotal nodeID)
  let ids := batch.map (·.id)
  return { id := batchIDFor sha256 ids, nodeID, receiptIDs := ids, total, txid := "",
           settledAt := now }

def Settlement.invoke (st : Settlement) (scid : String) (count : ℕ) : Invoke :=
  { scid, nodeID := st.nodeID, total := st.total.toUInt64, count := UInt64.ofNat count,
    batchID := st.id }

/-- The transaction ID of the submit; without a wallet or a contract nothing is submitted. -/
def submitSettlement (opts : Options F) (st : Settlement) (count : ℕ) : Except Error String :=
  match opts.wallet with
  | none => .ok "demo-no-chain"
  | some w =>
    if opts.scid = "" then .ok "demo-no-chain"
    else do
      (w.buildInvoke (st.invoke opts.scid count)).mapError .wallet
      (w.submitInvoke (st.invoke opts.scid count)).mapError .wallet

def markSettled (receipts : GoMap String Receipt) (id : String) : GoMap String Receipt :=
  receipts.insert id { (receipts.lookup id).getD Receipt.zero with settled := true }

/-- The saturating addition, without the cap. -/
def Prepaid.saturated (p : Prepaid F) (amount : Int64) : Int64 :=
  if 0 ≤ amount ∧ p.spentAtomic ≤ Int64.maxValue - amount then p.spentAtomic + amount
  else Int64.maxValue

/-- Attribute one receipt to a credit: saturating addition, then the cap. -/
def Prepaid.attribute (p : Prepaid F) (amount : Int64) : Prepaid F :=
  if p.saturated amount > p.depositAtomic then { p with spentAtomic := p.depositAtomic }
  else { p with spentAtomic := p.saturated amount }

def attributeSpend (prepaid : GoMap String (Prepaid F)) (r : Receipt) : GoMap String (Prepaid F) :=
  match prepaid.lookup r.sessionID with
  | none => prepaid
  | some p => prepaid.insert r.sessionID (p.attribute r.amount)

/-- The second critical section of `RecordSettlement`. -/
def commitSettlement (st : Settlement) (batch : List Receipt) (s : Service F) : Service F :=
  { s with
    receipts := st.receiptIDs.foldl markSettled s.receipts
    settled := s.settled ++ [st]
    prepaid := batch.foldl attributeSpend s.prepaid }

def recordSettlement (opts : Options F) (now : Time)
    (order : RangeOrder) (s : Service F) (nodeID : String) : Except Error Settlement × Service F :=
  let batch := unsettled order s nodeID
  match prepareSettlement sha256 now nodeID batch with
  | .error e => (.error e, s)
  | .ok st =>
    match submitSettlement opts st batch.length with
    | .error e => (.error e, s)
    | .ok txid =>
      let st := { st with txid }
      (.ok st, commitSettlement st batch s)

/-- The invoke that a call of `RecordSettlement` hands to `SubmitInvoke`, if it
gets that far. -/
def submittedInvoke (opts : Options F) (now : Time)
    (order : RangeOrder) (s : Service F) (nodeID : String) : Option Invoke :=
  let batch := unsettled order s nodeID
  match prepareSettlement sha256 now nodeID batch, opts.wallet with
  | .ok st, some w =>
    let invoke := st.invoke opts.scid batch.length
    if opts.scid ≠ "" ∧ (w.buildInvoke invoke).isOk then some invoke else none
  | _, _ => none

end settlement

/-- A signature check and a digest for the examples, which depend on neither. -/
def anySignature (_ : List UInt8) (_ : String) (_ : List UInt8) : Bool := true

def noDigest (_ : String) : List UInt8 := []

end VeilNet.Source.Payments
