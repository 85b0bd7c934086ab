import VeilNet.Source.Payments.Service
import VeilNet.Lib.Threads

/-!
The payments of the client: `PayApproved` of `internal/app/wallet.go`, and
`RequestPaymentApproval` and `ConfirmPayment` of `internal/app/app.go`. A call carries the answer
of the wallet, the clock and whether the receipt store takes the row. `PayApproved` is cut where
it leaves the lock and at the wallet call, which the interleaved one shares. The wallet's balance
and the events are left out: nothing here reads them.
-/
namespace VeilNet.Source.Wallet
open Lib Lib.Outcome
open Source.Payments (toAtomic)

/-- The transports of a wallet connection, `walletConn`. -/
structure Conn where
  xswd : Bool
  rpc : Bool

/-- A row of the receipt store. -/
structure Receipt (F : Type) where
  id : String
  nodeID : String
  sessionID : String
  amountDero : F
  txID : String
  savedAt : Time

/-- The fields of `App` that payments read and write, with the receipt store. -/
structure App (F : Type) where
  wallet : Option Conn
  pendingApproval : Bool
  maxPerHourDero : F
  network : String
  node : Option String
  sessionID : String
  receipts : List (Receipt F)

/-- A client with a wallet over XSWD and a budget of one DERO an hour. -/
def client : App ℚ := ⟨some ⟨true, false⟩, false, 1, "mainnet", none, "s", []⟩

inductive Error (F : Type) where
  | destinationRequired | amountNotPositive | noWallet | notPending
  | overBudget (amount cap : F)
  | roundsToZero
  | emptyDestination | zeroAmount
  | wallet (text : String)
  | noTransport
  | store (text : String)

/-- What `ConfirmPayment` meets: the clock, formatted and read, and the store. -/
structure Recording where
  id : String
  savedAt : Time
  saved : Except String Unit

/-- One call of `PayApproved`: its arguments, when the wallet is asked, what it answers. -/
structure Payment (F : Type) where
  dest : String
  amountDero : F
  sentAt : Time
  answer : Except String String
  recording : Recording

/-- A transfer that the wallet has made, with the amount asked for. -/
structure Transfer (F : Type) where
  sentAt : Time
  destination : String
  amountAtomic : UInt64
  amountDero : F

section payment
variable {F : Type}

structure UnsignedTransfer where
  destination : String
  amountAtomic : UInt64
  network : String

def buildTransfer (destination : String) (amountAtomic : UInt64) (network : String) :
    Except (Error F) UnsignedTransfer := do
  refuseIf (destination = "") .emptyDestination
  refuseIf (amountAtomic = 0) .zeroAmount
  pure ⟨destination, amountAtomic, network⟩

def Conn.transfer (conn : Conn) (network dest : String) (atomic : Int64)
    (answer : Except String String) : Except (Error F) String :=
  if conn.xswd then answer.mapError .wallet
  else if conn.rpc then do
    let _ ← buildTransfer dest atomic.toUInt64 network
    answer.mapError .wallet
  else .error .noTransport

def App.requestPaymentApproval (a : App F) : App F := { a with pendingApproval := true }

/-- `INSERT OR REPLACE` by the ID of the receipt. -/
def saveReceipt (receipts : List (Receipt F)) (r : Receipt F) : List (Receipt F) :=
  receipts.filter (fun old => old.id ≠ r.id) ++ [r]

def App.confirmPayment (a : App F) (r : Recording) (amount : F) (txid : String) :
    Option (Error F) × App F :=
  match r.saved with
  | .error text => (some (.store text), { a with pendingApproval := false })
  | .ok () =>
    (none, { a with
      pendingApproval := false
      receipts := saveReceipt a.receipts
        ⟨r.id, a.node.getD "", a.sessionID, amount, txid, r.savedAt⟩ })

/-- Whether or not the receipt is stored, the approval is used up. -/
@[simp] theorem confirmPayment_pendingApproval (a : App F) (r : Recording) (amount : F)
    (txid : String) : (a.confirmPayment r amount txid).2.pendingApproval = false := by
  unfold App.confirmPayment
  split <;> rfl

/-- The budget is never changed by a payment. -/
@[simp] theorem confirmPayment_maxPerHourDero (a : App F) (r : Recording) (amount : F)
    (txid : String) : (a.confirmPayment r amount txid).2.maxPerHourDero = a.maxPerHourDero := by
  unfold App.confirmPayment
  split <;> rfl

variable [GoFloat F]

/-- The checks of `PayApproved` before the wallet is asked. -/
def App.checkPayment (a : App F) (dest : String) (amountDero : F) :
    Except (Error F) (Conn × Int64) := do
  refuseIf (dest = "") .destinationRequired
  refuseIf (GoFloat.le amountDero (GoFloat.ofInt 0)) .amountNotPositive
  match a.wallet with
  | none => .error .noWallet
  | some conn => do
    refuseIf (a.pendingApproval = false) .notPending
    refuseIf (GoFloat.lt (GoFloat.ofInt 0) a.maxPerHourDero ∧
      GoFloat.lt a.maxPerHourDero amountDero) (.overBudget amountDero a.maxPerHourDero)
    refuseIf (toAtomic amountDero ≤ 0) .roundsToZero
    pure (conn, toAtomic amountDero)

/-- A payment passes its checks only with an approval pending and a positive amount. -/
theorem of_checkPayment {a : App F} {dest : String} {amountDero : F} {passed : Conn × Int64}
    (checked : a.checkPayment dest amountDero = .ok passed) :
    a.pendingApproval = true ∧ GoFloat.le amountDero (GoFloat.ofInt 0) = false := by
  obtain ⟨_, _, checked⟩ := of_bind_ok checked
  obtain ⟨_, positive, checked⟩ := of_bind_ok checked
  split at checked
  · cases checked
  · obtain ⟨_, pending, _⟩ := of_bind_ok checked
    exact ⟨by simpa using of_refuseIf_ok pending, by simpa using of_refuseIf_ok positive⟩

end payment

/-- The client and its wallet: the transfers made so far, and the calls of
`RequestPaymentApproval` so far. -/
structure Paying (F : Type) where
  app : App F
  sent : List (Transfer F)
  requests : ℕ

/-- What is left of a call. `transfer` has passed the checks, with the connection and the
network that it read; `record` has paid and still has to confirm. -/
inductive Running (F : Type) where
  | request
  | confirm (recording : Recording) (amount : F) (txid : String)
  | pay (p : Payment F)
  | transfer (p : Payment F) (conn : Conn) (network : String) (atomic : Int64)
  | record (p : Payment F) (txid : String)
  | done (txid : String) (err : Option (Error F))

section steps
variable {F : Type}

def Paying.request (s : Paying F) : Paying F :=
  { s with app := s.app.requestPaymentApproval, requests := s.requests + 1 }

def Paying.confirm (s : Paying F) (r : Recording) (amount : F) (txid : String) :
    Option (Error F) × Paying F :=
  let out := s.app.confirmPayment r amount txid
  (out.1, { s with app := out.2 })

/-- The wallet call: what it sent, or why it did not. -/
def Paying.transfer (s : Paying F) (p : Payment F) (conn : Conn) (network : String)
    (atomic : Int64) : Except (Error F) (String × Paying F) :=
  (conn.transfer network p.dest atomic p.answer).map fun txid =>
    (txid, { s with sent := s.sent ++ [⟨p.sentAt, p.dest, atomic.toUInt64, p.amountDero⟩] })

variable [GoFloat F]

/-- `PayApproved` without interruption. -/
def Paying.payApproved (s : Paying F) (p : Payment F) : (String × Option (Error F)) × Paying F :=
  match s.app.checkPayment p.dest p.amountDero with
  | .error e => (("", some e), s)
  | .ok (conn, atomic) =>
    match s.transfer p conn s.app.network atomic with
    | .error e => (("", some e), s)
    | .ok (txid, paid) =>
      let out := paid.confirm p.recording p.amountDero txid
      ((txid, out.1), out.2)

/-- Each section under the lock is one step, with the local work around it, and so is
the wallet call. -/
def Running.next (s : Paying F) : Running F → Paying F × Running F
  | .request => (s.request, .done "" none)
  | .confirm r amount txid =>
    let out := s.confirm r amount txid
    (out.2, .done "" out.1)
  | .pay p =>
    match s.app.checkPayment p.dest p.amountDero with
    | .error e => (s, .done "" (some e))
    | .ok (conn, atomic) => (s, .transfer p conn s.app.network atomic)
  | .transfer p conn network atomic =>
    match s.transfer p conn network atomic with
    | .error e => (s, .done "" (some e))
    | .ok (txid, paid) => (paid, .record p txid)
  | .record p txid =>
    let out := s.confirm p.recording p.amountDero txid
    (out.2, .done txid out.1)
  | .done txid err => (s, .done txid err)

/-- `PayApproved` with nothing between its sections is the sequential one. -/
theorem solo_payApproved (s : Paying F) (p : Payment F) :
    Run.run (Threads.step Running.next) ⟨s, [.pay p]⟩ [0, 0, 0] =
      ⟨(s.payApproved p).2, [.done (s.payApproved p).1.1 (s.payApproved p).1.2]⟩ := by
  simp only [Run.run_cons, Run.run_nil, Threads.step_single]
  unfold Paying.payApproved
  cases checked : s.app.checkPayment p.dest p.amountDero with
  | error e => simp only [Running.next, checked]
  | ok passed =>
    obtain ⟨conn, atomic⟩ := passed
    cases paid : s.transfer p conn s.app.network atomic with
    | error e => simp only [Running.next, checked, paid]
    | ok out => simp only [Running.next, checked, paid]

end steps

section specs
variable {F : Type} {s : Paying F}

/-- A wallet call that succeeds adds its transfer and changes nothing else. -/
theorem of_transfer {p : Payment F} {conn : Conn} {network txid : String} {atomic : Int64}
    {paid : Paying F} (made : s.transfer p conn network atomic = .ok (txid, paid)) :
    paid = { s with sent := s.sent ++ [⟨p.sentAt, p.dest, atomic.toUInt64, p.amountDero⟩] } := by
  unfold Paying.transfer at made
  cases answered : (conn.transfer network p.dest atomic p.answer : Except (Error F) String) with
  | error e => simp [answered, Except.map] at made
  | ok id =>
    simp only [answered, Except.map, Except.ok.injEq, Prod.mk.injEq] at made
    exact made.2.symm

/-! Confirming a payment makes no transfer and asks for no approval. -/

@[simp] theorem confirm_sent (r : Recording) (amount : F) (txid : String) :
    (s.confirm r amount txid).2.sent = s.sent := rfl

@[simp] theorem confirm_requests (r : Recording) (amount : F) (txid : String) :
    (s.confirm r amount txid).2.requests = s.requests := rfl

@[simp] theorem confirm_pendingApproval (r : Recording) (amount : F) (txid : String) :
    (s.confirm r amount txid).2.app.pendingApproval = false :=
  confirmPayment_pendingApproval s.app r amount txid

@[simp] theorem confirm_maxPerHourDero (r : Recording) (amount : F) (txid : String) :
    (s.confirm r amount txid).2.app.maxPerHourDero = s.app.maxPerHourDero :=
  confirmPayment_maxPerHourDero s.app r amount txid

end specs

end VeilNet.Source.Wallet
