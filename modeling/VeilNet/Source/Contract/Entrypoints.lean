import VeilNet.Source.Contract.Dvm
import VeilNet.Lib.Run

/-!
The entrypoints of `contracts/veilnet.bas`, line by line. A `GOTO` to the `RETURN 1` line is an
early return; lines that another jump skips stand under the condition that falls through to them.
`SIGNER()` is the first argument. Gas is left out, and so is the transfer of value: a deposit or
withdrawal is its amount.
-/
namespace VeilNet.Source.Contract
open Lib

/-- The per-node storage fields, in the order of the layout comment. -/
inductive Field where
  | owner | metadata | price | bond | status | settled | lastcount | lastbatch

def Field.suffix : Field → String
  | .owner => "_owner"
  | .metadata => "_meta"
  | .price => "_price"
  | .bond => "_bond"
  | .status => "_status"
  | .settled => "_settled"
  | .lastcount => "_lastcount"
  | .lastbatch => "_lastbatch"

/-- `"node_"+nodeID+"_owner"` and its siblings. -/
def nodeKey (nodeID : String) (field : Field) : String :=
  "node_" ++ nodeID ++ field.suffix

def ownerKey : String := "owner"

def initialize_ (signer : String) : Exec UInt64 := do
  if ← keyExists ownerKey then return 1
  store ownerKey (.string signer)
  return 0

def registerNode (signer nodeID metadata : String) (price : UInt64) : Exec UInt64 := do
  if ← keyExists (nodeKey nodeID .owner) then return 1
  store (nodeKey nodeID .owner) (.string signer)
  store (nodeKey nodeID .metadata) (.string metadata)
  store (nodeKey nodeID .price) (.uint64 price)
  store (nodeKey nodeID .status) (.uint64 1)
  unless ← keyExists (nodeKey nodeID .bond) do store (nodeKey nodeID .bond) (.uint64 0)
  unless ← keyExists (nodeKey nodeID .settled) do store (nodeKey nodeID .settled) (.uint64 0)
  return 0

def updateNode (signer nodeID metadata : String) (price : UInt64) : Exec UInt64 := do
  unless ← keyExists (nodeKey nodeID .owner) do return 1
  if (← loadString (nodeKey nodeID .owner)) ≠ signer then return 1
  store (nodeKey nodeID .metadata) (.string metadata)
  store (nodeKey nodeID .price) (.uint64 price)
  return 0

def disableNode (signer nodeID : String) : Exec UInt64 := do
  unless ← keyExists (nodeKey nodeID .owner) do return 1
  if (← loadString (nodeKey nodeID .owner)) ≠ signer then
    if (← loadString ownerKey) ≠ signer then return 1
  store (nodeKey nodeID .status) (.uint64 0)
  return 0

def setPrice (signer nodeID : String) (price : UInt64) : Exec UInt64 := do
  unless ← keyExists (nodeKey nodeID .owner) do return 1
  if (← loadString (nodeKey nodeID .owner)) ≠ signer then return 1
  store (nodeKey nodeID .price) (.uint64 price)
  return 0

def depositBond (signer nodeID : String) (amount : UInt64) : Exec UInt64 := do
  unless ← keyExists (nodeKey nodeID .owner) do return 1
  if (← loadString (nodeKey nodeID .owner)) ≠ signer then return 1
  if amount = 0 then return 1
  unless ← keyExists (nodeKey nodeID .bond) do store (nodeKey nodeID .bond) (.uint64 0)
  if (← loadUint64 (nodeKey nodeID .bond)) + amount < (← loadUint64 (nodeKey nodeID .bond)) then
    return 1
  store (nodeKey nodeID .bond) (.uint64 ((← loadUint64 (nodeKey nodeID .bond)) + amount))
  return 0

/-- The existence guard of this entrypoint is on the bond, not on the owner. -/
def withdrawBond (signer nodeID : String) (amount : UInt64) : Exec UInt64 := do
  unless ← keyExists (nodeKey nodeID .bond) do return 1
  if (← loadString (nodeKey nodeID .owner)) ≠ signer then return 1
  if (← loadUint64 (nodeKey nodeID .bond)) < amount then return 1
  if amount = 0 then return 1
  store (nodeKey nodeID .bond) (.uint64 ((← loadUint64 (nodeKey nodeID .bond)) - amount))
  return 0

/-- Only the contract owner's path (lines 30-35) stores a missing settled
total; that store comes before the `count` and overflow guards. -/
def recordSettlement (signer nodeID : String) (total count : UInt64) : Exec UInt64 := do
  unless ← keyExists (nodeKey nodeID .owner) do return 1
  if (← loadString (nodeKey nodeID .owner)) ≠ signer then
    if (← loadString ownerKey) ≠ signer then return 1
    unless ← keyExists (nodeKey nodeID .settled) do store (nodeKey nodeID .settled) (.uint64 0)
  if count = 0 then return 1
  if (← loadUint64 (nodeKey nodeID .settled)) + total < (← loadUint64 (nodeKey nodeID .settled))
    then
    return 1
  store (nodeKey nodeID .settled) (.uint64 ((← loadUint64 (nodeKey nodeID .settled)) + total))
  store (nodeKey nodeID .lastcount) (.uint64 count)
  return 0

def recordSettlementIdem (signer nodeID : String) (total count : UInt64) (batchID : String) :
    Exec UInt64 := do
  unless ← keyExists (nodeKey nodeID .owner) do return 1
  if (← loadString (nodeKey nodeID .owner)) ≠ signer then
    if (← loadString ownerKey) ≠ signer then return 1
  if count = 0 then return 1
  if batchID = "" then return 1
  if ← keyExists (nodeKey nodeID .lastbatch) then
    if (← loadString (nodeKey nodeID .lastbatch)) = batchID then return 0
  unless ← keyExists (nodeKey nodeID .settled) do store (nodeKey nodeID .settled) (.uint64 0)
  if (← loadUint64 (nodeKey nodeID .settled)) + total < (← loadUint64 (nodeKey nodeID .settled))
    then
    return 1
  store (nodeKey nodeID .settled) (.uint64 ((← loadUint64 (nodeKey nodeID .settled)) + total))
  store (nodeKey nodeID .lastcount) (.uint64 count)
  store (nodeKey nodeID .lastbatch) (.string batchID)
  return 0

/-- The three getters read one Uint64 field and answer 0 for an unknown node. -/
def getField (nodeID : String) (field : Field) : Exec UInt64 := do
  unless ← keyExists (nodeKey nodeID field) do return 0
  loadUint64 (nodeKey nodeID field)

def getPrice (nodeID : String) : Exec UInt64 := getField nodeID .price

def getStatus (nodeID : String) : Exec UInt64 := getField nodeID .status

def getBond (nodeID : String) : Exec UInt64 := getField nodeID .bond

/-- The callable functions with their arguments. -/
inductive Call where
  | initialize_
  | registerNode (nodeID metadata : String) (price : UInt64)
  | updateNode (nodeID metadata : String) (price : UInt64)
  | disableNode (nodeID : String)
  | setPrice (nodeID : String) (price : UInt64)
  | depositBond (nodeID : String) (amount : UInt64)
  | withdrawBond (nodeID : String) (amount : UInt64)
  | recordSettlement (nodeID : String) (total count : UInt64)
  | recordSettlementIdem (nodeID : String) (total count : UInt64) (batchID : String)
  | getPrice (nodeID : String)
  | getStatus (nodeID : String)
  | getBond (nodeID : String)

structure Invocation where
  signer : String
  call : Call

/-- The node ID argument; `Initialize` has none. -/
def Call.nodeID : Call → Option String
  | .initialize_ => none
  | .registerNode id _ _ | .updateNode id _ _ | .disableNode id | .setPrice id _
  | .depositBond id _ | .withdrawBond id _ | .recordSettlement id _ _
  | .recordSettlementIdem id _ _ _ | .getPrice id | .getStatus id | .getBond id => some id

def invoke (inv : Invocation) : Exec UInt64 :=
  match inv.call with
  | .initialize_ => initialize_ inv.signer
  | .registerNode id metadata price => registerNode inv.signer id metadata price
  | .updateNode id metadata price => updateNode inv.signer id metadata price
  | .disableNode id => disableNode inv.signer id
  | .setPrice id price => setPrice inv.signer id price
  | .depositBond id amount => depositBond inv.signer id amount
  | .withdrawBond id amount => withdrawBond inv.signer id amount
  | .recordSettlement id total count => recordSettlement inv.signer id total count
  | .recordSettlementIdem id total count batchID =>
    recordSettlementIdem inv.signer id total count batchID
  | .getPrice id => getPrice id
  | .getStatus id => getStatus id
  | .getBond id => getBond id

/-- The storage after an invocation. Whatever the frame stored stays, also
when it returns 1; a panic aborts the transaction. -/
def afterInvoke (s : Storage) (inv : Invocation) : Storage :=
  match invoke inv s with
  | .ok (_, t) => t
  | .error _ => s

/-- The storage right after the installer's `Initialize`. -/
def deployed (installer : String) : Storage :=
  afterInvoke (fun _ => none) ⟨installer, .initialize_⟩

/-- The storages of a deployed contract after any history of invocations. -/
def Reachable (s : Storage) : Prop :=
  ∃ installer history, s = Run.run afterInvoke (deployed installer) history

end VeilNet.Source.Contract
