import VeilNet.Source.Payments.Effects
import VeilNet.Source.Multihop.Route

/-!
`SettleRoute` of `internal/payments/multihop.go`: one `RecordSettlement` for each
hop of a circuit, in path order, up to the first error.
-/
namespace VeilNet.Source.Payments
open Lib Source.Multihop

/-- What one `RecordSettlement` of the loop meets: the collaborators' answers, the
clock, and the order in which it ranges over the receipts. -/
structure Moment (F : Type) where
  opts : Options F
  now : Time
  order : RangeOrder

inductive RouteError where
  | serviceRequired
  | emptyRoute
  | settlement (e : Error)
  deriving DecidableEq

/-- The settlements made, the error that ended the loop, and the service after it. -/
structure RouteSettled (F : Type) where
  settlements : List Settlement
  error : Option RouteError
  service : Service F

variable {F : Type} (sha256 : String → List UInt8)

/-- The loop over the hops; hop `i` meets `moments i`. -/
def settleHops : (ℕ → Moment F) → Service F → List (Hop F) → RouteSettled F
  | _, s, [] => ⟨[], none, s⟩
  | moments, s, hop :: rest =>
    match recordSettlement sha256 (moments 0).opts (moments 0).now (moments 0).order s hop.nodeID
      with
    | (.error e, s) => ⟨[], some (.settlement e), s⟩
    | (.ok st, s) =>
      let out := settleHops (fun i => moments (i + 1)) s rest
      { out with
        settlements :=
          if st.receiptIDs.length > 0 then st :: out.settlements else out.settlements }

/-- `SettleRoute`; a nil service or route is none. -/
def settleRoute (moments : ℕ → Moment F) (s : Option (Service F)) (r : Option (Route F)) :
    List Settlement × Option RouteError × Option (Service F) :=
  match s, r with
  | none, _ => ([], some .serviceRequired, none)
  | some s, none => ([], some .emptyRoute, some s)
  | some s, some r =>
    if r.hops.length = 0 then ([], some .emptyRoute, some s)
    else
      let out := settleHops sha256 moments s r.hops
      (out.settlements, out.error, some out.service)

end VeilNet.Source.Payments
