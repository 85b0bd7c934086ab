import Mathlib
import VeilNet.Source.Multihop.Tokens
import VeilNet.Guarantees.RouteSelection
import VeilNet.Lib.Run

/-!
# What a rotation keeps

A rotation rebuilds the hops that it keeps from node ID, endpoint and operator key. Country and
price are lost, so that a quote leaves out what the kept nodes ask for.
-/
namespace VeilNet.Guarantees.KeptHops
open Lib Source.Multihop

variable {F : Type}

inductive Rotation (F : Type) where
  | exit (newExit : NodeInfo F)
  | downstream (newMiddle newExit : NodeInfo F)

structure Op (F : Type) where
  rotation : Rotation F
  stamp : Stamp

/-- What stays of a list with one entry for each hop. -/
def Rotation.kept {α : Type} : Rotation F → List α → List α
  | .exit _, l => l.dropLast
  | .downstream .., l => l.take 1

def Rotation.fresh : Rotation F → List (NodeInfo F)
  | .exit newExit => [newExit]
  | .downstream newMiddle newExit => [newMiddle, newExit]

/-- A route, and the prices that its nodes advertise. -/
structure World (F : Type) where
  route : Route F
  advertised : List F

def start (r : Route F) : World F := ⟨r, r.hops.map Hop.pricePerHour⟩

section runs
variable [GoFloat F] (codec : Codec)

def Op.rotate (op : Op F) (r : Route F) : Except (Error F) (Route F) :=
  match op.rotation with
  | .exit newExit => Route.rotateExit codec op.stamp (some r) newExit
  | .downstream newMiddle newExit =>
    Route.rotateDownstream codec op.stamp (some r) newMiddle newExit

/-- A call that fails leaves the route as it is. -/
def step (w : World F) (op : Op F) : World F :=
  match op.rotate codec w.route with
  | .error _ => w
  | .ok next =>
    ⟨next, op.rotation.kept w.advertised ++ op.rotation.fresh.map NodeInfo.pricePerHour⟩

/-- If the call succeeds, the hops it keeps are the same in every field. -/
def Untouched (w : World F) (op : Op F) : Prop :=
  ∀ next, op.rotate codec w.route = .ok next →
    op.rotation.kept next.hops = op.rotation.kept w.route.hops

structure Bare (h : Hop F) : Prop where
  country : h.country = ""
  pricePerHour : h.pricePerHour = GoFloat.ofInt 0

/-- If the call succeeds, the hops it keeps have neither country nor price. -/
def KeepsBare (w : World F) (op : Op F) : Prop :=
  ∀ next, op.rotate codec w.route = .ok next → ∀ h ∈ op.rotation.kept w.route.hops, Bare h

end runs

/-- Each quote of the route asks for what its nodes advertise. -/
def PricedInFull (w : World ℚ) : Prop :=
  ∀ hours : ℚ, 0 < hours → ∃ q, quoteRoute (some w.route) hours = .ok q ∧
    q.total = hours * w.advertised.sum

section steps
variable [GoFloat F] {codec : Codec} {w : World F} {op : Op F}

theorem rebuilt_eq_iff {h : Hop F} : h.node.hop = h ↔ Bare h := by
  constructor
  · intro same
    exact ⟨(congrArg Hop.country same).symm, (congrArg Hop.pricePerHour same).symm⟩
  · intro bare
    obtain ⟨nodeID, country, endpoint, operatorKey, pricePerHour⟩ := h
    obtain ⟨rfl, rfl⟩ := bare
    rfl

/-- The hops after a rotation: the kept ones rebuilt, and the new ones. -/
theorem hops_of_rotate {r next : Route F} (rotated : op.rotate codec r = .ok next) :
    next.hops = (op.rotation.kept r.hops).map (fun h => h.node.hop) ++
        op.rotation.fresh.map NodeInfo.hop ∧
      op.rotation.kept next.hops = (op.rotation.kept r.hops).map fun h => h.node.hop := by
  obtain ⟨rotation, stamp⟩ := op
  cases rotation with
  | exit newExit =>
    obtain ⟨_, _, hops⟩ := rotateExit_ok rotated
    refine ⟨hops, ?_⟩
    rw [Rotation.kept, hops, List.dropLast_concat]
    rfl
  | downstream newMiddle newExit =>
    obtain ⟨entry, middle, exit, before, after⟩ := rotateDownstream_ok rotated
    simp only [Rotation.kept, before, after]
    exact ⟨rfl, rfl⟩

/-- A rotation leaves the kept hops untouched exactly when they are bare. -/
theorem untouched_iff : Untouched codec w op ↔ KeepsBare codec w op := by
  refine forall_congr' fun next => forall_congr' fun rotated => ?_
  rw [(hops_of_rotate rotated).2]
  have fixed : ∀ l : List (Hop F), l.map (fun h => h.node.hop) = l ↔ ∀ h ∈ l, h.node.hop = h := by
    intro l
    conv_lhs => rhs; rw [← List.map_id l]
    exact List.map_inj_left
  rw [fixed]
  exact forall₂_congr fun h _ => rebuilt_eq_iff

/-- The prices of the hops are those that the nodes advertise. -/
structure Priced (w : World F) : Prop where
  some : w.route.hops ≠ []
  prices : w.advertised = w.route.hops.map Hop.pricePerHour

theorem Priced.step (priced : Priced w) (untouched : Untouched codec w op) :
    Priced (step codec w op) := by
  unfold KeptHops.step
  cases rotated : op.rotate codec w.route with
  | error e => exact priced
  | ok next =>
    obtain ⟨hops, kept⟩ := hops_of_rotate rotated
    rw [← kept, untouched next rotated] at hops
    have commutes : ∀ l : List (Hop F), op.rotation.kept (l.map Hop.pricePerHour) =
        (op.rotation.kept l).map Hop.pricePerHour := by
      intro l
      cases op.rotation with
      | exit newExit => exact List.map_dropLast.symm
      | downstream newMiddle newExit => exact List.map_take.symm
    constructor
    · rw [hops]
      cases op.rotation with
      | exit newExit => simp [Rotation.fresh]
      | downstream newMiddle newExit => simp [Rotation.fresh]
    · dsimp only
      rw [hops, priced.prices, commutes, List.map_append, List.map_map]
      rfl

end steps

theorem Priced.pricedInFull {w : World ℚ} (priced : Priced w) : PricedInFull w := by
  intro hours positive
  have several : ¬ w.route.hops.length = 0 :=
    fun none => priced.some (List.length_eq_zero_iff.mp none)
  have allowed : ¬ GoFloat.le hours (GoFloat.ofInt 0) = true := by
    simpa [GoFloat.le, GoFloat.ofInt] using positive
  refine ⟨_, by simp only [quoteRoute, Outcome.refuseIf, if_neg several, if_neg allowed]; rfl, ?_⟩
  have total : ∀ (hops : List (Hop ℚ)) (acc : ℚ),
      hops.foldl (fun total h => GoFloatSum.add total (GoFloat.mul h.pricePerHour hours)) acc =
        acc + hours * (hops.map Hop.pricePerHour).sum := by
    intro hops
    induction hops with
    | nil => simp
    | cons h rest ih =>
      intro acc
      rw [List.foldl_cons, ih, List.map_cons, List.sum_cons]
      simp only [GoFloatSum.add, GoFloat.mul]
      ring
  rw [priced.prices, total]
  simp [GoFloat.ofInt]

/-- For every route and every run of rotations: each call leaves the hops it keeps as they are
exactly when these have neither country nor price. With exact prices, the same condition is the
one under which moreover each quote asks for all that the nodes advertise. -/
theorem rotations_untouched_iff (codec : Codec) :
    (∀ (F : Type) [GoFloat F] (r : Route F) (ops : List (Op F)),
      Run.Along (step codec) (Untouched codec) (start r) ops ↔
        Run.Along (step codec) (KeepsBare codec) (start r) ops) ∧
    ∀ (r : Route ℚ) (ops : List (Op ℚ)), r.hops ≠ [] →
      ((Run.Along (step codec) (Untouched codec) (start r) ops ∧
          Run.Throughout (step codec) PricedInFull (start r) ops) ↔
        Run.Along (step codec) (KeepsBare codec) (start r) ops) := by
  have each : ∀ (F : Type) [GoFloat F] (r : Route F) (ops : List (Op F)),
      Run.Along (step codec) (Untouched codec) (start r) ops ↔
        Run.Along (step codec) (KeepsBare codec) (start r) ops := by
    intro F _ r ops
    exact Run.along_congr fun _ _ => untouched_iff
  refine ⟨each, fun r ops some => ?_⟩
  rw [← each]
  refine and_iff_left_of_imp fun untouched => ?_
  have priced : Priced (start r) := ⟨some, rfl⟩
  have throughout : Run.Throughout (step codec) Priced (start r) ops :=
    Run.throughout_of_invariant priced (fun _ _ untouched priced => priced.step untouched) untouched
  exact throughout.mono fun _ priced => priced.pricedInFull

section sample
open Guarantees.RouteSelection (freeRoute)

/-- A rotation to an exit in Sweden at one unit an hour. -/
def toSweden : Op ℚ := ⟨.exit ⟨"c", "m", "j:51820", "SE", 1, 0⟩, someStamp⟩

/-- A free entry is kept as it is, and the quote is that of the new exit. -/
theorem freeRoute_untouched :
    Run.Along (step plainCodec) (Untouched plainCodec) (start freeRoute) [toSweden] ∧
      Run.Throughout (step plainCodec) PricedInFull (start freeRoute) [toSweden] := by
  apply ((rotations_untouched_iff plainCodec).2 freeRoute [toSweden] (List.cons_ne_nil _ _)).mpr
  refine ⟨fun next _ h member => ?_, trivial⟩
  rw [List.mem_singleton.mp member]
  exact ⟨rfl, rfl⟩

/-- An entry in Germany at two units an hour, and an exit in the Netherlands at one. -/
def pricedRoute : Route ℚ :=
  ⟨"c-0", [⟨"a", "DE", "h:51820", "k", 2⟩, ⟨"b", "NL", "i:51820", "l", 1⟩], false, 0⟩

/-- The rotation succeeds and takes country and price from the entry: the quote of an hour
is 1, where the nodes ask for 3. -/
theorem pricedRoute_touched :
    (toSweden.rotate plainCodec pricedRoute).toOption.map Route.hops =
        some [⟨"a", "", "h:51820", "k", 0⟩, ⟨"c", "SE", "j:51820", "m", 1⟩] ∧
      (quoteRoute (some (step plainCodec (start pricedRoute) toSweden).route) 1).toOption.map
        Quote.total = some 1 ∧
      (step plainCodec (start pricedRoute) toSweden).advertised.sum = 3 := by
  decide +kernel

end sample

end VeilNet.Guarantees.KeptHops
