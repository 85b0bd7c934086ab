import Mathlib.Data.List.Forall2
import VeilNet.Source.Multihop.Tokens
import VeilNet.Guarantees.RouteSelection
import VeilNet.Lib.Run

/-!
# Hop tokens after a rotation of the exit

A token is scoped to the ID of its route, a node and a role. A rotation of the exit keeps the hops
before it and draws a new ID; tokens that are not issued again name the old one.
-/
namespace VeilNet.Guarantees.HopTokens
open Lib Source.Multihop

variable {F : Type}

/-- A route, and the tokens that the caller stores for it. -/
structure World (F : Type) where
  route : Route F
  tokens : List SessionToken

/-- A rotation of the exit after which the exit token is issued again. -/
structure Op (F : Type) where
  newExit : NodeInfo F
  stamp : Stamp
  now : Time
  draw : Draw
  ttl : Duration

/-- The node IDs and the roles of the hops, in path order. -/
def places (r : Route F) : List (String × HopRole) :=
  (r.hops.map Hop.nodeID).zip (hopRoles r.hops.length)

/-- Each stored token is scoped to the route, and to the node and the role at its place. -/
def AllScoped (w : World F) : Prop :=
  List.Forall₂ (fun t place => SessionToken.scoped t w.route.id place.1 place.2 = true) w.tokens
    (places w.route)

/-- The route has hops before the exit, and tokens that fit it. -/
structure Served (w : World F) : Prop where
  several : 2 ≤ w.route.hops.length
  allScoped : AllScoped w

section runs
variable [GoFloat F] (codec : Codec)

/-- Only the last token is replaced. -/
def step (w : World F) (op : Op F) : World F :=
  match Route.rotateExit codec op.stamp (some w.route) op.newExit with
  | .error _ => w
  | .ok next =>
    match reissueExitToken op.now op.draw (some next) op.ttl with
    | .error _ => ⟨next, w.tokens⟩
    | .ok t => ⟨next, w.tokens.dropLast ++ [t]⟩

/-- The rotation succeeds, and so does the issue of the exit token. -/
def Succeeds (w : World F) (op : Op F) : Prop :=
  ∃ next t, Route.rotateExit codec op.stamp (some w.route) op.newExit = .ok next ∧
    reissueExitToken op.now op.draw (some next) op.ttl = .ok t

end runs

/-- The rotation draws the ID that the route has. -/
def SameID (w : World F) (op : Op F) : Prop := newID op.stamp = w.route.id

section issue

theorem scoped_issueFrom {routeID : String} {now expiresAt : Time} {draws : ℕ → Draw}
    {hops : List (Hop F)} {roles : List HopRole} {tokens : List SessionToken}
    (same : hops.length = roles.length)
    (issued : issueFrom routeID now expiresAt draws hops roles = .ok tokens) :
    List.Forall₂ (fun t place => SessionToken.scoped t routeID place.1 place.2 = true) tokens
      ((hops.map Hop.nodeID).zip roles) := by
  induction hops generalizing draws roles tokens with
  | nil =>
    cases roles with
    | nil =>
      cases issued
      exact .nil
    | cons role roles => cases same
  | cons h hops ih =>
    cases roles with
    | nil => cases same
    | cons role roles =>
      obtain ⟨token, minted, issued⟩ := Outcome.of_bind_ok issued
      obtain ⟨later, rest, issued⟩ := Outcome.of_bind_ok issued
      cases issued
      refine .cons ?_ (ih (Nat.succ.inj same) rest)
      simp [SessionToken.scoped, mintToken_ne_empty minted]

theorem allScoped_issueTokens {now : Time} {draws : ℕ → Draw} {r : Route F} {ttl : Duration}
    {tokens : List SessionToken} (several : 2 ≤ r.hops.length)
    (issued : issueTokens now draws (some r) ttl = .ok tokens) : AllScoped ⟨r, tokens⟩ := by
  obtain ⟨_, _, issued⟩ := Outcome.of_bind_ok issued
  exact scoped_issueFrom (length_hopRoles several).symm issued

theorem reissueExitToken_ok {now : Time} {draw : Draw} {r : Route F} {ttl : Duration}
    {front : List (Hop F)} {exit : Hop F} {t : SessionToken} (hops : r.hops = front ++ [exit])
    (several : 2 ≤ r.hops.length) (issued : reissueExitToken now draw (some r) ttl = .ok t) :
    t.scoped r.id exit.nodeID .exit = true := by
  have last : r.hops.getLast? = some exit := by rw [hops, List.getLast?_concat]
  simp only [reissueExitToken, last] at issued
  obtain ⟨token, minted, issued⟩ := Outcome.of_bind_ok issued
  cases issued
  have role : (if r.hops.length = 1 then HopRole.single else .exit) = .exit := if_neg (by omega)
  simp [SessionToken.scoped, mintToken_ne_empty minted, role]

end issue

section steps
variable {w : World F} {op : Op F}

theorem places_eq {r : Route F} {front : List (Hop F)} {exit : Hop F}
    (hops : r.hops = front ++ [exit]) (several : 2 ≤ r.hops.length) :
    places r = (front.map Hop.nodeID).zip (.entry :: List.replicate (front.length - 1) .middle) ++
      [(exit.nodeID, .exit)] := by
  have length : r.hops.length = front.length + 1 := by rw [hops, List.length_append]; rfl
  have lengths : (front.map Hop.nodeID).length =
      (HopRole.entry :: List.replicate (front.length - 1) .middle).length := by
    simp only [List.length_map, List.length_cons, List.length_replicate]
    omega
  rw [places, hopRoles_eq several, length, hops, List.map_append, ← List.cons_append,
    show front.length + 1 - 2 = front.length - 1 by omega, List.zip_append lengths]
  rfl

theorem AllScoped.routeID (held : AllScoped w) : ∀ t ∈ w.tokens, t.routeID = w.route.id := by
  intro t member
  obtain ⟨i, bound, rfl⟩ := List.mem_iff_getElem.mp member
  have here := held.get bound (held.length_eq ▸ bound)
  simp only [List.get_eq_getElem, SessionToken.scoped, Bool.and_eq_true, decide_eq_true_eq] at here
  exact here.1.1.1

variable [GoFloat F] {codec : Codec}

/-- What a successful rotation leaves: a new ID, the places before the last, and a token
for the new exit. -/
theorem step_of_succeeds (several : 2 ≤ w.route.hops.length) (succeeds : Succeeds codec w op) :
    2 ≤ (step codec w op).route.hops.length ∧ (step codec w op).route.id = newID op.stamp ∧
      places (step codec w op).route = (places w.route).dropLast ++ [(op.newExit.nodeID, .exit)] ∧
      ∃ t, (step codec w op).tokens = w.tokens.dropLast ++ [t] ∧
        t.scoped (newID op.stamp) op.newExit.nodeID .exit = true := by
  obtain ⟨next, t, rotated, issued⟩ := succeeds
  obtain ⟨some, id, hops⟩ := rotateExit_ok rotated
  obtain ⟨front, exit, before⟩ := (List.eq_nil_or_concat' w.route.hops).resolve_left some
  rw [before, List.dropLast_concat] at hops
  have still : 2 ≤ next.hops.length := by
    rw [hops]
    rw [before] at several
    simpa using several
  simp only [step, rotated, issued]
  refine ⟨still, id, ?_, t, rfl, ?_⟩
  · rw [places_eq hops still, places_eq before several, List.dropLast_concat, List.map_map,
      List.length_map]
    rfl
  · rw [← id]
    exact reissueExitToken_ok hops still issued

theorem Served.step (served : Served w) (succeeds : Succeeds codec w op) (same : SameID w op) :
    Served (step codec w op) := by
  obtain ⟨several, held⟩ := served
  obtain ⟨still, id, after, t, tokens, fresh⟩ := step_of_succeeds several succeeds
  refine ⟨still, ?_⟩
  unfold AllScoped
  rw [id, after, tokens, List.dropLast_eq_take, List.dropLast_eq_take, held.length_eq, same]
  rw [same] at fresh
  exact List.rel_append (List.forall₂_take _ held) (.cons fresh .nil)

/-- The entry token is not issued again: the ID that it names is the one from before. -/
theorem Served.sameID (served : Served w) (succeeds : Succeeds codec w op)
    (after : AllScoped (HopTokens.step codec w op)) : SameID w op := by
  obtain ⟨several, held⟩ := served
  obtain ⟨still, id, _, t, tokens, _⟩ := step_of_succeeds several succeeds
  have counted : w.tokens.length = w.route.hops.length := by
    rw [held.length_eq, places, List.length_zip, List.length_map, length_hopRoles several,
      Nat.min_self]
  obtain ⟨entry, rest, stored⟩ := List.exists_cons_of_length_pos (by omega : 0 < w.tokens.length)
  have kept : entry ∈ (HopTokens.step codec w op).tokens := by
    rw [tokens, stored]
    cases rest with
    | nil =>
      rw [stored, List.length_singleton] at counted
      omega
    | cons second more => exact List.mem_cons_self
  have new := after.routeID entry kept
  have old := held.routeID entry (stored ▸ List.mem_cons_self)
  rw [id] at new
  exact new.symm.trans old

end steps

/-- For every route of two or more hops with its tokens, and every run of successful rotations of
the exit: every stored token stays scoped to the current route, its node and its role exactly when
each rotation draws the ID that the route has already. -/
theorem tokens_scoped_iff [GoFloat F] (codec : Codec) (r : Route F) (several : 2 ≤ r.hops.length)
    (now : Time) (draws : ℕ → Draw) (ttl : Duration) (tokens : List SessionToken)
    (issued : issueTokens now draws (some r) ttl = .ok tokens) (ops : List (Op F))
    (succeed : Run.Along (step codec) (Succeeds codec) ⟨r, tokens⟩ ops) :
    Run.Throughout (step codec) AllScoped ⟨r, tokens⟩ ops ↔
      Run.Along (step codec) SameID ⟨r, tokens⟩ ops := by
  have served : Served ⟨r, tokens⟩ := ⟨several, allScoped_issueTokens several issued⟩
  exact Run.throughout_iff_along_of_stronger served (fun _ => Served.allScoped)
    (fun _ _ succeeds served same => served.step succeeds same)
    (fun _ _ succeeds served after => served.sameID succeeds after) succeed

section sample
open Guarantees.RouteSelection (someCandidate freeRoute)

/-- Sixteen bytes for each token. -/
def someDraw : Draw := some (Vector.replicate 16 7)

/-- A rotation to a third node that draws the ID of `stamp`. -/
def toThird (stamp : Stamp) : Op ℚ :=
  ⟨(someCandidate "c" "m" "j" 0).toNodeInfo, stamp, 60, someDraw, 0⟩

def twoTokens : List SessionToken :=
  ["a", "b"].zipWith (fun node role => ⟨"07070707070707070707070707070707", "c-0", node, role, 0,
    24 * Duration.hour⟩) [.entry, .exit]

/-- A rotation that happens to draw the old ID again leaves the tokens usable. -/
theorem sameDraw_scoped :
    issueTokens 0 (fun _ => someDraw) (some freeRoute) 0 = .ok twoTokens ∧
      Run.Throughout (step plainCodec) AllScoped ⟨freeRoute, twoTokens⟩ [toThird someStamp] := by
  have issued : issueTokens 0 (fun _ => someDraw) (some freeRoute) 0 = .ok twoTokens := by
    decide
  refine ⟨issued, (tokens_scoped_iff plainCodec freeRoute
    (by decide) 0 _ 0 twoTokens issued _ ?_).mpr
    ⟨show newID someStamp = "c-0" by decide, trivial⟩⟩
  exact ⟨⟨_, _, rfl, rfl⟩, trivial⟩

/-- The rotation draws an ID of its own: both calls succeed, and the entry token names the
route from before. -/
theorem freshDraw_not_scoped :
    issueTokens 0 (fun _ => someDraw) (some freeRoute) 0 = .ok twoTokens ∧
      Run.Along (step plainCodec) (Succeeds plainCodec) ⟨freeRoute, twoTokens⟩
        [toThird ⟨someDraw, 0, 0⟩] ∧
      ¬ AllScoped (step plainCodec ⟨freeRoute, twoTokens⟩ (toThird ⟨someDraw, 0, 0⟩)) := by
  refine ⟨by decide, ⟨⟨_, _, rfl, rfl⟩, trivial⟩, fun held => ?_⟩
  have entry := held.routeID _ List.mem_cons_self
  exact absurd entry (by decide)

end sample

end VeilNet.Guarantees.HopTokens
