import VeilNet.Source.Multihop.Route

/-!
Session tokens and quotes of a route: `internal/multihop/tokens.go`. The random bytes of
each token and the clock are arguments; error texts and JSON names are left out.
-/
namespace VeilNet.Source.Multihop
open Lib

inductive HopRole where
  | entry | middle | exit | single
  deriving DecidableEq

/-- The roles by position. A route has a hop, so `n` is not 0. -/
def hopRoles : ℕ → List HopRole
  | 1 => [.single]
  | 2 => [.entry, .exit]
  | n => .entry :: (List.replicate (n - 2) .middle ++ [.exit])

structure SessionToken where
  token : String
  routeID : String
  nodeID : String
  role : HopRole
  issuedAt : Time
  expiresAt : Time
  deriving DecidableEq

/-- The token authorises the node at the role on the route. -/
def SessionToken.scoped (t : SessionToken) (routeID nodeID : String) (role : HopRole) : Bool :=
  t.routeID = routeID && t.nodeID = nodeID && t.role = role && t.token ≠ ""

inductive TokenError where
  | noRoute | noRouteToReissue | noRandomness
  deriving DecidableEq

/-- What `rand.Read` fills in, if it can. -/
abbrev Draw := Option (Vector UInt8 16)

def mintToken : Draw → Except TokenError String
  | none => .error .noRandomness
  | some bytes => .ok (GoText.hexEncode bytes.toList)

/-- Without a lifetime, a day. -/
def lifetime (ttl : Duration) : Duration := if ttl ≤ 0 then 24 * Duration.hour else ttl

section tokens
variable {F : Type}

/-- The loop of `IssueTokens`; call `i` of it draws `draws i`. -/
def issueFrom (routeID : String) (now expiresAt : Time) :
    (ℕ → Draw) → List (Hop F) → List HopRole → Except TokenError (List SessionToken)
  | draws, h :: hops, role :: roles => do
    let token ← mintToken (draws 0)
    let later ← issueFrom routeID now expiresAt (fun i => draws (i + 1)) hops roles
    .ok (⟨token, routeID, h.nodeID, role, now, expiresAt⟩ :: later)
  | _, _, _ => .ok []

def issueTokens (now : Time) (draws : ℕ → Draw) (r : Option (Route F)) (ttl : Duration) :
    Except TokenError (List SessionToken) :=
  match r with
  | none => .error .noRoute
  | some r => do
    Outcome.refuseIf (r.hops.length = 0) .noRoute
    issueFrom r.id now (now + lifetime ttl) draws r.hops (hopRoles r.hops.length)

def reissueExitToken (now : Time) (draw : Draw) (r : Option (Route F)) (ttl : Duration) :
    Except TokenError SessionToken :=
  match r with
  | none => .error .noRouteToReissue
  | some r =>
    match r.hops.getLast? with
    | none => .error .noRouteToReissue
    | some exit => do
      let token ← mintToken draw
      .ok ⟨token, r.id, exit.nodeID, if r.hops.length = 1 then .single else .exit, now,
        now + lifetime ttl⟩

end tokens

structure HopQuote (F : Type) where
  nodeID : String
  role : HopRole
  pricePerHour : F
  hours : F
  amount : F

structure Quote (F : Type) where
  hopQuotes : List (HopQuote F)
  total : F
  singleApproval : Bool

inductive QuoteError (F : Type) where
  | emptyRoute
  | badHours (hours : F)

section quotes
variable {F : Type} [GoFloatSum F]

def quoteRoute (r : Option (Route F)) (hours : F) : Except (QuoteError F) (Quote F) :=
  match r with
  | none => .error .emptyRoute
  | some r => do
    Outcome.refuseIf (r.hops.length = 0) .emptyRoute
    Outcome.refuseIf (GoFloat.le hours (GoFloat.ofInt 0) = true) (.badHours hours)
    .ok {
      hopQuotes := List.zipWith (fun h role =>
        ⟨h.nodeID, role, h.pricePerHour, hours, GoFloat.mul h.pricePerHour hours⟩)
        r.hops (hopRoles r.hops.length)
      total := r.hops.foldl (fun total h => GoFloatSum.add total (GoFloat.mul h.pricePerHour hours))
        (GoFloat.ofInt 0)
      singleApproval := true }

end quotes

section specs

/-- The roles before the last do not depend on the node that has the last. -/
theorem hopRoles_eq {n : ℕ} (several : 2 ≤ n) :
    hopRoles n = .entry :: (List.replicate (n - 2) .middle ++ [.exit]) := by
  unfold hopRoles
  split
  · omega
  · rfl
  · rfl

theorem length_hopRoles {n : ℕ} (several : 2 ≤ n) : (hopRoles n).length = n := by
  rw [hopRoles_eq several]
  simp only [List.length_cons, List.length_append, List.length_replicate, List.length_nil]
  omega

theorem mintToken_ne_empty {draw : Draw} {token : String} (minted : mintToken draw = .ok token) :
    token ≠ "" := by
  cases draw with
  | none => cases minted
  | some bytes =>
    cases minted
    apply GoText.hexEncode_ne_empty
    intro empty
    have length : bytes.toList.length = 16 := Vector.length_toList
    rw [empty] at length
    cases length

end specs

end VeilNet.Source.Multihop
