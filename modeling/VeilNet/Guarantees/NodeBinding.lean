import VeilNet.Guarantees.TokenLifecycle
import VeilNet.Guarantees.AddressLeases

/-!
# Tokens and the nodes they are minted for

Several controllers ask one issuer through `SessionValidator`. `Mint` records the node of a token,
but no controller compares it with its own. So a string that is accepted was minted for the
controller's node only if it is presented there.
-/
namespace VeilNet.Guarantees.NodeBinding
open Lib Source Source.Nodes

/-- A controller and its `cfg.NodeID`, which `Authorize` does not read. -/
structure Node where
  nodeID : String
  ctl : Controller

/-- The issuer with the history of its run, and the nodes that share it. -/
structure World (ι : Type) where
  life : TokenLifecycle.Lifecycle
  nodes : ι → Node

/-- What an `Authorize` call is given. The validator's answer in `call` is not
used: it is the issuer's, at `validatedAt`. -/
structure Presented where
  raw : String
  validatedAt : Time
  call : Call
  clientPubkey : String
  endpoint : String

inductive Op (ι : Type) where
  | issuer (op : TokenLifecycle.Op)
  | authorize (i : ι) (p : Presented)
  | revoke (i : ι) (now : Time) (tokenID : String)
  | sweepOnce (i : ι) (now : Time) (order : RangeOrder)

section model
variable {ι : Type} (sha256 : String → List UInt8) (text : IPText)

/-- The call with the issuer's answer for the presented string. -/
def Presented.asked (life : TokenLifecycle.Lifecycle) (p : Presented) : Call :=
  { p.call with
    validated := Tokens.SessionValidator.validate sha256 p.validatedAt ⟨some life.issuer⟩ p.raw }

def authorize (w : World ι) (i : ι) (p : Presented) :
    Except Error Sessions.Session × Controller × List Effect :=
  (w.nodes i).ctl.authorize text (p.asked sha256 w.life) p.clientPubkey p.endpoint

def setCtl [DecidableEq ι] (w : World ι) (i : ι) (ctl : Controller) : World ι :=
  { w with nodes := Function.update w.nodes i { w.nodes i with ctl } }

def step [DecidableEq ι] (w : World ι) : Op ι → World ι
  | .issuer op => { w with life := TokenLifecycle.step w.life op }
  | .authorize i p => setCtl w i (authorize sha256 text w i p).2.1
  | .revoke i now tokenID => setCtl w i ((w.nodes i).ctl.revoke text now tokenID).2.1
  | .sweepOnce i now order => setCtl w i ((w.nodes i).ctl.sweepOnce text order now).2.1

/-- A named node that serves a string serves a token minted for it. -/
def Bound (w : World ι) : Op ι → Prop
  | .authorize i p =>
    (authorize sha256 text w i p).1.isOk → (w.nodes i).nodeID ≠ "" →
      ∃ t ∈ w.life.minted, t.raw = p.raw ∧ t.nodeID = (w.nodes i).nodeID
  | .issuer _ | .revoke .. | .sweepOnce .. => True

/-- What the issuer has on record under the ID of a bearer string. -/
def recordOf (iss : Tokens.Issuer) (raw : String) : Option Tokens.Record :=
  (GoText.cut raw '.').bind fun (id, _) => iss.tokens.lookup id

/-- A string is presented to a named node only if its record, when there is one,
names this node. -/
def PresentedAtHome (w : World ι) : Op ι → Prop
  | .authorize i p =>
    (w.nodes i).nodeID ≠ "" →
      ∀ record ∈ recordOf w.life.issuer p.raw, record.nodeID = (w.nodes i).nodeID
  | .issuer _ | .revoke .. | .sweepOnce .. => True

end model

/-- Every record is that of a token minted in the run. IDs may repeat: the last
token minted under an ID has the record. -/
def Backed (life : TokenLifecycle.Lifecycle) : Prop :=
  ∀ id record, life.issuer.tokens.lookup id = some record →
    ∃ t ∈ life.minted, t.WellFormed ∧ t.id = id ∧ t.record = record

theorem backed_start (clock : Time) : Backed (TokenLifecycle.start clock) := by
  intro id record found
  cases found

theorem Backed.step {life : TokenLifecycle.Lifecycle} (h : Backed life) (op : TokenLifecycle.Op) :
    Backed (TokenLifecycle.step life op) := by
  cases op with
  | mint now draw nodeID sessionID ttl scope =>
    rw [TokenLifecycle.step]
    split
    · next t iss minted =>
      obtain ⟨rfl, wellFormed, _⟩ := Tokens.mint_ok minted
      intro id record found
      rcases GoMap.lookup_insert_cases found with ⟨rfl, rfl⟩ | ⟨_, old⟩
      · exact ⟨t, List.mem_cons_self, wellFormed, rfl, rfl⟩
      · obtain ⟨t', member, facts⟩ := h id record old
        exact ⟨t', List.mem_cons_of_mem t member, facts⟩
    · next e iss refused =>
      obtain rfl := Tokens.mint_error refused
      exact h
  | revoke now id =>
    rw [TokenLifecycle.step, Tokens.revoke]
    cases life.issuer.tokens.lookup id with
    | none => exact h
    | some record => exact h
  | sweep now order =>
    intro id record found
    rw [TokenLifecycle.step, Tokens.lookup_sweep, Option.filter_eq_some_iff] at found
    exact h id record found.1

section binding
variable {ι : Type} {sha256 : String → List UInt8} {text : IPText}

/-- A string that a controller serves was minted, for the node that its record names. -/
theorem served_minted (collisionFree : Function.Injective sha256) {w : World ι}
    (backed : Backed w.life) {i : ι} {p : Presented}
    (served : (authorize sha256 text w i p).1.isOk) :
    ∃ t ∈ w.life.minted, t.raw = p.raw ∧ recordOf w.life.issuer p.raw = some t.record := by
  rcases Controller.authorize_cases text (p.asked sha256 w.life) (w.nodes i).ctl p.clientPubkey
    p.endpoint with ⟨e, next, refused, _⟩ | ⟨tok, off, next, s, reaches, _, _, _, _⟩
  · rw [authorize, refused] at served
    cases served
  · have asked : Tokens.SessionValidator.validate sha256 p.validatedAt ⟨some w.life.issuer⟩ p.raw =
        .ok tok := reaches.2.2.1
    obtain ⟨iss, answer, shared, accepted, _⟩ := Tokens.SessionValidator.validate_ok asked
    cases shared
    obtain ⟨secret, record, splits, found, _, digests, _, _⟩ := Tokens.validate_ok accepted
    obtain ⟨t, member, wellFormed, sameID, rfl⟩ := backed _ _ found
    refine ⟨t, member, ?_, ?_⟩
    · rw [wellFormed.raw, (GoText.cut_iff.mp splits).1, sameID, collisionFree digests]
      rfl
    · rw [recordOf, splits]
      exact found

theorem step_life [DecidableEq ι] (w : World ι) (op : Op ι) :
    (step sha256 text w op).life = w.life ∨
      ∃ issuerOp, (step sha256 text w op).life = TokenLifecycle.step w.life issuerOp := by
  cases op with
  | issuer op => exact .inr ⟨op, rfl⟩
  | authorize i p => exact .inl rfl
  | revoke i now tokenID => exact .inl rfl
  | sweepOnce i now order => exact .inl rfl

theorem backed_step [DecidableEq ι] {w : World ι} (h : Backed w.life) (op : Op ι) :
    Backed (step sha256 text w op).life := by
  rcases step_life w op with same | ⟨issuerOp, changed⟩
  · rw [same]
    exact h
  · rw [changed]
    exact h.step issuerOp

end binding

/-- Any nodes share one issuer: while no string is presented to a named node against its record,
every string that a named node serves was minted for this node. -/
theorem served_at_home {ι : Type} [DecidableEq ι] (sha256 : String → List UInt8)
    (collisionFree : Function.Injective sha256) (text : IPText) (clock : Time) (nodes : ι → Node)
    (ops : List (Op ι))
    (atHome : Run.Along (step sha256 text) PresentedAtHome
      ⟨TokenLifecycle.start clock, nodes⟩ ops) :
    Run.Along (step sha256 text) (Bound sha256 text) ⟨TokenLifecycle.start clock, nodes⟩ ops := by
  have preserved : ∀ (w : World ι) (op : Op ι), PresentedAtHome w op → Backed w.life →
      Backed (step sha256 text w op).life := fun w op _ h => backed_step h op
  refine Run.along_of_invariant (backed_start clock) preserved ?_ atHome
  intro w op home backed
  cases op with
  | authorize i p =>
    intro served named
    obtain ⟨t, member, sameRaw, onRecord⟩ := served_minted collisionFree backed served
    exact ⟨t, member, sameRaw, home named t.record onRecord⟩
  | issuer op => trivial
  | revoke i now tokenID => trivial
  | sweepOnce i now order => trivial

section sample
open AddressLeases

/-- Two exit nodes with names of their own. -/
def twoNodes : Bool → Node
  | false => ⟨"a", exitNode⟩
  | true => ⟨"b", exitNode⟩

def mintForA : Op Bool :=
  .issuer (.mint 0 ⟨some (.replicate 16 0), some (.replicate 32 7)⟩ "a" "s" Duration.hour "")

/-- The bearer string that `mintForA` returns. -/
def tokenForA : String :=
  GoText.hexEncode (List.replicate 16 0) ++ "." ++ GoText.base64urlEncode (List.replicate 32 7)

def presentTo (i : Bool) : Op Bool :=
  .authorize i ⟨tokenForA, 1, hourCall 1 (.ok ()), "key", ""⟩

/-- The token is presented where it belongs, and a string without a record elsewhere. -/
theorem tokenForA_served_at_home :
    Run.Along (step GoText.utf8 IPText.dottedQuad)
      (Bound GoText.utf8 IPText.dottedQuad) ⟨TokenLifecycle.start 0, twoNodes⟩
      [mintForA, presentTo false, .authorize true ⟨"x.y", 1, hourCall 1 (.ok ()), "key", ""⟩] := by
  refine served_at_home GoText.utf8 GoText.utf8_injective
    IPText.dottedQuad 0 twoNodes _ ⟨trivial, fun _ => ?_, fun _ => ?_, trivial⟩
  · decide +kernel
  · decide

/-- The state in which the token for `a` exists. -/
def minted : World Bool :=
  step GoText.utf8 IPText.dottedQuad ⟨TokenLifecycle.start 0, twoNodes⟩ mintForA

/-- Node `b` serves the token that was minted for node `a` only. -/
theorem tokenForA_served_at_b :
    minted.life.minted.map (fun t => (t.raw, t.nodeID)) = [(tokenForA, "a")] ∧
    (authorize GoText.utf8 IPText.dottedQuad minted true
      ⟨tokenForA, 1, hourCall 1 (.ok ()), "key", ""⟩).1.isOk = true ∧
    ¬ Bound GoText.utf8 IPText.dottedQuad minted (presentTo true) := by
  have tokens : minted.life.minted.map (fun t => (t.raw, t.nodeID)) = [(tokenForA, "a")] := by
    decide
  have served : (authorize GoText.utf8 IPText.dottedQuad minted true
      ⟨tokenForA, 1, hourCall 1 (.ok ()), "key", ""⟩).1.isOk = true := by decide
  refine ⟨tokens, served, fun bound => ?_⟩
  obtain ⟨t, member, _, atB⟩ := bound served (by decide)
  have listed := List.mem_map_of_mem (f := fun t : Tokens.Token => (t.raw, t.nodeID)) member
  rw [tokens, List.mem_singleton] at listed
  have atA : t.nodeID = "a" := (Prod.mk.inj listed).2
  rw [atA] at atB
  exact absurd atB (by decide)

end sample

end VeilNet.Guarantees.NodeBinding
