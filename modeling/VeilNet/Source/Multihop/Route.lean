import VeilNet.Lib.GoFloat
import VeilNet.Lib.GoMap
import VeilNet.Lib.GoText
import VeilNet.Lib.GoTime
import VeilNet.Lib.Outcome

/-!
Routes of one to three hops: `internal/multihop/route.go` and `guards.go`. `net.SplitHostPort` and
the Unicode case mappings are parameters; a new ID and the time are in the `Stamp` of the call.
Fields of `NodeInfo` that no function here reads are left out.
-/
namespace VeilNet.Source.Multihop
open Lib

structure NodeInfo (F : Type) where
  nodeID : String
  wgPubKey : String
  endpoint : String
  country : String
  pricePerHour : F
  latency : F
  deriving DecidableEq

structure Hop (F : Type) where
  nodeID : String
  country : String
  endpoint : String
  operatorKey : String
  pricePerHour : F
  deriving DecidableEq

structure Route (F : Type) where
  id : String
  hops : List (Hop F)
  entryPinned : Bool
  createdAt : Time
  deriving DecidableEq

inductive NodeError where
  | nodeIDEmpty
  | missingWGPubKey (nodeID : String)
  | missingEndpoint (nodeID : String)

inductive Error (F : Type) where
  | node (cause : NodeError)
  | noHops
  | tooManyHops (count cap : ℕ)
  | hopInvalid (position : ℕ) (cause : NodeError)
  | loop (nodeID : String)
  | sameHost (prev nodeID host : String)
  | sameKey (prev nodeID : String)
  | overBudget (nodeID : String) (latency budget : F)
  | sameCountry (prev nodeID country : String)
  | nilRoute | routeIDEmpty
  | hopCount (count : ℕ)
  | hopMissingID (position : ℕ)
  | hopMissingEndpoint (nodeID : String)
  | loopStored (nodeID : String)
  | sameHostStored (prev nodeID host : String)
  | noRoute
  | badReplacementExit (cause : NodeError)
  | badReplacementMiddle (cause : NodeError)
  | downstreamNeedsThree
  | noPick | emptyPool
  | pick (err : String)
  | badEntry (cause : NodeError)
  | badMiddle (cause : NodeError)
  | badExit (cause : NodeError)
  | nilCircuit | circuitIDEmpty | singleHopMissingNode
  | singleHopExitInvalid (cause : NodeError)
  | entryInvalid (cause : NodeError)
  | middleInvalid (cause : NodeError)
  | exitInvalid (cause : NodeError)
  | unsupportedHops (count : ℤ)
  | noInitialCircuit | entryIsExit | downstreamNeedsThreeHopCircuit

/-- What a constructor draws: random bytes for an ID, the clock for the ID when there are
none, and the clock for the creation time. -/
structure Stamp where
  random : Option (Vector UInt8 16)
  unixNano : ℤ
  now : Time

def newID (stamp : Stamp) : String :=
  match stamp.random with
  | none => "c-" ++ toString stamp.unixNano
  | some bytes => "c-" ++ GoText.hexEncode bytes.toList

structure Codec where
  splitHost : String → Option String
  toLower : String → String
  toUpper : String → String

def Codec.endpointHost (codec : Codec) (endpoint : String) : String :=
  match codec.splitHost endpoint with
  | some host => codec.toLower (GoText.trimSpace host)
  | none => codec.toLower (GoText.trimSpace endpoint)

/-- Hosts end at the colon. -/
def plainCodec : Codec where
  splitHost endpoint := some (String.ofList (endpoint.toList.takeWhile (· ≠ ':')))
  toLower := id
  toUpper := id

def someStamp : Stamp := ⟨none, 0, 0⟩

section build
variable {F : Type}

def NodeInfo.validate (n : NodeInfo F) : Except NodeError Unit := do
  Outcome.refuseIf (n.nodeID = "") .nodeIDEmpty
  Outcome.refuseIf (n.wgPubKey = "") (.missingWGPubKey n.nodeID)
  Outcome.refuseIf (n.endpoint = "") (.missingEndpoint n.nodeID)

/-- The maps of `checkDistinct`: the value of a key is the node that brought it. -/
structure Seen where
  ids : GoMap String Bool
  hosts : GoMap String String
  keys : GoMap String String

/-- A node without a key is not compared by its key. -/
def Seen.enterKey (seen : Seen) (n : NodeInfo F) : Except (Error F) (GoMap String String) :=
  if n.wgPubKey ≠ "" then
    GoMap.enterNew seen.keys n.wgPubKey n.nodeID fun prev => .sameKey prev n.nodeID
  else .ok seen.keys

/-- The three checks of one node. -/
def Seen.enter (codec : Codec) (seen : Seen) (n : NodeInfo F) : Except (Error F) Seen := do
  let ids ← GoMap.enterNew seen.ids n.nodeID true fun _ => .loop n.nodeID
  let host := codec.endpointHost n.endpoint
  let hosts ← GoMap.enterNew seen.hosts host n.nodeID fun prev => .sameHost prev n.nodeID host
  let keys ← seen.enterKey n
  .ok ⟨ids, hosts, keys⟩

def checkDistinctFrom (codec : Codec) (seen : Seen) : List (NodeInfo F) → Except (Error F) Unit
  | [] => .ok ()
  | n :: rest => do
    let seen ← seen.enter codec n
    checkDistinctFrom codec seen rest

def checkDistinct (codec : Codec) (nodes : List (NodeInfo F)) : Except (Error F) Unit :=
  checkDistinctFrom codec ⟨∅, ∅, ∅⟩ nodes

/-- The loop of `BuildRoute` over the nodes' own checks; positions count from 1. -/
def validateHops : ℕ → List (NodeInfo F) → Except (Error F) Unit
  | _, [] => .ok ()
  | position, n :: rest => do
    n.validate.mapError (.hopInvalid position)
    validateHops (position + 1) rest

/-- Countries in capitals; a blank one is not compared. -/
def checkCountries (codec : Codec) (seen : GoMap String String) :
    List (NodeInfo F) → Except (Error F) Unit
  | [] => .ok ()
  | n :: rest =>
    let c := codec.toUpper (GoText.trimSpace n.country)
    if c = "" then checkCountries codec seen rest
    else do
      let seen ← GoMap.enterNew seen c n.nodeID fun prev => .sameCountry prev n.nodeID c
      checkCountries codec seen rest

def NodeInfo.hop (n : NodeInfo F) : Hop F :=
  { nodeID := n.nodeID, country := n.country, endpoint := n.endpoint, operatorKey := n.wgPubKey,
    pricePerHour := n.pricePerHour }

/-- `balanced` stands for every other string too. -/
inductive Tradeoff where
  | fast | balanced | safe
  deriving DecidableEq

structure BuildOptions (F : Type) where
  maxHops : ℤ
  tradeoff : Tradeoff
  maxLatencyMs : F
  requireDiverseCountries : Bool

/-- The country check, when it is asked for. -/
def BuildOptions.checkDiversity (codec : Codec) (opts : BuildOptions F)
    (nodes : List (NodeInfo F)) : Except (Error F) Unit :=
  if opts.requireDiverseCountries ∧ nodes.length > 1 then checkCountries codec ∅ nodes else .ok ()

variable [GoFloat F]

/-- The zero value: up to three hops, no budget. -/
def BuildOptions.zero : BuildOptions F := ⟨0, .balanced, GoFloat.ofInt 0, false⟩

def BuildOptions.budgetMs (opts : BuildOptions F) : F :=
  if GoFloat.lt (GoFloat.ofInt 0) opts.maxLatencyMs then opts.maxLatencyMs
  else match opts.tradeoff with
    | .fast => GoFloat.ofInt 150
    | .safe => GoFloat.ofInt 800
    | .balanced => GoFloat.ofInt 0

/-- `MaxHops`, which zero and anything above three stand for three. -/
def BuildOptions.cap (opts : BuildOptions F) : ℕ :=
  if opts.maxHops ≤ 0 then 3 else if opts.maxHops > 3 then 3 else opts.maxHops.toNat

/-- Unmeasured nodes are never over the budget. -/
def checkBudget (budget : F) : List (NodeInfo F) → Except (Error F) Unit
  | [] => .ok ()
  | n :: rest => do
    Outcome.refuseIf (GoFloat.lt (GoFloat.ofInt 0) n.latency = true ∧
      GoFloat.lt budget n.latency = true) (.overBudget n.nodeID n.latency budget)
    checkBudget budget rest

/-- The latency check, when there is a budget. -/
def BuildOptions.checkLatency (opts : BuildOptions F) (nodes : List (NodeInfo F)) :
    Except (Error F) Unit :=
  if GoFloat.lt (GoFloat.ofInt 0) opts.budgetMs then checkBudget opts.budgetMs nodes else .ok ()

def buildRoute (codec : Codec) (stamp : Stamp) (nodes : List (NodeInfo F)) (opts : BuildOptions F) :
    Except (Error F) (Route F) := do
  Outcome.refuseIf (nodes.length = 0) .noHops
  Outcome.refuseIf (nodes.length > opts.cap) (.tooManyHops nodes.length opts.cap)
  Outcome.refuseIf (nodes.length > 3) (.tooManyHops nodes.length 3)
  validateHops 1 nodes
  checkDistinct codec nodes
  opts.checkLatency nodes
  opts.checkDiversity codec nodes
  .ok ⟨newID stamp, nodes.map NodeInfo.hop, false, stamp.now⟩

end build

section verify
variable {F : Type}

def checkHops : ℕ → List (Hop F) → Except (Error F) Unit
  | _, [] => .ok ()
  | position, h :: rest => do
    Outcome.refuseIf (h.nodeID = "") (.hopMissingID position)
    Outcome.refuseIf (h.endpoint = "") (.hopMissingEndpoint h.nodeID)
    checkHops (position + 1) rest

/-- The ID and host legs, for stored routes without operator keys. A node without a
host is not compared. -/
def checkStored (codec : Codec) (ids : GoMap String Bool) (hosts : GoMap String String) :
    List (NodeInfo F) → Except (Error F) Unit
  | [] => .ok ()
  | n :: rest => do
    let ids ← GoMap.enterNew ids n.nodeID true fun _ => .loopStored n.nodeID
    let host := codec.endpointHost n.endpoint
    let hosts ← if host ≠ "" then
        GoMap.enterNew hosts host n.nodeID fun prev => .sameHostStored prev n.nodeID host
      else .ok hosts
    checkStored codec ids hosts rest

variable [GoFloat F]

/-- The node that is rebuilt from the dial data of a hop. -/
def Hop.node (h : Hop F) : NodeInfo F :=
  ⟨h.nodeID, h.operatorKey, h.endpoint, "", GoFloat.ofInt 0, GoFloat.ofInt 0⟩

def Route.verify (codec : Codec) (r : Option (Route F)) : Except (Error F) Unit :=
  match r with
  | none => .error .nilRoute
  | some r => do
    Outcome.refuseIf (r.id = "") .routeIDEmpty
    Outcome.refuseIf (r.hops.length = 0 ∨ r.hops.length > 3) (.hopCount r.hops.length)
    checkHops 1 r.hops
    let nodes := r.hops.map Hop.node
    if ∀ n ∈ nodes, n.wgPubKey ≠ "" then checkDistinct codec nodes
    else checkStored codec ∅ ∅ nodes

end verify

section rotate
variable {F : Type}

structure GuardSet where
  entryID : String
  pinned : Bool

/-- `g` pins the entry of the route. -/
def GuardSet.guards (g : GuardSet) (r : Route F) : Bool :=
  match r.hops with
  | [] => false
  | entry :: _ => g.pinned && g.entryID = entry.nodeID

/-- `skip` holds the node IDs that are mapped to true. -/
def excludeNodes (pool : List (NodeInfo F)) (skip : Finset String) : List (NodeInfo F) :=
  if skip.card = 0 then pool else pool.filter fun n => n.nodeID ∉ skip

/-- The selection function; it may answer each call differently. -/
abbrev Pick (F : Type) := ℕ → List (NodeInfo F) → Except String (NodeInfo F)

/-- One pick for each hop, from call `i` on. -/
def pickAll (pick : Pick F) (fresh : List (NodeInfo F)) :
    ℕ → Finset String → List (Hop F) → Except (Error F) (List (NodeInfo F))
  | _, _, [] => .ok []
  | i, taken, _ :: rest => do
    let n ← (pick i (excludeNodes fresh taken)).mapError .pick
    let later ← pickAll pick fresh (i + 1) (insert n.nodeID taken) rest
    .ok (n :: later)

variable [GoFloat F] (codec : Codec) (stamp : Stamp)

def Route.rotateExit (r : Option (Route F)) (newExit : NodeInfo F) : Except (Error F) (Route F) :=
  match r with
  | none => .error .noRoute
  | some r => do
    Outcome.refuseIf (r.hops.length = 0) .noRoute
    newExit.validate.mapError .badReplacementExit
    if r.hops.length = 1 then buildRoute codec stamp [newExit] .zero
    else
      let next ← buildRoute codec stamp (r.hops.dropLast.map Hop.node ++ [newExit]) .zero
      .ok { next with entryPinned := true }

def Route.rotateDownstream (r : Option (Route F)) (newMiddle newExit : NodeInfo F) :
    Except (Error F) (Route F) :=
  match r.map Route.hops with
  | some [entry, _, _] => do
    newMiddle.validate.mapError .badReplacementMiddle
    newExit.validate.mapError .badReplacementExit
    let next ← buildRoute codec stamp [entry.node, newMiddle, newExit] .zero
    .ok { next with entryPinned := true }
  | _ => .error .downstreamNeedsThree

def Route.rotateAll (r : Option (Route F)) (newNodes : List (NodeInfo F)) :
    Except (Error F) (Route F) :=
  match r with
  | none => .error .noRoute
  | some r => do
    let next ← buildRoute codec stamp newNodes .zero
    match r.hops, next.hops with
    | old :: _, entry :: _ =>
      .ok { next with
        entryPinned := if entry.nodeID = old.nodeID then r.entryPinned else next.entryPinned }
    | _, _ => .ok next

def rotateGuarded (cur : Option (Route F)) (pool : List (NodeInfo F)) (g : Option GuardSet)
    (pick : Option (Pick F)) : Except (Error F) (Route F) :=
  match cur with
  | none => .error .noRoute
  | some r => do
    Outcome.refuseIf (r.hops.length = 0) .noRoute
    match pick with
    | none => .error .noPick
    | some pick =>
      let eligible := pool.filter fun n => n.validate.isOk
      Outcome.refuseIf (eligible.length = 0) .emptyPool
      let kept : Finset String := (r.hops.map Hop.nodeID).toFinset
      if g.any (·.guards r) then
        if r.hops.length = 1 ∨ r.hops.length = 2 then
          let next ← (pick 0 (excludeNodes eligible kept)).mapError .pick
          Route.rotateExit codec stamp (some r) next
        else
          let mid ← (pick 0 (excludeNodes eligible kept)).mapError .pick
          let exit ← (pick 1 (excludeNodes eligible (insert mid.nodeID kept))).mapError .pick
          Route.rotateDownstream codec stamp (some r) mid exit
      else
        let picked ← pickAll pick (excludeNodes eligible ∅) 0 ∅ r.hops
        Route.rotateAll codec stamp (some r) picked

end rotate

section distinct
variable {F : Type} {codec : Codec}

/-- Two hops that are neither one node nor one box. -/
structure Apart (codec : Codec) (n m : NodeInfo F) : Prop where
  id : n.nodeID ≠ m.nodeID
  host : codec.endpointHost n.endpoint ≠ codec.endpointHost m.endpoint
  key : m.wgPubKey ≠ "" → n.wgPubKey ≠ m.wgPubKey

/-- Nothing of the node has been seen. -/
structure Seen.Fresh (codec : Codec) (seen : Seen) (n : NodeInfo F) : Prop where
  id : n.nodeID ∉ seen.ids
  host : codec.endpointHost n.endpoint ∉ seen.hosts
  key : n.wgPubKey ≠ "" → n.wgPubKey ∉ seen.keys

/-- The maps after one node. -/
def Seen.with (codec : Codec) (seen : Seen) (n : NodeInfo F) : Seen :=
  ⟨seen.ids.insert n.nodeID true, seen.hosts.insert (codec.endpointHost n.endpoint) n.nodeID,
    if n.wgPubKey ≠ "" then seen.keys.insert n.wgPubKey n.nodeID else seen.keys⟩

variable {seen : Seen}

theorem enter_ok_iff {seen' : Seen} {n : NodeInfo F} :
    seen.enter codec n = .ok seen' ↔ seen.Fresh codec n ∧ seen' = seen.with codec n := by
  simp only [Seen.enter, Outcome.bind_ok_iff, GoMap.enterNew_ok_iff, Except.ok.injEq]
  constructor
  · rintro ⟨ids, ⟨newID, rfl⟩, hosts, ⟨newHost, rfl⟩, keys, entered, rfl⟩
    unfold Seen.enterKey at entered
    split at entered
    · next keyed =>
      obtain ⟨newKey, rfl⟩ := GoMap.enterNew_ok_iff.mp entered
      exact ⟨⟨newID, newHost, fun _ => newKey⟩, by rw [Seen.with, if_pos keyed]⟩
    · next unkeyed =>
      cases entered
      exact ⟨⟨newID, newHost, fun keyed => absurd keyed unkeyed⟩, by rw [Seen.with, if_neg unkeyed]⟩
  · rintro ⟨fresh, rfl⟩
    refine ⟨_, ⟨fresh.id, rfl⟩, _, ⟨fresh.host, rfl⟩, _, ?_, rfl⟩
    unfold Seen.enterKey
    split
    · next keyed => exact GoMap.enterNew_ok_iff.mpr ⟨fresh.key keyed, rfl⟩
    · rfl

theorem fresh_with_iff {n m : NodeInfo F} :
    (seen.with codec n).Fresh codec m ↔ seen.Fresh codec m ∧ Apart codec n m := by
  have key : (m.wgPubKey ≠ "" → m.wgPubKey ∉ (seen.with codec n).keys) ↔
      (m.wgPubKey ≠ "" → m.wgPubKey ∉ seen.keys) ∧ (m.wgPubKey ≠ "" → n.wgPubKey ≠ m.wgPubKey) := by
    rw [← imp_and]
    refine imp_congr_right fun keyed => ?_
    dsimp only [Seen.with]
    split
    · rw [AList.mem_insert, not_or, and_comm, ne_comm]
    · next unkeyed =>
      have empty : n.wgPubKey = "" := not_not.mp unkeyed
      rw [empty]
      exact (and_iff_left keyed.symm).symm
  constructor
  · intro fresh
    have id := fresh.id
    have host := fresh.host
    rw [Seen.with, AList.mem_insert, not_or] at id host
    exact ⟨⟨id.2, host.2, (key.mp fresh.key).1⟩,
      ⟨Ne.symm id.1, Ne.symm host.1, (key.mp fresh.key).2⟩⟩
  · rintro ⟨fresh, apart⟩
    refine ⟨?_, ?_, key.mpr ⟨fresh.key, apart.key⟩⟩
    · rw [Seen.with, AList.mem_insert, not_or]
      exact ⟨Ne.symm apart.id, fresh.id⟩
    · rw [Seen.with, AList.mem_insert, not_or]
      exact ⟨Ne.symm apart.host, fresh.host⟩

variable {nodes : List (NodeInfo F)}

theorem checkDistinctFrom_ok_iff : checkDistinctFrom codec seen nodes = .ok () ↔
      (∀ n ∈ nodes, seen.Fresh codec n) ∧ nodes.Pairwise (Apart codec) := by
  induction nodes generalizing seen with
  | nil => simp [checkDistinctFrom]
  | cons n rest ih =>
    rw [checkDistinctFrom, Outcome.bind_ok_iff, List.pairwise_cons, List.forall_mem_cons]
    constructor
    · rintro ⟨seen', entered, rest_ok⟩
      obtain ⟨fresh, rfl⟩ := enter_ok_iff.mp entered
      obtain ⟨later, apart⟩ := ih.mp rest_ok
      exact ⟨⟨fresh, fun m member => (fresh_with_iff.mp (later m member)).1⟩,
        fun m member => (fresh_with_iff.mp (later m member)).2, apart⟩
    · rintro ⟨⟨fresh, later⟩, apartHead, apart⟩
      refine ⟨seen.with codec n, enter_ok_iff.mpr ⟨fresh, rfl⟩, ih.mpr ⟨fun m member => ?_, apart⟩⟩
      exact fresh_with_iff.mpr ⟨later m member, apartHead m member⟩

theorem checkDistinct_ok_iff :
    checkDistinct codec nodes = .ok () ↔ nodes.Pairwise (Apart codec) := by
  rw [checkDistinct, checkDistinctFrom_ok_iff]
  refine and_iff_right fun n _ => ⟨AList.notMem_empty _, AList.notMem_empty _, fun _ => ?_⟩
  exact AList.notMem_empty _

end distinct

section specs
variable {F : Type} {codec : Codec}

/-- What a node needs to be dialled. -/
structure NodeInfo.Dialable (n : NodeInfo F) : Prop where
  nodeID : n.nodeID ≠ ""
  wgPubKey : n.wgPubKey ≠ ""
  endpoint : n.endpoint ≠ ""

theorem NodeInfo.validate_ok_iff {n : NodeInfo F} : n.validate = .ok () ↔ n.Dialable := by
  simp only [NodeInfo.validate, Outcome.bind_ok_iff, Outcome.refuseIf_ok_iff]
  constructor
  · rintro ⟨_, nodeID, _, wgPubKey, endpoint⟩
    exact ⟨nodeID, wgPubKey, endpoint⟩
  · intro h
    exact ⟨(), h.nodeID, (), h.wgPubKey, h.endpoint⟩

variable {position : ℕ} {nodes : List (NodeInfo F)}

theorem dialable_of_validateHops
    (valid : validateHops position nodes = .ok ()) : ∀ n ∈ nodes, n.Dialable := by
  induction nodes generalizing position with
  | nil => exact List.forall_mem_nil _
  | cons n rest ih =>
    obtain ⟨_, first, later⟩ := Outcome.of_bind_ok valid
    exact List.forall_mem_cons.mpr
      ⟨NodeInfo.validate_ok_iff.mp (Outcome.of_mapError_ok first), ih later⟩

theorem validateHops_ok
    (dialable : ∀ n ∈ nodes, n.Dialable) : validateHops position nodes = .ok () := by
  induction nodes generalizing position with
  | nil => rfl
  | cons n rest ih =>
    obtain ⟨first, later⟩ := List.forall_mem_cons.mp dialable
    rw [validateHops, NodeInfo.validate_ok_iff.mpr first]
    exact ih later

theorem newID_ne_empty (stamp : Stamp) : newID stamp ≠ "" := by
  intro empty
  have chars := congrArg String.toList empty
  unfold newID at chars
  split at chars <;> simp at chars

theorem checkHops_ok {hops : List (Hop F)}
    (dialable : ∀ h ∈ hops, h.nodeID ≠ "" ∧ h.endpoint ≠ "") :
    checkHops position hops = .ok () := by
  induction hops generalizing position with
  | nil => rfl
  | cons h rest ih =>
    obtain ⟨first, later⟩ := List.forall_mem_cons.mp dialable
    rw [checkHops, Outcome.bind_ok_iff]
    refine ⟨(), Outcome.refuseIf_ok_iff.mpr first.1, ?_⟩
    rw [Outcome.bind_ok_iff]
    exact ⟨(), Outcome.refuseIf_ok_iff.mpr first.2, ih later⟩

/-- Two stored hops that are neither one node nor, where the later has a host, one host. -/
structure StoredApart (codec : Codec) (n m : NodeInfo F) : Prop where
  id : n.nodeID ≠ m.nodeID
  host : codec.endpointHost m.endpoint ≠ "" →
    codec.endpointHost n.endpoint ≠ codec.endpointHost m.endpoint

theorem checkStored_ok_iff {ids : GoMap String Bool} {hosts : GoMap String String} :
    checkStored codec ids hosts nodes = .ok () ↔
      (∀ n ∈ nodes, n.nodeID ∉ ids ∧
        (codec.endpointHost n.endpoint ≠ "" → codec.endpointHost n.endpoint ∉ hosts)) ∧
      nodes.Pairwise (StoredApart codec) := by
  induction nodes generalizing ids hosts with
  | nil => simp [checkStored]
  | cons n rest ih =>
    rw [checkStored, Outcome.bind_ok_iff, List.pairwise_cons, List.forall_mem_cons]
    simp only [GoMap.enterNew_ok_iff]
    by_cases hosted : codec.endpointHost n.endpoint ≠ ""
    · simp only [if_pos hosted, Outcome.bind_ok_iff, GoMap.enterNew_ok_iff]
      constructor
      · rintro ⟨_, ⟨newID, rfl⟩, _, ⟨newHost, rfl⟩, later⟩
        obtain ⟨fresh, apart⟩ := ih.mp later
        simp only [AList.mem_insert, not_or] at fresh
        refine ⟨⟨⟨newID, fun _ => newHost⟩, fun m member => ?_⟩, fun m member => ?_, apart⟩
        · exact ⟨(fresh m member).1.2, fun h => ((fresh m member).2 h).2⟩
        · exact ⟨Ne.symm (fresh m member).1.1, fun h => Ne.symm ((fresh m member).2 h).1⟩
      · rintro ⟨⟨⟨newID, newHost⟩, fresh⟩, apartHead, apart⟩
        refine ⟨_, ⟨newID, rfl⟩, _, ⟨newHost hosted, rfl⟩, ih.mpr ⟨fun m member => ?_, apart⟩⟩
        simp only [AList.mem_insert, not_or]
        exact ⟨⟨Ne.symm (apartHead m member).id, (fresh m member).1⟩,
          fun h => ⟨Ne.symm ((apartHead m member).host h), (fresh m member).2 h⟩⟩
    · simp only [if_neg hosted]
      have blank : codec.endpointHost n.endpoint = "" := not_not.mp hosted
      constructor
      · rintro ⟨_, ⟨newID, rfl⟩, later⟩
        obtain ⟨fresh, apart⟩ := ih.mp later
        simp only [AList.mem_insert, not_or] at fresh
        refine ⟨⟨⟨newID, fun h => absurd h hosted⟩, fun m member => ?_⟩, fun m member => ?_, apart⟩
        · exact ⟨(fresh m member).1.2, (fresh m member).2⟩
        · exact ⟨Ne.symm (fresh m member).1.1, fun h => blank ▸ h.symm⟩
      · rintro ⟨⟨⟨newID, _⟩, fresh⟩, apartHead, apart⟩
        refine ⟨_, ⟨newID, rfl⟩, ih.mpr ⟨fun m member => ?_, apart⟩⟩
        simp only [AList.mem_insert, not_or]
        exact ⟨⟨Ne.symm (apartHead m member).id, (fresh m member).1⟩, (fresh m member).2⟩

variable [GoFloat F]

variable {stamp : Stamp} {opts : BuildOptions F} {r : Route F}

/-- What a built route is: the nodes, one to three, each fit to be dialled and all
apart. -/
theorem buildRoute_ok (built : buildRoute codec stamp nodes opts = .ok r) :
    r = ⟨newID stamp, nodes.map NodeInfo.hop, false, stamp.now⟩ ∧ 1 ≤ nodes.length ∧
      nodes.length ≤ 3 ∧ (∀ n ∈ nodes, n.Dialable) ∧ nodes.Pairwise (Apart codec) := by
  obtain ⟨_, any, built⟩ := Outcome.of_bind_ok built
  obtain ⟨_, _, built⟩ := Outcome.of_bind_ok built
  obtain ⟨_, few, built⟩ := Outcome.of_bind_ok built
  obtain ⟨_, valid, built⟩ := Outcome.of_bind_ok built
  obtain ⟨_, distinct, built⟩ := Outcome.of_bind_ok built
  obtain ⟨_, _, built⟩ := Outcome.of_bind_ok built
  obtain ⟨_, _, built⟩ := Outcome.of_bind_ok built
  cases built
  have any := Outcome.of_refuseIf_ok any
  have few := Outcome.of_refuseIf_ok few
  exact ⟨rfl, by omega, by omega, dialable_of_validateHops valid, checkDistinct_ok_iff.mp distinct⟩

/-- After a rotation of the exit the route has a new ID, and the hops before the exit
are rebuilt from their dial data. -/
theorem rotateExit_ok {r' : Route F} {newExit : NodeInfo F}
    (rotated : Route.rotateExit codec stamp (some r) newExit = .ok r') :
    r.hops ≠ [] ∧ r'.id = newID stamp ∧
      r'.hops = r.hops.dropLast.map (fun h => h.node.hop) ++ [newExit.hop] := by
  obtain ⟨_, any, rotated⟩ := Outcome.of_bind_ok rotated
  obtain ⟨_, _, rotated⟩ := Outcome.of_bind_ok rotated
  have some : r.hops ≠ [] := fun none => Outcome.of_refuseIf_ok any (by rw [none]; rfl)
  split at rotated
  · next single =>
    obtain ⟨only, hops⟩ := List.length_eq_one_iff.mp single
    obtain ⟨rfl, _⟩ := buildRoute_ok rotated
    rw [hops]
    exact ⟨List.cons_ne_nil _ _, rfl, rfl⟩
  · obtain ⟨next, built, rotated⟩ := Outcome.of_bind_ok rotated
    cases rotated
    obtain ⟨rfl, _⟩ := buildRoute_ok built
    refine ⟨some, rfl, ?_⟩
    rw [List.map_append, List.map_map]
    rfl

theorem rotateDownstream_ok {r' : Route F} {newMiddle newExit : NodeInfo F}
    (rotated : Route.rotateDownstream codec stamp (some r) newMiddle newExit = .ok r') :
    ∃ entry middle exit, r.hops = [entry, middle, exit] ∧
      r'.hops = [entry.node.hop, newMiddle.hop, newExit.hop] := by
  unfold Route.rotateDownstream at rotated
  split at rotated
  · next entry middle exit hops =>
    obtain ⟨_, _, rotated⟩ := Outcome.of_bind_ok rotated
    obtain ⟨_, _, rotated⟩ := Outcome.of_bind_ok rotated
    obtain ⟨next, built, rotated⟩ := Outcome.of_bind_ok rotated
    cases rotated
    obtain ⟨rfl, _⟩ := buildRoute_ok built
    exact ⟨entry, middle, exit, Option.some.inj hops, rfl⟩
  · cases rotated

theorem checkBudget_ok_iff {budget : F} : checkBudget budget nodes = .ok () ↔ ∀ n ∈ nodes,
      ¬ (GoFloat.lt (GoFloat.ofInt 0) n.latency = true ∧ GoFloat.lt budget n.latency = true) := by
  induction nodes with
  | nil => simp [checkBudget]
  | cons n rest ih => simp [checkBudget, Outcome.bind_ok_iff, Outcome.refuseIf_ok_iff, ih]

/-- What `BuildRoute` accepts; its stamp does not matter. -/
theorem exists_buildRoute_iff : (∃ r, buildRoute codec stamp nodes opts = .ok r) ↔
      (nodes.length ≠ 0 ∧ nodes.length ≤ opts.cap ∧ nodes.length ≤ 3) ∧ (∀ n ∈ nodes, n.Dialable) ∧
        nodes.Pairwise (Apart codec) ∧ opts.checkLatency nodes = .ok () ∧
        opts.checkDiversity codec nodes = .ok () := by
  have valid : ∀ position, validateHops position nodes = .ok () ↔ ∀ n ∈ nodes, n.Dialable :=
    fun _ => ⟨dialable_of_validateHops, validateHops_ok⟩
  simp only [buildRoute, Outcome.bind_ok_iff, Outcome.refuseIf_ok_iff, valid,
    exists_const, not_lt, gt_iff_lt, ne_eq]
  constructor
  · rintro ⟨r, any, cap, few, dialable, _, distinct, _, latency, _, diversity, _⟩
    exact ⟨⟨any, cap, few⟩, dialable, checkDistinct_ok_iff.mp distinct, latency, diversity⟩
  · rintro ⟨⟨any, cap, few⟩, dialable, apart, latency, diversity⟩
    exact ⟨_, any, cap, few, dialable, (), checkDistinct_ok_iff.mpr apart, (), latency, (),
      diversity, rfl⟩

/-- The two paths of `Verify`, which the whole list of hops chooses between. -/
theorem verify_ok_cases (passes : Route.verify codec (some r) = .ok ()) :
    ((∀ h ∈ r.hops, h.operatorKey ≠ "") ∧ (r.hops.map Hop.node).Pairwise (Apart codec)) ∨
      (¬ (∀ h ∈ r.hops, h.operatorKey ≠ "") ∧
        (r.hops.map Hop.node).Pairwise (StoredApart codec)) := by
  simp only [Route.verify, Outcome.bind_ok_iff, List.forall_mem_map] at passes
  obtain ⟨_, _, _, _, _, _, distinct⟩ := passes
  split at distinct
  · next keyed => exact .inl ⟨keyed, checkDistinct_ok_iff.mp distinct⟩
  · next unkeyed => exact .inr ⟨unkeyed, (checkStored_ok_iff.mp distinct).2⟩

theorem apart_hop_node {n m : NodeInfo F} :
    Apart codec n.hop.node m.hop.node ↔ Apart codec n m := by
  constructor
  · intro h
    exact ⟨h.id, h.host, h.key⟩
  · intro h
    exact ⟨h.id, h.host, h.key⟩

/-- A route over nodes that are apart passes its own check. -/
theorem verify_of_apart (named : r.id ≠ "")
    (hops : r.hops = nodes.map NodeInfo.hop) (any : 1 ≤ nodes.length) (few : nodes.length ≤ 3)
    (dialable : ∀ n ∈ nodes, n.Dialable) (apart : nodes.Pairwise (Apart codec)) :
    Route.verify codec (some r) = .ok () := by
  have length : r.hops.length = nodes.length := by rw [hops, List.length_map]
  have complete : ∀ h ∈ r.hops, h.nodeID ≠ "" ∧ h.endpoint ≠ "" := by
    rw [hops, List.forall_mem_map]
    exact fun n member => ⟨(dialable n member).nodeID, (dialable n member).endpoint⟩
  have keyed : ∀ n ∈ r.hops.map Hop.node, n.wgPubKey ≠ "" := by
    rw [hops, List.map_map, List.forall_mem_map]
    exact fun n member => (dialable n member).wgPubKey
  have distinct : checkDistinct codec (r.hops.map Hop.node) = .ok () := by
    rw [checkDistinct_ok_iff, hops, List.map_map, List.pairwise_map]
    exact apart.imp apart_hop_node.mpr
  simp only [Route.verify, Outcome.bind_ok_iff, Outcome.refuseIf_ok_iff]
  refine ⟨(), named, (), by omega, (), checkHops_ok complete, ?_⟩
  rw [if_pos keyed]
  exact distinct

end specs

end VeilNet.Source.Multihop
