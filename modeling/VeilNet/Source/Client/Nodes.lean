import VeilNet.Source.Multihop.Route
import VeilNet.Source.Tunnel.Engine

/-!
The candidate nodes and the choice among them: `ListNodes` and `findNode` of
`internal/app/app.go`, `internal/app/select.go`, and `bestExcept` of `internal/app/circuit.go`.
The provider is a fixed list or an error; what the store knows may differ from listing to listing.
Fields of `NodeInfo` that no function here reads are left out.
-/
namespace VeilNet.Source.Client
open Lib Lib.Outcome Source

structure NodeInfo (F : Type) where
  nodeID : String
  wgPubkey : String
  region : String
  country : String
  endpoint : String
  pricePerHourDero : F
  bondDero : F
  status : String
  load : F
  latencyMs : ℤ
  trust : F
  failCount : ℤ

/-- The errors of the client's functions on nodes, circuits and sessions. -/
inductive Error (F : Type) where
  | provider (text : String)
  | notFound (nodeID : String)
  | noSuitable
  | alreadyConnected | notConnected | noEngine
  | privateKey (text : String)
  | engine (cause : Tunnel.EngineError)
  | enforcement (text : String)
  | stop (text : String)
  | notLive | wrongCount | noSecondHop | notSeparated | noFreshExit
  | route (cause : Multihop.Error F)

/-- `fastest` stands for the empty string and every other one too. -/
inductive SelectPolicy where
  | fastest | lowestLoad | lowestPrice | privacy | specificRegion
  deriving DecidableEq

/-- What `sort.Slice` makes of a list. It is not stable, so nothing is said of equal
elements. -/
structure Sorter (α : Type) where
  sort : (α → α → Bool) → List α → List α
  perm : ∀ less l, (sort less l).Perm l

/-- What the store knows of a node: its mean latency, if there are samples, and its trust. -/
structure Observed (F : Type) where
  latency : Option ℤ
  trust : Option F

section choice
variable {F : Type} [GoFloatDiff F]

/-- The constant `k / 100`. -/
def hundredths (k : ℤ) : F := GoFloat.div (GoFloat.ofInt k) (GoFloat.ofInt 100)

def NodeInfo.observe (n : NodeInfo F) (o : Observed F) : NodeInfo F :=
  { n with latencyMs := o.latency.getD (-1), trust := o.trust.getD (hundredths 50) }

abbrev Provider (F : Type) := Except String (List (NodeInfo F))

def listNodes (provider : Provider F) (look : String → Observed F) :
    Except (Error F) (List (NodeInfo F)) :=
  match provider with
  | .error text => .error (.provider text)
  | .ok nodes => .ok (nodes.map fun n => n.observe (look n.nodeID))

def findNode (provider : Provider F) (look : String → Observed F) (id : String) :
    Except (Error F) (NodeInfo F) := do
  let nodes ← listNodes provider look
  match nodes.find? fun n => n.nodeID = id with
  | none => .error (.notFound id)
  | some n => .ok n

/-- The nodes of a list of IDs, each from a listing of its own; `k` counts the listings. -/
def findNodes (provider : Provider F) (look : ℕ → String → Observed F) :
    ℕ → List String → Except (Error F) (List (NodeInfo F))
  | _, [] => .ok []
  | k, id :: rest => do
    let n ← findNode provider (look k) id
    let later ← findNodes provider look (k + 1) rest
    .ok (n :: later)

/-- Neither of another status nor failing again and again. -/
def NodeInfo.eligible (n : NodeInfo F) : Bool :=
  (n.status = "" || n.status = "active") && n.failCount < 5

def clamp01 (f : F) : F :=
  if GoFloat.lt f (GoFloat.ofInt 0) then GoFloat.ofInt 0
  else if GoFloat.lt (GoFloat.ofInt 1) f then GoFloat.ofInt 1
  else f

structure Weights (F : Type) where
  latency : F
  load : F
  price : F
  trust : F

def SelectPolicy.weights : SelectPolicy → Weights F
  | .lowestLoad => ⟨hundredths 25, hundredths 50, hundredths 10, hundredths 15⟩
  | .lowestPrice => ⟨hundredths 25, hundredths 15, hundredths 50, hundredths 10⟩
  | .privacy => ⟨hundredths 15, hundredths 15, hundredths 5, hundredths 65⟩
  | .specificRegion => ⟨hundredths 40, hundredths 20, hundredths 15, hundredths 25⟩
  | .fastest => ⟨hundredths 55, hundredths 15, hundredths 10, hundredths 20⟩

def maxLatency (all : List (NodeInfo F)) : F :=
  all.foldl (fun top o => if o.latencyMs > 0 ∧ GoFloat.lt top (GoFloat.ofInt o.latencyMs) then
    GoFloat.ofInt o.latencyMs else top) (GoFloat.ofInt 1)

def maxPrice (all : List (NodeInfo F)) : F :=
  all.foldl (fun top o => if GoFloat.lt top o.pricePerHourDero then o.pricePerHourDero else top)
    (GoFloat.ofInt 1)

/-- An unknown latency scores worst. -/
def score (policy : SelectPolicy) (n : NodeInfo F) (all : List (NodeInfo F)) : F :=
  let w : Weights F := policy.weights
  let maxLat := maxLatency all
  let lat := if n.latencyMs > 0 then GoFloat.ofInt n.latencyMs else maxLat
  let latScore := if GoFloat.le maxLat (GoFloat.ofInt 1) then hundredths 50
    else GoFloatDiff.sub (GoFloat.ofInt 1) (GoFloat.div lat maxLat)
  let loadScore := GoFloatDiff.sub (GoFloat.ofInt 1) (clamp01 n.load)
  let priceScore :=
    GoFloatDiff.sub (GoFloat.ofInt 1) (GoFloat.div n.pricePerHourDero (maxPrice all))
  let hist := GoFloatSum.add (GoFloat.mul (clamp01 n.trust) (hundredths 70))
    (GoFloat.mul (clamp01 (GoFloat.div n.bondDero (GoFloat.ofInt 100))) (hundredths 30))
  GoFloatSum.add (GoFloatSum.add (GoFloatSum.add (GoFloat.mul w.latency latScore)
    (GoFloat.mul w.load loadScore)) (GoFloat.mul w.price priceScore)) (GoFloat.mul w.trust hist)

/-- The first of the best rated. -/
def bestOf {α : Type} (rate : α → F) : List α → Option α
  | [] => none
  | first :: rest =>
    some (rest.foldl (fun best n => if GoFloat.lt (rate best) (rate n) then n else best) first)

def select (sorter : Sorter (NodeInfo F × F)) (policy : SelectPolicy) (region : String)
    (nodes : List (NodeInfo F)) : Except (Error F) (NodeInfo F) :=
  let elsewhere := fun n : NodeInfo F =>
    policy = .specificRegion && region ≠ "" && n.region ≠ region
  let cands := (nodes.filter fun n => n.eligible && !elsewhere n).map fun n =>
    (n, score policy n nodes)
  match sorter.sort (fun a b => GoFloat.lt b.2 a.2) cands with
  | [] => .error .noSuitable
  | best :: _ => .ok best.1

/-- One pass of `bestExcept`. -/
def bestIn (policy : SelectPolicy) (nodes : List (NodeInfo F)) (exclude : List String)
    (wantRegion : String) : Option (NodeInfo F) :=
  bestOf (score policy · nodes) (nodes.filter fun n =>
    decide (n.nodeID ∉ exclude) && n.eligible && (wantRegion = "" || n.region = wantRegion))

/-- The second pass asks for no region. -/
def bestExcept (policy : SelectPolicy) (nodes : List (NodeInfo F)) (exclude : List String)
    (wantRegion : String) : Except (Error F) (NodeInfo F) :=
  match bestIn policy nodes exclude wantRegion with
  | some n => .ok n
  | none =>
    match bestIn policy nodes exclude "" with
    | some n => .ok n
    | none => .error .noSuitable

def mhNode (n : NodeInfo F) : Multihop.NodeInfo F :=
  { nodeID := n.nodeID, wgPubKey := n.wgPubkey, endpoint := n.endpoint, country := n.country,
    pricePerHour := n.pricePerHourDero, latency := GoFloat.ofInt n.latencyMs }

end choice

section chosen
variable {F : Type} [GoFloatDiff F] {provider : Provider F}

/-- The node is one of the provider's, with some observation. -/
def Offered (provider : Provider F) (n : NodeInfo F) : Prop :=
  ∃ nodes, provider = .ok nodes ∧ ∃ m ∈ nodes, ∃ o, n = m.observe o

variable {look : String → Observed F} {nodes : List (NodeInfo F)}

theorem offered_of_listNodes
    (listed : listNodes provider look = .ok nodes) : ∀ n ∈ nodes, Offered provider n := by
  cases provider with
  | error text => cases listed
  | ok all =>
    cases listed
    intro n member
    obtain ⟨m, listed, rfl⟩ := List.mem_map.mp member
    exact ⟨all, rfl, m, listed, _, rfl⟩

variable {n : NodeInfo F}

theorem of_findNode {id : String}
    (found : findNode provider look id = .ok n) : n.nodeID = id ∧ Offered provider n := by
  obtain ⟨nodes, listed, found⟩ := of_bind_ok found
  cases first : nodes.find? (fun n => n.nodeID = id) with
  | none => simp [first] at found
  | some m =>
    simp only [first, Except.ok.injEq] at found
    subst found
    refine ⟨by simpa using List.find?_some first, ?_⟩
    exact offered_of_listNodes listed m (List.mem_of_find?_eq_some first)

theorem of_findNodes {look : ℕ → String → Observed F} {k : ℕ} {ids : List String}
    (found : findNodes provider look k ids = .ok nodes) :
    nodes.map NodeInfo.nodeID = ids ∧ ∀ n ∈ nodes, Offered provider n := by
  induction ids generalizing k nodes with
  | nil =>
    cases found
    exact ⟨rfl, List.forall_mem_nil _⟩
  | cons id rest ih =>
    obtain ⟨n, first, found⟩ := of_bind_ok found
    obtain ⟨later, others, found⟩ := of_bind_ok found
    cases found
    obtain ⟨named, offered⟩ := of_findNode first
    obtain ⟨names, allOffered⟩ := ih others
    exact ⟨by rw [List.map_cons, named, names], List.forall_mem_cons.mpr ⟨offered, allOffered⟩⟩

theorem mem_of_bestOf {α : Type} {rate : α → F} {l : List α} {best : α}
    (found : bestOf rate l = some best) : best ∈ l := by
  have scan : ∀ (rest : List α) (first : α),
      rest.foldl (fun best n => if GoFloat.lt (rate best) (rate n) then n else best) first ∈
        first :: rest := by
    intro rest
    induction rest with
    | nil => exact fun first => List.mem_singleton_self first
    | cons n rest ih =>
      intro first
      rw [List.foldl_cons]
      split
      · exact List.mem_cons_of_mem first (ih n)
      · rcases List.mem_cons.mp (ih first) with same | later
        · exact List.mem_cons.mpr (.inl same)
        · exact List.mem_cons_of_mem first (List.mem_cons_of_mem n later)
  cases l with
  | nil => cases found
  | cons first rest =>
    cases found
    exact scan rest first

variable {policy : SelectPolicy}

theorem of_bestIn {exclude : List String}
    {wantRegion : String} (found : bestIn policy nodes exclude wantRegion = some n) :
    n ∈ nodes ∧ n.nodeID ∉ exclude := by
  have member := List.mem_filter.mp (mem_of_bestOf found)
  simp only [Bool.and_eq_true, decide_eq_true_eq] at member
  exact ⟨member.1, member.2.1.1⟩

theorem of_bestExcept {exclude : List String} {wantRegion : String}
    (found : bestExcept policy nodes exclude wantRegion = .ok n) :
    n ∈ nodes ∧ n.nodeID ∉ exclude := by
  unfold bestExcept at found
  split at found
  · next first =>
    cases found
    exact of_bestIn first
  · split at found
    · next second =>
      cases found
      exact of_bestIn second
    · cases found

theorem mem_of_select {sorter : Sorter (NodeInfo F × F)} {region : String}
    (found : select sorter policy region nodes = .ok n) :
    n ∈ nodes := by
  unfold select at found
  dsimp only at found
  split at found
  · cases found
  · next best rest sorted =>
    cases found
    have member := (sorter.perm _ _).mem_iff.mp (sorted ▸ List.mem_cons_self)
    obtain ⟨m, kept, rfl⟩ := List.mem_map.mp member
    exact (List.mem_filter.mp kept).1

end chosen

end VeilNet.Source.Client
