import VeilNet.Source.Multihop.Circuit
import VeilNet.Lib.Run

/-!
# Hop separation

Every route comes out of `BuildRoute`, and every circuit of a rotator out of its own check. So
whatever nodes, options, pools and selection functions are used, the hops are distinct nodes on
distinct hosts with distinct operator keys.
-/
namespace VeilNet.Guarantees.HopSeparation
open Lib Source.Multihop

variable {F : Type}

/-- One to three hops, no two of them one node, one host or one operator. -/
structure Separated (codec : Codec) (hops : List (Hop F)) : Prop where
  count : 1 ≤ hops.length ∧ hops.length ≤ 3
  ids : (hops.map Hop.nodeID).Nodup
  hosts : (hops.map fun h => codec.endpointHost h.endpoint).Nodup
  keys : (hops.map Hop.operatorKey).Nodup
  keyed : ∀ h ∈ hops, h.operatorKey ≠ ""

theorem separated_of_apart {codec : Codec} {nodes : List (NodeInfo F)}
    (count : 1 ≤ nodes.length ∧ nodes.length ≤ 3) (dialable : ∀ n ∈ nodes, n.Dialable)
    (apart : nodes.Pairwise (Apart codec)) : Separated codec (nodes.map NodeInfo.hop) := by
  have nodup : ∀ {β : Type} (f : Hop F → β),
      (∀ n ∈ nodes, ∀ m ∈ nodes, Apart codec n m → f n.hop ≠ f m.hop) →
      ((nodes.map NodeInfo.hop).map f).Nodup := by
    intro β f differ
    rw [List.map_map, List.Nodup, List.pairwise_map]
    exact List.Pairwise.imp_of_mem (fun hn hm h => differ _ hn _ hm h) apart
  refine ⟨by rwa [List.length_map], ?_, ?_, ?_, ?_⟩
  · exact nodup Hop.nodeID fun _ _ _ _ h => h.id
  · exact nodup (fun h => codec.endpointHost h.endpoint) fun _ _ _ _ h => h.host
  · exact nodup Hop.operatorKey fun _ _ m member h => h.key (dialable m member).wgPubKey
  · rw [List.forall_mem_map]
    exact fun n member => (dialable n member).wgPubKey

section routes
variable [GoFloat F]

/-- The routes that the package makes, from any nodes, circuits and routes made before. -/
inductive Constructed (codec : Codec) : Route F → Prop
  | buildRoute {stamp nodes opts r} (built : buildRoute codec stamp nodes opts = .ok r) :
      Constructed codec r
  | toRoute {stamp c r} (built : Circuit.toRoute codec stamp c = .ok r) : Constructed codec r
  | rotateExit {stamp r newExit r'} (before : Constructed codec r)
      (rotated : Route.rotateExit codec stamp (some r) newExit = .ok r') : Constructed codec r'
  | rotateDownstream {stamp r newMiddle newExit r'} (before : Constructed codec r)
      (rotated : Route.rotateDownstream codec stamp (some r) newMiddle newExit = .ok r') :
      Constructed codec r'
  | rotateAll {stamp r newNodes r'} (before : Constructed codec r)
      (rotated : Route.rotateAll codec stamp (some r) newNodes = .ok r') : Constructed codec r'
  | rotateGuarded {stamp r pool g pick r'} (before : Constructed codec r)
      (rotated : rotateGuarded codec stamp (some r) pool g pick = .ok r') : Constructed codec r'

/-- The route is built by `BuildRoute`, up to its pin. -/
def Built (codec : Codec) (r : Route F) : Prop :=
  ∃ stamp nodes opts built, buildRoute codec stamp nodes opts = .ok built ∧
    r = { built with entryPinned := r.entryPinned }

variable {codec : Codec}

theorem Built.separated {r : Route F} (h : Built codec r) :
    Separated codec r.hops ∧ Route.verify codec (some r) = .ok () := by
  obtain ⟨stamp, nodes, opts, built, made, same⟩ := h
  obtain ⟨rfl, any, few, dialable, apart⟩ := buildRoute_ok made
  have sameID : r.id = newID stamp := by rw [same]
  have sameHops : r.hops = nodes.map NodeInfo.hop := by rw [same]
  constructor
  · rw [sameHops]
    exact separated_of_apart ⟨any, few⟩ dialable apart
  · exact verify_of_apart (sameID ▸ newID_ne_empty stamp) sameHops any few dialable apart

variable {stamp : Stamp}

theorem built_of_buildRoute {nodes : List (NodeInfo F)}
    {opts : BuildOptions F} {r : Route F} (built : buildRoute codec stamp nodes opts = .ok r)
    (pinned : Bool) : Built codec { r with entryPinned := pinned } :=
  ⟨stamp, nodes, opts, r, built, rfl⟩

variable {r : Option (Route F)} {r' : Route F}

theorem built_rotateExit {newExit : NodeInfo F}
    (rotated : Route.rotateExit codec stamp r newExit = .ok r') : Built codec r' := by
  unfold Route.rotateExit at rotated
  split at rotated
  · cases rotated
  · obtain ⟨_, _, rotated⟩ := Outcome.of_bind_ok rotated
    obtain ⟨_, _, rotated⟩ := Outcome.of_bind_ok rotated
    split at rotated
    · exact built_of_buildRoute rotated r'.entryPinned
    · obtain ⟨next, built, rotated⟩ := Outcome.of_bind_ok rotated
      cases rotated
      exact built_of_buildRoute built true

theorem built_rotateDownstream {newMiddle newExit : NodeInfo F}
    (rotated : Route.rotateDownstream codec stamp r newMiddle newExit = .ok r') :
    Built codec r' := by
  unfold Route.rotateDownstream at rotated
  split at rotated
  · obtain ⟨_, _, rotated⟩ := Outcome.of_bind_ok rotated
    obtain ⟨_, _, rotated⟩ := Outcome.of_bind_ok rotated
    obtain ⟨next, built, rotated⟩ := Outcome.of_bind_ok rotated
    cases rotated
    exact built_of_buildRoute built true
  · cases rotated

theorem built_rotateAll {newNodes : List (NodeInfo F)}
    (rotated : Route.rotateAll codec stamp r newNodes = .ok r') : Built codec r' := by
  unfold Route.rotateAll at rotated
  split at rotated
  · cases rotated
  · obtain ⟨next, built, rotated⟩ := Outcome.of_bind_ok rotated
    split at rotated
    · cases rotated
      exact built_of_buildRoute built _
    · cases rotated
      exact built_of_buildRoute built r'.entryPinned

/-- Whatever was picked, the rotation ends in one of the other three. -/
theorem built_rotateGuarded
    {pool : List (NodeInfo F)} {g : Option GuardSet} {pick : Option (Pick F)}
    (rotated : rotateGuarded codec stamp r pool g pick = .ok r') : Built codec r' := by
  unfold rotateGuarded at rotated
  split at rotated
  · cases rotated
  · obtain ⟨_, _, rotated⟩ := Outcome.of_bind_ok rotated
    split at rotated
    · cases rotated
    · obtain ⟨_, _, rotated⟩ := Outcome.of_bind_ok rotated
      split at rotated
      · split at rotated
        · obtain ⟨_, _, rotated⟩ := Outcome.of_bind_ok rotated
          exact built_rotateExit rotated
        · obtain ⟨_, _, rotated⟩ := Outcome.of_bind_ok rotated
          obtain ⟨_, _, rotated⟩ := Outcome.of_bind_ok rotated
          exact built_rotateDownstream rotated
      · obtain ⟨_, _, rotated⟩ := Outcome.of_bind_ok rotated
        exact built_rotateAll rotated

theorem Constructed.built {r : Route F} (h : Constructed codec r) : Built codec r := by
  cases h with
  | buildRoute built => exact built_of_buildRoute built r.entryPinned
  | @toRoute stamp c r built =>
    unfold Circuit.toRoute at built
    split at built
    · cases built
    · exact built_of_buildRoute built r.entryPinned
  | rotateExit _ rotated => exact built_rotateExit rotated
  | rotateDownstream _ rotated => exact built_rotateDownstream rotated
  | rotateAll _ rotated => exact built_rotateAll rotated
  | rotateGuarded _ rotated => exact built_rotateGuarded rotated

end routes

section rotator

inductive Op (F : Type) where
  | rotateEntry (newEntry : NodeInfo F) (reason : String)
  | rotateExit (newExit : NodeInfo F) (reason : String)
  | rotateDownstream (newMiddle newExit : NodeInfo F) (reason : String)

/-- A call on the rotator with what it draws. -/
structure Call (F : Type) where
  stamp : Stamp
  rotatedAt : Time
  op : Op F

/-- A circuit that is verified, and whose hops are separated when it has several. -/
def CircuitSeparated (codec : Codec) (c : Circuit F) : Prop :=
  (c.hops = 2 ∨ c.hops = 3 → Separated codec ((Circuit.nodes (some c)).map NodeInfo.hop)) ∧
    Circuit.verify codec (some c) = .ok ()

theorem circuitSeparated_of_verify {codec : Codec} {c : Circuit F}
    (verified : Circuit.verify codec (some c) = .ok ()) : CircuitSeparated codec c := by
  refine ⟨fun several => ?_, verified⟩
  obtain ⟨dialable, apart⟩ := apart_of_verify verified several
  have count : 1 ≤ (Circuit.nodes (some c)).length ∧ (Circuit.nodes (some c)).length ≤ 3 := by
    rcases several with two | three
    · simp [Circuit.nodes, two]
    · simp [Circuit.nodes, three]
  exact separated_of_apart count dialable apart

variable [GoFloat F]

def step (codec : Codec) (rot : Rotator F) (call : Call F) : Rotator F :=
  match call.op with
  | .rotateEntry newEntry reason =>
    (rot.rotateEntry codec call.stamp call.rotatedAt newEntry reason).2
  | .rotateExit newExit reason =>
    (rot.rotateExit codec call.stamp call.rotatedAt newExit reason).2
  | .rotateDownstream newMiddle newExit reason =>
    (rot.rotateDownstream codec call.stamp call.rotatedAt newMiddle newExit reason).2

theorem step_current (codec : Codec) (rot : Rotator F) (call : Call F) :
    (step codec rot call).current = rot.current ∨
      Circuit.verify codec (some (step codec rot call).current) = .ok () := by
  unfold step
  split
  · unfold Rotator.rotateEntry
    split
    · exact .inl rfl
    · exact commit_current ..
  · unfold Rotator.rotateExit
    split
    · exact .inl rfl
    · exact commit_current ..
  · unfold Rotator.rotateDownstream
    split
    · exact .inl rfl
    · exact commit_current ..

theorem step_verified (codec : Codec) (rot : Rotator F) (call : Call F)
    (verified : Circuit.verify codec (some rot.current) = .ok ()) :
    Circuit.verify codec (some (step codec rot call).current) = .ok () := by
  rcases step_current codec rot call with same | next
  · rw [same]
    exact verified
  · exact next

end rotator

section results
variable [GoFloat F]

/-- Every route of the package, and every circuit of a rotator in any run of its calls,
is separated and passes its own check. -/
theorem hops_separated (codec : Codec) :
    (∀ r : Route F, Constructed codec r →
      Separated codec r.hops ∧ Route.verify codec (some r) = .ok ()) ∧
    ∀ (initial : Option (Circuit F)) (rot : Rotator F), newRotator codec initial = .ok rot →
      ∀ calls, Run.Throughout (step codec) (fun rot => CircuitSeparated codec rot.current)
        rot calls := by
  refine ⟨fun r constructed => constructed.built.separated, ?_⟩
  intro initial rot made calls
  have verified : Run.Throughout (step codec)
      (fun rot => Circuit.verify codec (some rot.current) = .ok ()) rot calls :=
    Run.throughout_of_step (verify_newRotator made) (step_verified codec)
  exact verified.mono fun _ => circuitSeparated_of_verify

end results

section instances

def someNode (name : String) : NodeInfo ℚ := ⟨name, "wg-" ++ name, name ++ ":51820", "", 0, 0⟩

def someCircuit : Circuit ℚ := ⟨"c-0", 3, someNode "a", someNode "b", someNode "c", 0⟩

def someRoute : Route ℚ := ⟨"c-0", ["a", "b", "c"].map fun name => (someNode name).hop, false, 0⟩

/-- The exit of a route of three hops is rotated away. -/
def rotatedRoute : Route ℚ :=
  ⟨"c-0", ["a", "b", "d"].map fun name => (someNode name).hop, true, 0⟩

/-- A new exit, then an entry that is refused because it is the exit. -/
def someCalls : List (Call ℚ) :=
  [⟨someStamp, 1, .rotateExit (someNode "d") "scheduled"⟩,
    ⟨someStamp, 2, .rotateEntry (someNode "d") "scheduled"⟩]

theorem rotatedRoute_constructed : Constructed plainCodec rotatedRoute := by
  have built : buildRoute plainCodec someStamp (["a", "b", "c"].map someNode) .zero =
      .ok someRoute := rfl
  have rotated : Route.rotateExit plainCodec someStamp (some someRoute) (someNode "d") =
      .ok rotatedRoute := rfl
  exact (Constructed.buildRoute built).rotateExit rotated

theorem rotatedExit_separated :
    (Separated plainCodec rotatedRoute.hops ∧
      Route.verify plainCodec (some rotatedRoute) = .ok ()) ∧
    Run.Throughout (step plainCodec) (fun rot => CircuitSeparated plainCodec rot.current)
      ⟨someCircuit, []⟩ someCalls :=
  ⟨(hops_separated plainCodec).1 rotatedRoute rotatedRoute_constructed,
    (hops_separated plainCodec).2 (some someCircuit) ⟨someCircuit, []⟩ rfl someCalls⟩

end instances

end VeilNet.Guarantees.HopSeparation
