import VeilNet.Guarantees.HopSeparation

/-!
# Guard-aware rotation

A rotation under a guard rebuilds the entry from its dial data and asks for a node for each hop
behind it. The pool is without the nodes of the route, so only a selection function that goes
outside its pool can bring one back, and none can move the entry.
-/
namespace VeilNet.Guarantees.GuardedRotation
open Lib Source.Multihop
open Guarantees.HopSeparation (Built)

variable {F : Type}

/-- The dial data of the first hop. -/
def entryPoint (r : Route F) : Option (String × String × String) :=
  r.hops.head?.map fun h => (h.nodeID, h.endpoint, h.operatorKey)

variable {pool : List (NodeInfo F)}

theorem notMem_of_mem_excludeNodes {skip : Finset String}
    {n : NodeInfo F} (member : n ∈ excludeNodes pool skip) : n.nodeID ∉ skip := by
  unfold excludeNodes at member
  split at member
  · next empty =>
    rw [Finset.card_eq_zero.mp empty]
    exact Finset.notMem_empty _
  · exact of_decide_eq_true (List.mem_filter.mp member).2

variable [GoFloat F] {codec : Codec} {stamp : Stamp}

variable {cur r' : Route F}

theorem rotateExit_hops {entry old : Hop F} {newExit : NodeInfo F} (hops : cur.hops = [entry, old])
    (rotated : Route.rotateExit codec stamp (some cur) newExit = .ok r') :
    r'.hops = [entry.node.hop, newExit.hop] := by
  rw [(rotateExit_ok rotated).2.2, hops]
  rfl

theorem rotateDownstream_hops {entry middle exit : Hop F}
    {newMiddle newExit : NodeInfo F} (hops : cur.hops = [entry, middle, exit])
    (rotated : Route.rotateDownstream codec stamp (some cur) newMiddle newExit = .ok r') :
    r'.hops = [entry.node.hop, newMiddle.hop, newExit.hop] := by
  obtain ⟨first, _, _, found, next⟩ := rotateDownstream_ok rotated
  rw [hops] at found
  cases found
  exact next

/-- The node is an answer of `pick` to a pool without the nodes of the route. -/
def PickedAfresh (pick : Pick F) (cur : Route F) (n : NodeInfo F) : Prop :=
  ∃ i eligible skip, (∀ h ∈ cur.hops, h.nodeID ∈ skip) ∧
    pick i (excludeNodes eligible skip) = .ok n

/-- The entry stays, and every hop behind it is picked afresh. -/
theorem rotateGuarded_hops {g : GuardSet}
    {pick : Pick F} (several : cur.hops.length = 2 ∨ cur.hops.length = 3)
    (guarded : g.guards cur = true)
    (rotated : rotateGuarded codec stamp (some cur) pool (some g) (some pick) = .ok r') :
    ∃ entry replaced fresh, cur.hops = entry :: replaced ∧
      r'.hops = entry.node.hop :: List.map NodeInfo.hop fresh ∧ fresh.length = replaced.length ∧
      ∀ n ∈ fresh, PickedAfresh pick cur n := by
  have kept : ∀ h ∈ cur.hops, h.nodeID ∈ (cur.hops.map Hop.nodeID).toFinset := fun h member =>
    List.mem_toFinset.mpr (List.mem_map_of_mem member)
  obtain ⟨_, _, rotated⟩ := Outcome.of_bind_ok rotated
  obtain ⟨_, _, rotated⟩ := Outcome.of_bind_ok rotated
  rw [if_pos (by simpa using guarded)] at rotated
  rcases several with two | three
  · obtain ⟨entry, old, hops⟩ := List.length_eq_two.mp two
    rw [if_pos (.inr two)] at rotated
    obtain ⟨next, picked, rotated⟩ := Outcome.of_bind_ok rotated
    refine ⟨entry, [old], [next], hops, rotateExit_hops hops rotated, rfl, ?_⟩
    exact List.forall_mem_singleton.mpr ⟨_, _, _, kept, Outcome.of_mapError_ok picked⟩
  · obtain ⟨entry, middle, exit, hops⟩ := List.length_eq_three.mp three
    rw [if_neg (by omega)] at rotated
    obtain ⟨mid, pickedMid, rotated⟩ := Outcome.of_bind_ok rotated
    obtain ⟨last, pickedLast, rotated⟩ := Outcome.of_bind_ok rotated
    refine ⟨entry, [middle, exit], [mid, last], hops, rotateDownstream_hops hops rotated, rfl, ?_⟩
    have both : ∀ h ∈ cur.hops,
        h.nodeID ∈ insert mid.nodeID (cur.hops.map Hop.nodeID).toFinset := fun h member =>
      Finset.mem_insert_of_mem (kept h member)
    exact List.forall_mem_cons.mpr ⟨⟨_, _, _, kept, Outcome.of_mapError_ok pickedMid⟩,
      List.forall_mem_singleton.mpr ⟨_, _, _, both, Outcome.of_mapError_ok pickedLast⟩⟩

/-- A guarded rotation that succeeds keeps the number of hops and the entry and passes `Verify`; a
selection function that answers from its pool brings no node of the route back. -/
theorem guardedRotation_keeps_entry (codec : Codec) (stamp : Stamp) (cur : Route F)
    (pool : List (NodeInfo F)) (g : GuardSet) (pick : Pick F) (r' : Route F)
    (several : cur.hops.length = 2 ∨ cur.hops.length = 3) (guarded : g.guards cur = true)
    (rotated : rotateGuarded codec stamp (some cur) pool (some g) (some pick) = .ok r') :
    r'.hops.length = cur.hops.length ∧ entryPoint r' = entryPoint cur ∧
      Route.verify codec (some r') = .ok () ∧
      ((∀ i nodes n, pick i nodes = .ok n → n ∈ nodes) →
        ∀ h ∈ r'.hops.tail, h.nodeID ∉ cur.hops.map Hop.nodeID) := by
  obtain ⟨entry, replaced, fresh, before, after, length, picked⟩ :=
    rotateGuarded_hops several guarded rotated
  refine ⟨?_, ?_, (HopSeparation.built_rotateGuarded rotated).separated.2, ?_⟩
  · rw [before, after, List.length_cons, List.length_cons, List.length_map, length]
  · rw [entryPoint, entryPoint, before, after]
    rfl
  · intro fromPool
    rw [after, List.tail_cons, List.forall_mem_map]
    intro n member old
    obtain ⟨i, eligible, skip, skipped, answered⟩ := picked n member
    obtain ⟨h, inRoute, same⟩ := List.mem_map.mp old
    have same : h.nodeID = n.nodeID := same
    have outside := notMem_of_mem_excludeNodes (fromPool i _ n answered)
    rw [← same] at outside
    exact outside (skipped h inRoute)

section instances
open HopSeparation (someNode someRoute)

def pickFirst : Pick ℚ := fun _ nodes =>
  match nodes with
  | [] => .error "no node"
  | n :: _ => .ok n

theorem pickFirst_mem (i : ℕ) (nodes : List (NodeInfo ℚ)) (n : NodeInfo ℚ)
    (picked : pickFirst i nodes = .ok n) : n ∈ nodes := by
  unfold pickFirst at picked
  split at picked
  · cases picked
  · cases picked
    exact List.mem_cons_self

/-- The route with d and e behind its entry. -/
def guardedRoute : Route ℚ :=
  ⟨"c-0", ["a", "d", "e"].map fun name => (someNode name).hop, true, 0⟩

theorem guardedRoute_of_rotateGuarded :
    rotateGuarded plainCodec someStamp (some someRoute) (["b", "c", "d", "e"].map someNode)
      (some ⟨"a", true⟩) (some pickFirst) = .ok guardedRoute := by
  have computed : (rotateGuarded plainCodec someStamp (some someRoute)
      (["b", "c", "d", "e"].map someNode) (some ⟨"a", true⟩) (some pickFirst)).toOption =
      some guardedRoute := by decide
  exact Outcome.of_toOption computed

/-- The entry a stays; b and c, though first in the pool, make way for d and e. -/
theorem guardedRotation_of_three :
    entryPoint guardedRoute = some ("a", "a:51820", "wg-a") ∧
      ∀ h ∈ guardedRoute.hops.tail, h.nodeID ∉ someRoute.hops.map Hop.nodeID :=
  ⟨rfl, (guardedRotation_keeps_entry plainCodec someStamp someRoute
    (["b", "c", "d", "e"].map someNode) ⟨"a", true⟩ pickFirst guardedRoute (.inr rfl) rfl
    guardedRoute_of_rotateGuarded).2.2.2 pickFirst_mem⟩

end instances

end VeilNet.Guarantees.GuardedRotation
