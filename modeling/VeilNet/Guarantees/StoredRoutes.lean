import VeilNet.Source.Multihop.Route

/-!
# Stored routes

`Verify` re-checks a route whatever it came from. A hop without an operator key is meant to be
exempt from the key check only, but it sends the whole route down the other path of `Verify`,
which compares no keys and passes over hops without a host.
-/
namespace VeilNet.Guarantees.StoredRoutes
open Lib Source.Multihop

variable {F : Type}

/-- No two hops carry one non-empty operator key. -/
def KeysDiffer (hops : List (Hop F)) : Prop :=
  hops.Pairwise fun h k => k.operatorKey ≠ "" → h.operatorKey ≠ k.operatorKey

/-- The hosts that the hops are compared by. -/
def hosts (codec : Codec) (hops : List (Hop F)) : List String :=
  hops.map fun h => codec.endpointHost h.endpoint

/-- Distinct nodes on distinct hosts, and distinct operators where they are known. -/
structure Distinct (codec : Codec) (hops : List (Hop F)) : Prop where
  ids : (hops.map Hop.nodeID).Nodup
  hosts : (hosts codec hops).Nodup
  keys : KeysDiffer hops

/-- Where only a blank may repeat, nothing repeats when the blank does not. -/
theorem nodup_iff_count_le_one {α : Type} [DecidableEq α] {blank : α} {l : List α}
    (apart : l.Pairwise fun a b => b ≠ blank → a ≠ b) : l.Nodup ↔ l.count blank ≤ 1 := by
  induction l with
  | nil => simp
  | cons a rest ih =>
    obtain ⟨head, tail⟩ := List.pairwise_cons.mp apart
    rw [List.nodup_cons, ih tail]
    by_cases isBlank : a = blank
    · subst isBlank
      rw [List.count_cons_self, ← List.count_eq_zero]
      omega
    · have absent : a ∉ rest := fun member => head a member isBlank rfl
      rw [List.count_cons_of_ne isBlank, and_iff_right absent]

variable [GoFloat F] {codec : Codec}

theorem distinct_of_apart {hops : List (Hop F)}
    (apart : (hops.map Hop.node).Pairwise (Apart codec)) : Distinct codec hops := by
  rw [List.pairwise_map] at apart
  refine ⟨?_, ?_, apart.imp fun h => h.key⟩
  · rw [List.Nodup, List.pairwise_map]
    exact apart.imp fun h => h.id
  · rw [hosts, List.Nodup, List.pairwise_map]
    exact apart.imp fun h => h.host

theorem distinct_iff_of_storedApart {hops : List (Hop F)}
    (apart : (hops.map Hop.node).Pairwise (StoredApart codec)) :
    Distinct codec hops ↔ KeysDiffer hops ∧ (hosts codec hops).count "" ≤ 1 := by
  rw [List.pairwise_map] at apart
  have ids : (hops.map Hop.nodeID).Nodup := by
    rw [List.Nodup, List.pairwise_map]
    exact apart.imp fun h => h.id
  have nodup : (hosts codec hops).Nodup ↔ (hosts codec hops).count "" ≤ 1 := by
    apply nodup_iff_count_le_one
    rw [hosts, List.pairwise_map]
    exact apart.imp fun h => h.host
  rw [← nodup]
  constructor
  · intro distinct
    exact ⟨distinct.keys, distinct.hosts⟩
  · rintro ⟨keys, hosts⟩
    exact ⟨ids, hosts, keys⟩

/-- The hops of a route that passes `Verify` are distinct exactly when every hop has a
key, or the hops that have one differ in it and at most one hop is without a host. -/
theorem distinct_of_verify_iff (codec : Codec) (r : Route F)
    (passes : Route.verify codec (some r) = .ok ()) :
    Distinct codec r.hops ↔ (∀ h ∈ r.hops, h.operatorKey ≠ "") ∨
      (KeysDiffer r.hops ∧ (hosts codec r.hops).count "" ≤ 1) := by
  rcases verify_ok_cases passes with ⟨keyed, apart⟩ | ⟨unkeyed, apart⟩
  · exact iff_of_true (distinct_of_apart apart) (.inl keyed)
  · rw [distinct_iff_of_storedApart apart, or_iff_right unkeyed]

section instances

/-- A route whose entry pre-dates the operator keys. -/
def olderRoute (middleKey exitKey : String) : Route ℚ where
  id := "c-0"
  hops := [⟨"a", "", "a:51820", "", 0⟩, ⟨"b", "", "b:51820", middleKey, 0⟩,
    ⟨"c", "", "c:51820", exitKey, 0⟩]
  entryPinned := false
  createdAt := 0

theorem verify_olderRoute (middleKey exitKey : String) :
    Route.verify plainCodec (some (olderRoute middleKey exitKey)) = .ok () := by
  have a : plainCodec.endpointHost "a:51820" = "a" := rfl
  have b : plainCodec.endpointHost "b:51820" = "b" := rfl
  have c : plainCodec.endpointHost "c:51820" = "c" := rfl
  have apart : ((olderRoute middleKey exitKey).hops.map Hop.node).Pairwise fun n k =>
      n.nodeID ≠ k.nodeID ∧
        plainCodec.endpointHost n.endpoint ≠ plainCodec.endpointHost k.endpoint := by
    simp [olderRoute, Hop.node, a, b, c]
  simp only [Route.verify, Outcome.bind_ok_iff]
  refine ⟨(), rfl, (), rfl, (), rfl, ?_⟩
  rw [if_neg (by simp [olderRoute, Hop.node]), checkStored_ok_iff]
  constructor
  · intro n _
    exact ⟨AList.notMem_empty _, fun _ => AList.notMem_empty _⟩
  · exact apart.imp fun h => ⟨h.1, fun _ => h.2⟩

theorem olderRoute_distinct : Distinct plainCodec (olderRoute "k" "l").hops := by
  refine (distinct_of_verify_iff plainCodec (olderRoute "k" "l") (verify_olderRoute "k" "l")).mpr
    (.inr ⟨?_, ?_⟩)
  · simp [KeysDiffer, olderRoute]
  · decide

/-- The keyless entry hides that middle and exit have one operator. -/
theorem exists_verified_not_distinct : ¬ ∀ (codec : Codec) (r : Route ℚ),
    Route.verify codec (some r) = .ok () → Distinct codec r.hops := by
  intro holds
  have keys := (holds plainCodec (olderRoute "k" "k") (verify_olderRoute "k" "k")).keys
  simp [KeysDiffer, olderRoute] at keys

end instances

end VeilNet.Guarantees.StoredRoutes
