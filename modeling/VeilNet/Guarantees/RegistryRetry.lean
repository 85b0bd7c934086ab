import VeilNet.Guarantees.RegistryIdentity

/-!
# Repeating a failed announcement

`Register` and `Update` change the maps before they save and mirror, and do not change them back
when that fails. An accepted announcement then stays in the store, so that `Register` refuses to
be repeated.
-/
namespace VeilNet.Guarantees.RegistryRetry
open Lib Source.Registry

variable {F : Type}

/-- The two stores hold the same nodes and pins. -/
structure SameMaps (s s' : Store F) : Prop where
  nodes : ∀ id, s'.nodes.lookup id = s.nodes.lookup id
  opKeys : ∀ id, s'.opKeys.lookup id = s.opKeys.lookup id

theorem SameMaps.refl (s : Store F) : SameMaps s s := ⟨fun _ => rfl, fun _ => rfl⟩

variable {s s' : Store F}

theorem SameMaps.checkKeyContinuity (same : SameMaps s s') (n : Node F)
    (op : List UInt8) : s'.checkKeyContinuity n op = s.checkKeyContinuity n op := by
  rw [Store.checkKeyContinuity, Store.checkKeyContinuity, same.opKeys]

theorem lookup_put_nodes (s : Store F) (n : Node F) (op : List UInt8) :
    (s.put n op).nodes.lookup n.nodeID = some n :=
  AList.lookup_insert s.nodes

variable {n : Node F}

/-- Putting a node changes nothing exactly when it is stored as it is, with a pin. -/
theorem sameMaps_put_iff {op : List UInt8} : SameMaps s (s.put n op) ↔
      s.nodes.lookup n.nodeID = some n ∧ (s.opKeys.lookup n.nodeID).isSome = true := by
  constructor
  · intro same
    refine ⟨?_, ?_⟩
    · rw [← same.nodes, lookup_put_nodes]
    · by_contra unpinned
      have pin := same.opKeys n.nodeID
      simp only [Store.put, if_neg unpinned, AList.lookup_insert] at pin
      rw [← pin] at unpinned
      exact unpinned rfl
  · rintro ⟨stored, pinned⟩
    refine ⟨fun id => ?_, fun id => ?_⟩
    · by_cases same : id = n.nodeID
      · rw [same, lookup_put_nodes, stored]
      · exact AList.lookup_insert_ne same
    · simp only [Store.put, if_pos pinned]

variable [GoFloat F] {codec : Codec F}

/-- If the checks let the call through, the changed nodes are saved and the mirror takes the
node. -/
def Works (codec : Codec F) (out : Outcomes) (s : Store F) (call : Call F) : Prop :=
  ∀ n s', s.locked codec call = .ok (n, s') → out.Saves codec s' ∧ out.Mirrors s'

/-- If the call fails, nodes and pins are what they were; and unless the checks had
refused the announcement, the call succeeds when it is repeated and saving and
mirroring work. -/
def Retryable (codec : Codec F) (out : Outcomes) (s : Store F) (d : Disk) (call : Call F) : Prop :=
  (perform codec out s d call).1 ≠ none →
    SameMaps s (perform codec out s d call).2.1 ∧
    ((s.locked codec call).isOk = true →
      ∀ again : Outcomes, Works codec again (perform codec out s d call).2.1 call →
        (perform codec again (perform codec out s d call).2.1 (perform codec out s d call).2.2
          call).1 = none)

/-- The announced node is stored as it is, and its key is pinned. -/
def Stored (codec : Codec F) (s : Store F) (a : Announcement) : Prop :=
  ∃ n op, codec.verify a = .ok (n, op) ∧ s.nodes.lookup n.nodeID = some n ∧
    (s.opKeys.lookup n.nodeID).isSome = true

variable {out : Outcomes} {d : Disk} {call : Call F}

/-- A call that fails although its outcomes work was refused, and a refusal changes nothing. -/
theorem retryable_of_works (works : Works codec out s call) : Retryable codec out s d call := by
  intro failed
  cases reached : s.locked codec call with
  | ok changed => exact absurd ((perform_eq_none_iff reached).mpr (works _ _ reached)) failed
  | error e =>
    unfold perform
    rw [reached]
    exact ⟨SameMaps.refl s, nofun⟩

/-- When the checks accept and the rest fails, a call can be repeated only if its change
changes nothing, and then it is enough that the checks accept again. -/
theorem retryable_of_accepted (accepted : s.locked codec call = .ok (n, s'))
    (fails : ¬ (out.Saves codec s' ∧ out.Mirrors s')) :
    (Retryable codec out s d call → SameMaps s s') ∧
      (SameMaps s s' → (s'.locked codec call).isOk = true → Retryable codec out s d call) := by
  have failed : (perform codec out s d call).1 ≠ none :=
    fun fine => fails ((perform_eq_none_iff accepted).mp fine)
  have left : (perform codec out s d call).2.1 = s' := by
    rcases perform_store out s d call with ⟨e, refused, _⟩ | ⟨m, t, reached, store⟩
    · rw [accepted] at refused
      cases refused
    · rw [accepted] at reached
      cases reached
      exact store
  unfold Retryable
  rw [left]
  refine ⟨fun retry => (retry failed).1, fun same again _ => ⟨same, fun _ out' works => ?_⟩⟩
  cases reached : s'.locked codec call with
  | error e =>
    rw [reached] at again
    cases again
  | ok changed => exact (perform_eq_none_iff reached).mpr (works _ _ reached)

variable {a : Announcement}

theorem register_accepted (accepted : s.register codec a = .ok (n, s')) :
    s.nodes.lookup n.nodeID = none ∧ s'.nodes.lookup n.nodeID = some n := by
  obtain ⟨⟨m, op⟩, _, accepted⟩ := Outcome.of_bind_ok accepted
  obtain ⟨_, _, accepted⟩ := Outcome.of_bind_ok accepted
  split at accepted
  · obtain ⟨_, _, accepted⟩ := Outcome.of_bind_ok accepted
    cases accepted
  · next absent =>
    cases accepted
    exact ⟨absent, lookup_put_nodes s n op⟩

theorem update_accepted_iff : s.update codec a = .ok (n, s') ↔ ∃ op, codec.verify a = .ok (n, op) ∧
      codec.validate n s.minBond = .ok () ∧ (s.nodes.lookup n.nodeID).isSome = true ∧
      s.checkKeyContinuity n op = .ok () ∧ s' = s.put n op := by
  unfold Store.update
  constructor
  · intro accepted
    obtain ⟨⟨m, op⟩, verified, accepted⟩ := Outcome.of_bind_ok accepted
    obtain ⟨_, valid, accepted⟩ := Outcome.of_bind_ok accepted
    split at accepted
    · cases accepted
    · next known =>
      obtain ⟨_, continues, accepted⟩ := Outcome.of_bind_ok accepted
      cases accepted
      exact ⟨op, verified, valid, by rw [known]; rfl, continues, rfl⟩
  · rintro ⟨op, verified, valid, known, continues, rfl⟩
    obtain ⟨old, found⟩ := Option.isSome_iff_exists.mp known
    rw [Outcome.bind_ok_iff]
    refine ⟨(n, op), verified, ?_⟩
    rw [Outcome.bind_ok_iff]
    refine ⟨(), valid, ?_⟩
    rw [found]
    dsimp only
    rw [Outcome.bind_ok_iff]
    exact ⟨(), continues, rfl⟩

theorem update_again (accepted : s.update codec a = .ok (n, s')) (same : SameMaps s s') :
    (s'.update codec a).isOk = true := by
  obtain ⟨op, verified, valid, known, continues, rfl⟩ := update_accepted_iff.mp accepted
  have again : (s.put n op).update codec a = .ok (n, (s.put n op).put n op) := by
    refine update_accepted_iff.mpr ⟨op, verified, valid, ?_, ?_, rfl⟩
    · rw [same.nodes, known]
    · rw [same.checkKeyContinuity, continues]
  rw [again]
  rfl

/-- A failed `Register` leaves the maps alone, and can be repeated unless the announcement was at
fault, exactly when an announcement that the checks accept is also saved and mirrored. For `Update`
an announcement that is stored already will do too. -/
theorem announcement_retryable_iff (codec : Codec F) (out : Outcomes) (s : Store F) (d : Disk)
    (a : Announcement) :
    (Retryable codec out s d (.register a) ↔ Works codec out s (.register a)) ∧
    (Retryable codec out s d (.update a) ↔ Works codec out s (.update a) ∨ Stored codec s a) := by
  constructor
  · refine ⟨fun retry n s' accepted => ?_, retryable_of_works⟩
    by_contra fails
    obtain ⟨absent, present⟩ := register_accepted accepted
    have same := (retryable_of_accepted accepted fails).1 retry
    rw [same.nodes, absent] at present
    cases present
  · constructor
    · intro retry
      by_contra neither
      obtain ⟨fails, fresh⟩ := not_or.mp neither
      refine fails fun n s' accepted => ?_
      by_contra failed
      obtain ⟨op, verified, _, _, _, rfl⟩ := update_accepted_iff.mp accepted
      have same := (retryable_of_accepted accepted failed).1 retry
      exact fresh ⟨n, op, verified, sameMaps_put_iff.mp same⟩
    · rintro (works | ⟨n, op, verified, stored⟩)
      · exact retryable_of_works works
      · by_cases works : Works codec out s (.update a)
        · exact retryable_of_works works
        · simp only [Works, not_forall] at works
          obtain ⟨m, s', accepted, fails⟩ := works
          obtain ⟨op', verified', _, _, _, rfl⟩ := update_accepted_iff.mp accepted
          cases verified.symm.trans verified'
          have same : SameMaps s (s.put n op) := sameMaps_put_iff.mpr stored
          exact (retryable_of_accepted accepted fails).2 same (update_again accepted same)

section instances
open RegistryIdentity

/-- Saving is left to the file calls. -/
def savingCodec : Codec ℚ := { sampleCodec with marshalNodes := fun _ => .ok [123, 125] }

def diskFull : Outcomes := ⟨.ok (), .error ("no space left on device", none), .ok (), .ok ()⟩

def emptyRegistry : Store ℚ := newStore "nodes.json" false 10

/-- A full disk does not matter to a store without a file. -/
theorem memoryOnly_retryable :
    Retryable savingCodec diskFull (newStore "" false 10) ⟨none, none⟩
      (.register (announcement 7)) := by
  refine (announcement_retryable_iff savingCodec diskFull _ _ (announcement 7)).1.mpr ?_
  intro n s' accepted
  cases accepted
  exact ⟨.inl rfl, .inl rfl⟩

/-- Registering fails on a full disk and leaves the node behind, so that it fails again
when there is room. -/
theorem diskFull_not_retryable :
    ((perform savingCodec diskFull emptyRegistry ⟨none, none⟩ (.register (announcement 7))).1.map
      (Error.text (fun _ => "") id)) = some "no space left on device" ∧
    ((perform savingCodec allFine
      (perform savingCodec diskFull emptyRegistry ⟨none, none⟩ (.register (announcement 7))).2.1
      ⟨none, none⟩ (.register (announcement 7))).1.map (Error.text (fun _ => "") id)) =
        some "registry: n already registered (use Update)" ∧
    ¬ Retryable savingCodec diskFull emptyRegistry ⟨none, none⟩ (.register (announcement 7)) := by
  refine ⟨by decide, by decide, fun retry => ?_⟩
  have failed : (perform savingCodec diskFull emptyRegistry ⟨none, none⟩
      (.register (announcement 7))).1.isSome = true := by decide
  have same := (retry fun none => by simp [none] at failed).1.nodes "n"
  exact absurd same (by decide)

end instances

end VeilNet.Guarantees.RegistryRetry
