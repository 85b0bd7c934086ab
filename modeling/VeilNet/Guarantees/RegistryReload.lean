import VeilNet.Source.Registry.Load
import VeilNet.Guarantees.RegistryIdentity

/-!
# Reading the registry back

`Load` passes over entries that fail `Validate`. Stored nodes never do, so a store with a file,
whose saves have all succeeded, is read back whole. A store without a file is not.
-/
namespace VeilNet.Guarantees.RegistryReload
open Lib Source.Registry
open RegistryIdentity (World Op step)

variable {F : Type}

/-- A new store on a path where no file is yet. -/
def start [GoFloat F] (path : String) (mirror : Bool) (minBond : F) : World F :=
  RegistryIdentity.start path mirror minBond ⟨none, none⟩

/-- If the call gets as far as saving, the save succeeds. -/
def SaveSucceeds [GoFloat F] (codec : Codec F) (w : World F) (op : Op F) : Prop :=
  ∀ n s', w.store.locked codec op.call = .ok (n, s') → (save codec op.out s' w.disk).1 = none

/-- A new store on the same path and with the same minimum bond, once it has loaded,
holds the nodes of this one. -/
def ReadBack [GoFloat F] (codec : Codec F) (unmarshalNodes : Decoder F) (minBond : F)
    (w : World F) : Prop :=
  ∀ (mirror : Bool) (order : RangeOrder),
    let loaded := (newStore w.store.path mirror minBond).load codec unmarshalNodes order
      (.ok w.disk.file)
    loaded.1 = none ∧ ∀ id, loaded.2.nodes.lookup id = w.store.nodes.lookup id

section steps
variable [GoFloat F] {codec : Codec F} {minBond : F} {w : World F}

/-- All nodes are valid, and the file holds them; without a file there are none. -/
structure Filed (codec : Codec F) (minBond : F) (w : World F) : Prop where
  onDisk : w.store.path ≠ ""
  bond : w.store.minBond = effectiveMinBond minBond
  valid : ∀ id n, w.store.nodes.lookup id = some n → Valid codec n w.store.minBond
  file : match w.disk.file with
    | none => ∀ id, w.store.nodes.lookup id = none
    | some data => codec.marshalNodes w.store.nodes = .ok data

theorem filed_start {path : String} (onDisk : path ≠ "") (mirror : Bool) (minBond : F) :
    Filed codec minBond (start path mirror minBond) := by
  refine ⟨onDisk, rfl, ?_, fun id => AList.lookup_empty id⟩
  intro id n found
  rw [start, RegistryIdentity.start, newStore, AList.lookup_empty] at found
  cases found

theorem valid_locked {s s' : Store F} {call : Call F} {n : Node F}
    (valid : ∀ id m, s.nodes.lookup id = some m → Valid codec m s.minBond)
    (done : s.locked codec call = .ok (n, s')) :
    ∀ id m, s'.nodes.lookup id = some m → Valid codec m s.minBond := by
  have entered : Valid codec n s.minBond ∧ ∃ key, s'.nodes = s.nodes.insert key n := by
    rcases locked_cases done with ⟨a, op, _, _, fresh, rfl, _⟩ | ⟨id, old, found, rfl, change⟩
    · exact ⟨fresh, n.nodeID, rfl⟩
    · refine ⟨?_, id, rfl⟩
      rcases change with rfl | ⟨price, nonnegative, rfl⟩
      · exact (valid id old found).disabled
      · exact (valid id old found).priced nonnegative
  obtain ⟨fresh, key, nodes⟩ := entered
  intro id m found
  rw [nodes] at found
  rcases GoMap.lookup_insert_cases found with ⟨_, rfl⟩ | ⟨_, old⟩
  · exact fresh
  · exact valid id m old

theorem Filed.step (filed : Filed codec minBond w) {op : Op F} (saves : SaveSucceeds codec w op) :
    Filed codec minBond (step codec w op) := by
  cases reached : w.store.locked codec op.call with
  | error e =>
    simp only [RegistryIdentity.step, perform, reached]
    exact ⟨filed.onDisk, filed.bond, filed.valid, filed.file⟩
  | ok changed =>
    obtain ⟨n, s'⟩ := changed
    have saved := saves n s' reached
    have onDisk : s'.path ≠ "" := by
      rw [locked_path reached]
      exact filed.onDisk
    obtain ⟨data, encoded, file⟩ := file_of_save onDisk saved
    simp only [RegistryIdentity.step, perform, reached]
    rw [← Prod.eta (save codec op.out s' w.disk), saved]
    refine ⟨onDisk, by rw [locked_minBond reached, filed.bond], ?_, ?_⟩
    · intro id m found
      rw [locked_minBond reached]
      exact valid_locked filed.valid reached id m found
    · dsimp only
      rw [file]
      exact encoded

/-- A store whose nodes are valid and in the file is read back whole. -/
theorem Filed.readBack {unmarshalNodes : Decoder F}
    (faithful : ∀ nodes data, codec.marshalNodes nodes = .ok data →
      ∃ nodes', unmarshalNodes data = .ok nodes' ∧ ∀ id, nodes'.lookup id = nodes.lookup id)
    (filed : Filed codec minBond w) : ReadBack codec unmarshalNodes minBond w := by
  intro mirror order
  have fresh : (newStore w.store.path mirror minBond).path ≠ "" := filed.onDisk
  have file := filed.file
  unfold Store.load
  rw [if_neg fresh]
  split at file
  · next absent =>
    rw [absent]
    exact ⟨rfl, fun id => (AList.lookup_empty id).trans (file id).symm⟩
  · next data held =>
    obtain ⟨nodes', decoded, same⟩ := faithful w.store.nodes data file
    rw [held]
    dsimp only
    rw [decoded]
    have valid : ∀ e ∈ order.visit nodes'.entries,
        Valid codec e.2 (newStore w.store.path mirror minBond).minBond := by
      intro e member
      have found : nodes'.lookup e.1 = some e.2 :=
        AList.mem_lookup_iff.mpr ((order.perm _).mem_iff.mp member)
      rw [same] at found
      have valid := filed.valid e.1 e.2 found
      rwa [filed.bond] at valid
    refine ⟨rfl, fun id => ?_⟩
    dsimp only
    rw [foldl_loadEntry valid]
    exact (GoMap.lookup_copy order nodes' id).trans (same id)

end steps

/-- A store with a file, from its first call on and whatever its mirror does: as long as
its saves succeed, a new store reads back all its nodes, unchanged. -/
theorem reload_reads_back [GoFloat F] (codec : Codec F) (unmarshalNodes : Decoder F)
    (faithful : ∀ nodes data, codec.marshalNodes nodes = .ok data →
      ∃ nodes', unmarshalNodes data = .ok nodes' ∧ ∀ id, nodes'.lookup id = nodes.lookup id)
    (path : String) (onDisk : path ≠ "") (mirror : Bool) (minBond : F) (ops : List (Op F))
    (saves : Run.Along (step codec) (SaveSucceeds codec) (start path mirror minBond) ops) :
    Run.Throughout (step codec) (ReadBack codec unmarshalNodes minBond)
      (start path mirror minBond) ops := by
  have filed : Run.Throughout (step codec) (Filed codec minBond) (start path mirror minBond) ops :=
    Run.throughout_of_invariant (filed_start onDisk mirror minBond)
      (fun _ _ saved filed => filed.step saved) saves
  exact filed.mono fun _ filed => filed.readBack faithful

section instances
open RegistryIdentity (sampleCodec sampleNode announcement allFine)

/-- No node is encoded by no bytes, the sample node by one; nothing else is encoded. -/
def oneNodeCodec : Codec ℚ :=
  { sampleCodec with
    marshalNodes := fun nodes =>
      if nodes.entries = [] then .ok []
      else if nodes.entries = [⟨"n", sampleNode⟩] then .ok [1]
        else .error "json: unsupported value" }

def oneNodeDecoder : Decoder ℚ
  | [] => .ok ∅
  | _ :: _ => .ok (AList.singleton "n" sampleNode)

theorem oneNodeDecoder_faithful (nodes : GoMap String (Node ℚ)) (data : List UInt8)
    (encoded : oneNodeCodec.marshalNodes nodes = .ok data) :
    ∃ nodes', oneNodeDecoder data = .ok nodes' ∧ ∀ id, nodes'.lookup id = nodes.lookup id := by
  simp only [oneNodeCodec] at encoded
  split at encoded
  · next none =>
    cases encoded
    exact ⟨∅, rfl, fun id => by rw [show nodes = ∅ from AList.ext none]⟩
  · split at encoded
    · next one =>
      cases encoded
      refine ⟨AList.singleton "n" sampleNode, rfl, fun id => ?_⟩
      rw [show nodes = AList.singleton "n" sampleNode from AList.ext one]
    · cases encoded

def registered : List (Op ℚ) := [⟨.register (announcement 7), allFine⟩]

theorem registered_saves (path : String) :
    Run.Along (step oneNodeCodec) (SaveSucceeds oneNodeCodec) (start path false 10) registered := by
  have accepted : (start path false (10 : ℚ)).store.locked oneNodeCodec
      (.register (announcement 7)) =
      .ok (sampleNode, (newStore path false 10).put sampleNode (List.replicate 32 7)) := rfl
  refine ⟨fun n s' reached => ?_, trivial⟩
  rw [accepted] at reached
  cases reached
  exact save_eq_none_iff.mpr (.inr ⟨rfl, rfl, rfl, rfl⟩)

theorem registered_reads_back :
    Run.Throughout (step oneNodeCodec) (ReadBack oneNodeCodec oneNodeDecoder 10)
      (start "nodes.json" false 10) registered :=
  reload_reads_back oneNodeCodec oneNodeDecoder oneNodeDecoder_faithful "nodes.json" (by decide)
    false 10 registered (registered_saves "nodes.json")

/-- Without a file nothing is read back. -/
theorem memoryOnly_not_read_back : ¬ ∀ (codec : Codec ℚ) (unmarshalNodes : Decoder ℚ),
    (∀ nodes data, codec.marshalNodes nodes = .ok data →
      ∃ nodes', unmarshalNodes data = .ok nodes' ∧ ∀ id, nodes'.lookup id = nodes.lookup id) →
    ∀ (path : String) (mirror : Bool) (minBond : ℚ) (ops : List (Op ℚ)),
      Run.Along (step codec) (SaveSucceeds codec) (start path mirror minBond) ops →
      Run.Throughout (step codec) (ReadBack codec unmarshalNodes minBond)
        (start path mirror minBond) ops := by
  intro holds
  have readBack := (holds oneNodeCodec oneNodeDecoder oneNodeDecoder_faithful "" false 10 registered
    (registered_saves "")).last
  exact absurd ((readBack false .forward).2 "n") (by decide)

end instances

end VeilNet.Guarantees.RegistryReload
