import VeilNet.Source.Registry.Store

/-!
`Load` of `internal/registry/registry.go`: the file is read back into the store, and
its entries are checked again. Decoding the file is a parameter; the decoded map is
visited in some order.
-/
namespace VeilNet.Source.Registry
open Lib

/-- `json.Unmarshal` into a map of nodes. -/
abbrev Decoder (F : Type) := List UInt8 → Except String (GoMap String (Node F))

section load
variable {F : Type} [GoFloat F] (codec : Codec F)

/-- An entry that fails `Validate` is passed over. -/
def Store.loadEntry (s : Store F) (e : Σ _ : String, Node F) : Store F :=
  match codec.validate e.2 s.minBond with
  | .error _ => s
  | .ok () => { s with nodes := s.nodes.insert e.1 e.2 }

/-- `read` is what `os.ReadFile` gives; there may be no file. -/
def Store.load (unmarshalNodes : Decoder F) (order : RangeOrder)
    (read : Except String (Option (List UInt8))) (s : Store F) : Option (Error F) × Store F :=
  if s.path = "" then (none, s)
  else match read with
    | .error err => (some (.file err), s)
    | .ok none => (none, s)
    | .ok (some data) =>
      match unmarshalNodes data with
      | .error err => (some (.file err), s)
      | .ok snap => (none, (order.visit snap.entries).foldl (Store.loadEntry codec) s)

variable {codec}

theorem foldl_loadEntry {s : Store F} {entries : List (Σ _ : String, Node F)}
    (valid : ∀ e ∈ entries, Valid codec e.2 s.minBond) :
    entries.foldl (Store.loadEntry codec) s =
      { s with nodes := entries.foldl (fun m e => m.insert e.1 e.2) s.nodes } := by
  induction entries generalizing s with
  | nil => rfl
  | cons e rest ih =>
    obtain ⟨here, later⟩ := List.forall_mem_cons.mp valid
    have entered : Store.loadEntry codec s e = { s with nodes := s.nodes.insert e.1 e.2 } := by
      rw [Store.loadEntry, validate_ok_iff.mpr here]
    rw [List.foldl_cons, entered]
    exact ih later

end load

end VeilNet.Source.Registry
