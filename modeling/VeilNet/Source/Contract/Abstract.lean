import VeilNet.Source.Contract.Entrypoints
import VeilNet.Lib.Separator

/-!
What the contract is for: a registry of node records under one contract owner. A record holds
every field a registered node has. `Represents` ties the flat string-keyed storage to such a
registry; it rests on the keys being injective in the node ID and the field.
-/
namespace VeilNet.Source.Contract
open Lib

structure NodeRecord where
  owner : String
  metadata : String
  price : UInt64
  bond : UInt64
  status : UInt64
  settled : UInt64
  lastcount : Option UInt64
  lastbatch : Option String

def NodeRecord.field (n : NodeRecord) : Field → Option Value
  | .owner => some (.string n.owner)
  | .metadata => some (.string n.metadata)
  | .price => some (.uint64 n.price)
  | .bond => some (.uint64 n.bond)
  | .status => some (.uint64 n.status)
  | .settled => some (.uint64 n.settled)
  | .lastcount => n.lastcount.map .uint64
  | .lastbatch => n.lastbatch.map .string

structure Registry where
  owner : String
  nodes : String → Option NodeRecord

def Registry.setNode (r : Registry) (id : String) (n : NodeRecord) : Registry :=
  { r with nodes := Function.update r.nodes id (some n) }

/-- Answer 1 and leave the registry alone for an unknown node or a refused
change; answer 0 and replace the record otherwise. -/
def Registry.change (r : Registry) (id : String) (f : NodeRecord → Option NodeRecord) :
    UInt64 × Registry :=
  match r.nodes id with
  | none => (1, r)
  | some n =>
    match f n with
    | none => (1, r)
    | some n' => (0, r.setNode id n')

/-- A settlement may be recorded by the node's operator or the contract owner. -/
def Registry.Authorised (r : Registry) (n : NodeRecord) (signer : String) : Prop :=
  n.owner = signer ∨ r.owner = signer

instance (r : Registry) (n : NodeRecord) (signer : String) : Decidable (r.Authorised n signer) :=
  inferInstanceAs (Decidable (_ ∨ _))

def NodeRecord.settle (n : NodeRecord) (total count : UInt64) : NodeRecord :=
  { n with settled := n.settled + total, lastcount := some count }

/-- The registry's own rules, with every bound stated on natural numbers. -/
def Registry.apply (r : Registry) (inv : Invocation) : UInt64 × Registry :=
  match inv.call with
  | .initialize_ => (1, r)
  | .registerNode id metadata price =>
    match r.nodes id with
    | some _ => (1, r)
    | none => (0, r.setNode id
        { owner := inv.signer, metadata, price, bond := 0, status := 1, settled := 0,
          lastcount := none, lastbatch := none })
  | .updateNode id metadata price => r.change id fun n =>
    if n.owner = inv.signer then some { n with metadata, price } else none
  | .disableNode id => r.change id fun n =>
    if r.Authorised n inv.signer then some { n with status := 0 } else none
  | .setPrice id price => r.change id fun n =>
    if n.owner = inv.signer then some { n with price } else none
  | .depositBond id amount => r.change id fun n =>
    if n.owner = inv.signer ∧ amount ≠ 0 ∧ n.bond.toNat + amount.toNat < 2 ^ 64 then
      some { n with bond := n.bond + amount }
    else none
  | .withdrawBond id amount => r.change id fun n =>
    if n.owner = inv.signer ∧ amount ≠ 0 ∧ amount.toNat ≤ n.bond.toNat then
      some { n with bond := n.bond - amount }
    else none
  | .recordSettlement id total count => r.change id fun n =>
    if r.Authorised n inv.signer ∧ count ≠ 0 ∧ n.settled.toNat + total.toNat < 2 ^ 64 then
      some (n.settle total count)
    else none
  | .recordSettlementIdem id total count batchID => r.change id fun n =>
    if r.Authorised n inv.signer ∧ count ≠ 0 ∧ batchID ≠ "" then
      if n.lastbatch = some batchID then some n
      else if n.settled.toNat + total.toNat < 2 ^ 64 then
        some { n.settle total count with lastbatch := some batchID }
      else none
    else none
  | .getPrice id => ((r.nodes id).elim 0 (·.price), r)
  | .getStatus id => ((r.nodes id).elim 0 (·.status), r)
  | .getBond id => ((r.nodes id).elim 0 (·.bond), r)

/-- The storage holds exactly the registry: its owner, the fields of every
record, and no other key. -/
structure Represents (s : Storage) (r : Registry) : Prop where
  owner : s ownerKey = some (.string r.owner)
  node : ∀ id field, s (nodeKey id field) = (r.nodes id).bind (·.field field)
  nothingElse : ∀ key, key ≠ ownerKey → (∀ id field, key ≠ nodeKey id field) → s key = none

/-- Every suffix is an underscore and a word without underscores. -/
private theorem suffix_shape (field : Field) :
    ∃ word, field.suffix.toList = '_' :: word ∧ '_' ∉ word := by
  cases field <;> exact ⟨_, rfl, by decide⟩

private theorem suffix_injective {f g : Field} (h : f.suffix = g.suffix) : f = g := by
  cases f <;> cases g <;> first | rfl | (exact absurd h (by decide))

/-- The last underscore of a key separates the node ID from the field, even
when the ID itself contains underscores or ends like a key. -/
@[simp] theorem nodeKey_inj {a b : String} {f g : Field} :
    nodeKey a f = nodeKey b g ↔ a = b ∧ f = g := by
  constructor
  · intro h
    obtain ⟨u, hu, freeU⟩ := suffix_shape f
    obtain ⟨v, hv, freeV⟩ := suffix_shape g
    have chars : a.toList ++ '_' :: u = b.toList ++ '_' :: v := by
      have := congrArg String.toList h
      simpa only [nodeKey, String.toList_append, List.append_assoc, hu, hv,
        List.append_cancel_left_eq] using this
    obtain ⟨ids, words⟩ := Separator.last_separator freeU freeV chars
    have suffixes : f.suffix = g.suffix := by
      rw [← String.toList_inj, hu, hv, words]
    exact ⟨String.toList_inj.mp ids, suffix_injective suffixes⟩
  · rintro ⟨rfl, rfl⟩
    rfl

@[simp] theorem nodeKey_ne_ownerKey (id : String) (field : Field) :
    nodeKey id field ≠ ownerKey := by
  intro h
  have chars := congrArg String.toList h
  simp only [nodeKey, ownerKey, String.toList_append, List.append_assoc] at chars
  exact absurd (List.cons.inj chars).1 (by decide)

@[simp] theorem ownerKey_ne_nodeKey (id : String) (field : Field) : ownerKey ≠ nodeKey id field :=
  (nodeKey_ne_ownerKey id field).symm

section represents
variable {s t : Storage} {r : Registry} {id : String} {n : NodeRecord}

variable (h : Represents s r)
include h

theorem Represents.field (registered : r.nodes id = some n) (field : Field) :
    s (nodeKey id field) = n.field field := by
  rw [h.node, registered]
  rfl

theorem Represents.missing (unknown : r.nodes id = none) (field : Field) :
    s (nodeKey id field) = none := by
  rw [h.node, unknown]
  rfl

/-- The natural number stored under a Uint64 key, 0 when the key is missing. -/
def uintAt (s : Storage) (key : String) : ℕ :=
  match s key with
  | some (.uint64 value) => value.toNat
  | _ => 0

omit h in
theorem uintAt_lt (s : Storage) (key : String) : uintAt s key < 2 ^ 64 := by
  unfold uintAt
  split
  · exact UInt64.toNat_lt _
  · decide

theorem Represents.uintAt_bond (id : String) :
    uintAt s (nodeKey id .bond) = (r.nodes id).elim 0 (·.bond.toNat) := by
  unfold uintAt
  rw [h.node]
  cases r.nodes id <;> rfl

theorem Represents.uintAt_settled (id : String) :
    uintAt s (nodeKey id .settled) = (r.nodes id).elim 0 (·.settled.toNat) := by
  unfold uintAt
  rw [h.node]
  cases r.nodes id <;> rfl

/-- A registry has one storage: two storages of it agree on every key. -/
theorem Represents.unique (h' : Represents t r) : s = t := by
  funext key
  by_cases isOwner : key = ownerKey
  · rw [isOwner, h.owner, h'.owner]
  · by_cases isNode : ∃ id field, key = nodeKey id field
    · obtain ⟨id, field, rfl⟩ := isNode
      rw [h.node, h'.node]
    · have others : ∀ id field, key ≠ nodeKey id field := fun id field eq => isNode ⟨id, field, eq⟩
      rw [h.nothingElse key isOwner others, h'.nothingElse key isOwner others]

/-- A storage that holds the fields of `n` under one ID and is otherwise the
old one represents the registry with that record replaced or added. -/
theorem Represents.setNode (fields : ∀ field, t (nodeKey id field) = n.field field)
    (rest : ∀ key, (∀ field, key ≠ nodeKey id field) → t key = s key) :
    Represents t (r.setNode id n) := by
  refine ⟨?_, ?_, ?_⟩
  · rw [rest _ (ownerKey_ne_nodeKey id)]
    exact h.owner
  · intro a field
    by_cases same : a = id
    · subst same
      simp [Registry.setNode, fields]
    · rw [rest _ (by simp [same]), h.node]
      simp [Registry.setNode, same]
  · intro key notOwner notNode
    rw [rest key (notNode id)]
    exact h.nothingElse key notOwner notNode

omit h in
@[simp] theorem Registry.setNode_nodes (r : Registry) (id : String) (n : NodeRecord) :
    (r.setNode id n).nodes id = some n := by
  simp [setNode]

end represents

end VeilNet.Source.Contract
