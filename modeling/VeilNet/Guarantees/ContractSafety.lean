import VeilNet.Source.Contract.Refinement

/-!
# Registry contract: panics, atomic failure, authority and isolation

About `contracts/veilnet.bas` after any history since deployment. The results are read off the
registry that the storage represents; `Represents.unique` brings them back.
-/
namespace VeilNet.Guarantees.ContractSafety
open Lib Source.Contract

/-- What a guarded change can do, said once for all guarded entrypoints. -/
theorem change_cases (r : Registry) (id : String) (f : NodeRecord → Option NodeRecord) :
    r.change id f = (1, r) ∨
      ∃ n n', r.nodes id = some n ∧ f n = some n' ∧ r.change id f = (0, r.setNode id n') := by
  unfold Registry.change
  cases registered : r.nodes id with
  | none => exact .inl rfl
  | some n =>
    cases outcome : f n with
    | none => exact .inl (by simp only [outcome])
    | some n' => exact .inr ⟨n, n', rfl, outcome, by simp only [outcome]⟩

theorem of_guard {α : Type} {guard : Prop} [Decidable guard] {a b : α}
    (accepted : (if guard then some a else none) = some b) : guard ∧ a = b := by
  simpa using accepted

theorem apply_refused (r : Registry) (inv : Invocation) (refused : (r.apply inv).1 = 1) :
    (r.apply inv).2 = r := by
  have guarded : ∀ id f, (r.change id f).1 = 1 → (r.change id f).2 = r := by
    intro id f answer
    rcases change_cases r id f with same | ⟨_, _, _, _, changed⟩
    · rw [same]
    · rw [changed] at answer
      exact absurd answer (by decide : (0 : UInt64) ≠ 1)
  obtain ⟨signer, call⟩ := inv
  cases call with
  | registerNode id metadata price =>
    simp only [Registry.apply] at refused ⊢
    split
    · rfl
    · next unknown =>
      rw [unknown] at refused
      exact absurd refused (by decide : (0 : UInt64) ≠ 1)
  | initialize_ => rfl
  | getPrice | getStatus | getBond => rfl
  | updateNode | disableNode | setPrice | depositBond | withdrawBond | recordSettlement
  | recordSettlementIdem => exact guarded _ _ refused

/-- In every reachable state every invocation runs to a `RETURN`: no `LOAD` meets a missing key or
a value of the other type. One that returns 1 leaves every storage key as it was. -/
theorem invoke_total_and_atomic {s : Storage} (reachable : Reachable s) (inv : Invocation) :
    ∃ answer t, invoke inv s = .ok (answer, t) ∧ (answer = 1 → ∀ key, t key = s key) := by
  obtain ⟨r, represents⟩ := reachable.represents
  obtain ⟨t, runs, after⟩ := invoke_refines represents inv
  refine ⟨_, t, runs, fun refused key => ?_⟩
  rw [apply_refused r inv refused] at after
  rw [after.unique represents]

/-- Next to a registered node, withdrawing from one that never was is refused, not a panic. -/
theorem withdraw_unregistered_total :
    let s := Run.run afterInvoke (deployed "op") [⟨"alice", .registerNode "n" "m" 1⟩]
    s (nodeKey "n" .owner) = some (.string "alice") ∧
      ∃ answer t, invoke ⟨"mallory", .withdrawBond "n1" 5⟩ s = .ok (answer, t) ∧
        (answer = 1 → ∀ key, t key = s key) :=
  ⟨by decide, invoke_total_and_atomic ⟨"op", [⟨"alice", .registerNode "n" "m" 1⟩], rfl⟩
    ⟨"mallory", .withdrawBond "n1" 5⟩⟩

/-! Authority. Each guarded entrypoint names its node, and the fields it may
change depend on who signs. -/

/-- An invocation leaves the record of every node it does not name. -/
theorem after_other (r : Registry) (inv : Invocation) (id : String)
    (other : inv.call.nodeID ≠ some id) : (r.after inv).nodes id = r.nodes id := by
  have set : ∀ a n, a ≠ id → (r.setNode a n).nodes id = r.nodes id := by
    intro a n different
    simp [Registry.setNode, Function.update_of_ne different.symm]
  have guarded : ∀ a f, a ≠ id → (r.change a f).2.nodes id = r.nodes id := by
    intro a f different
    rcases change_cases r a f with same | ⟨_, n', _, _, changed⟩
    · rw [same]
    · rw [changed]
      exact set a n' different
  obtain ⟨signer, call⟩ := inv
  cases call with
  | initialize_ => rfl
  | getPrice | getStatus | getBond => rfl
  | registerNode a metadata price =>
    have different : a ≠ id := fun eq => other (congrArg some eq)
    simp only [Registry.after, Registry.apply]
    split
    · rfl
    · exact set a _ different
  | updateNode | disableNode | setPrice | depositBond | withdrawBond | recordSettlement
  | recordSettlementIdem => exact guarded _ _ fun eq => other (congrArg some eq)

/-- The record of a registered node after an invocation: the owner stays, only the owner changes
metadata, price and bond, and only the owner or the contract owner the rest. -/
structure KeepsAuthority (r : Registry) (signer : String) (n n' : NodeRecord) : Prop where
  owner : n'.owner = n.owner
  operator : n'.metadata ≠ n.metadata ∨ n'.price ≠ n.price ∨ n'.bond ≠ n.bond → signer = n.owner
  authorised : n'.status ≠ n.status ∨ n'.settled ≠ n.settled → signer = n.owner ∨ signer = r.owner

theorem keepsAuthority_refl (r : Registry) (signer : String) (n : NodeRecord) :
    KeepsAuthority r signer n n := by
  constructor <;> simp

theorem keepsAuthority_of_operator (r : Registry) {signer : String} {n n' : NodeRecord}
    (own : n.owner = signer) (owner : n'.owner = n.owner) : KeepsAuthority r signer n n' :=
  ⟨owner, fun _ => own.symm, fun _ => .inl own.symm⟩

theorem keepsAuthority_of_authorised {r : Registry} {signer : String} {n n' : NodeRecord}
    (auth : r.Authorised n signer) (owner : n'.owner = n.owner)
    (metadata : n'.metadata = n.metadata)
    (price : n'.price = n.price) (bond : n'.bond = n.bond) : KeepsAuthority r signer n n' := by
  refine ⟨owner, ?_, fun _ => auth.imp Eq.symm Eq.symm⟩
  simp [metadata, price, bond]

theorem after_registered (r : Registry) (inv : Invocation) {id : String} {n : NodeRecord}
    (registered : r.nodes id = some n) :
    ∃ n', (r.after inv).nodes id = some n' ∧ KeepsAuthority r inv.signer n n' := by
  by_cases named : inv.call.nodeID = some id
  · have guarded : ∀ f, (∀ n', f n = some n' → KeepsAuthority r inv.signer n n') →
        ∃ n', (r.change id f).2.nodes id = some n' ∧ KeepsAuthority r inv.signer n n' := by
      intro f keeps
      rcases change_cases r id f with same | ⟨m, n', found, accepted, changed⟩
      · exact ⟨n, by rw [same, registered], keepsAuthority_refl r inv.signer n⟩
      · rw [registered] at found
        obtain rfl := Option.some.inj found
        exact ⟨n', by rw [changed]; simp, keeps n' accepted⟩
    obtain ⟨signer, call⟩ := inv
    cases call with
    | initialize_ => cases named
    | getPrice | getStatus | getBond => exact ⟨n, registered, keepsAuthority_refl r signer n⟩
    | registerNode =>
      cases named
      refine ⟨n, ?_, keepsAuthority_refl r signer n⟩
      simp only [Registry.after, Registry.apply, registered]
    | updateNode | setPrice =>
      cases named
      refine guarded _ fun n' accepted => ?_
      obtain ⟨own, rfl⟩ := of_guard accepted
      exact keepsAuthority_of_operator r own rfl
    | depositBond | withdrawBond =>
      cases named
      refine guarded _ fun n' accepted => ?_
      obtain ⟨⟨own, _⟩, rfl⟩ := of_guard accepted
      exact keepsAuthority_of_operator r own rfl
    | disableNode =>
      cases named
      refine guarded _ fun n' accepted => ?_
      obtain ⟨auth, rfl⟩ := of_guard accepted
      exact keepsAuthority_of_authorised auth rfl rfl rfl rfl
    | recordSettlement =>
      cases named
      refine guarded _ fun n' accepted => ?_
      obtain ⟨⟨auth, _⟩, rfl⟩ := of_guard accepted
      exact keepsAuthority_of_authorised auth rfl rfl rfl rfl
    | recordSettlementIdem =>
      cases named
      refine guarded _ fun n' accepted => ?_
      simp only [Option.ite_none_right_eq_some] at accepted
      obtain ⟨guard, accepted⟩ := accepted
      split at accepted
      · obtain rfl := Option.some.inj accepted
        exact keepsAuthority_refl r signer n
      · obtain ⟨_, rfl⟩ := of_guard accepted
        exact keepsAuthority_of_authorised guard.1 rfl rfl rfl rfl
  · exact ⟨n, by rw [after_other r inv id named, registered], keepsAuthority_refl r inv.signer n⟩

theorem run_keeps_owner (r : Registry) {id : String} {n : NodeRecord}
    (registered : r.nodes id = some n) (later : List Invocation) :
    ∃ n', (Run.run Registry.after r later).nodes id = some n' ∧ n'.owner = n.owner := by
  induction later generalizing r n with
  | nil => exact ⟨n, registered, rfl⟩
  | cons inv rest ih =>
    obtain ⟨next, found, keeps⟩ := after_registered r inv registered
    obtain ⟨n', last, same⟩ := ih (r.after inv) found
    exact ⟨n', last, same.trans keeps.owner⟩

theorem registered_of_owner {s : Storage} {r : Registry} (represents : Represents s r) {id : String}
    {value : Value} (set : s (nodeKey id .owner) = some value) :
    ∃ n, r.nodes id = some n ∧ value = .string n.owner := by
  cases registered : r.nodes id with
  | none =>
    rw [represents.missing registered] at set
    cases set
  | some n =>
    rw [represents.field registered] at set
    exact ⟨n, rfl, (Option.some.inj set).symm⟩

/-- (a) A node's owner key, once set, keeps its value. (b) Metadata, price and bond change only
when its owner signs; status and settled total only when its owner or the contract owner does. (c)
No invocation touches a key of a node other than the one it names. -/
theorem authority_and_isolation {s : Storage} (reachable : Reachable s) (inv : Invocation) :
    (∀ id value, s (nodeKey id .owner) = some value →
      ∀ later, Run.run afterInvoke s later (nodeKey id .owner) = some value) ∧
    (∀ id owner, s (nodeKey id .owner) = some (.string owner) →
      (∀ field ∈ [Field.metadata, .price, .bond],
        afterInvoke s inv (nodeKey id field) ≠ s (nodeKey id field) → inv.signer = owner) ∧
      (∀ field ∈ [Field.status, .settled],
        afterInvoke s inv (nodeKey id field) ≠ s (nodeKey id field) →
          inv.signer = owner ∨ s ownerKey = some (.string inv.signer))) ∧
    (∀ id, inv.call.nodeID ≠ some id →
      ∀ field, afterInvoke s inv (nodeKey id field) = s (nodeKey id field)) := by
  obtain ⟨r, represents⟩ := reachable.represents
  have after := afterInvoke_represents represents inv
  refine ⟨?_, ?_, ?_⟩
  · intro id value set later
    obtain ⟨n, registered, rfl⟩ := registered_of_owner represents set
    obtain ⟨n', found, same⟩ := run_keeps_owner r registered later
    rw [(run_represents represents later).field found, ← same]
    rfl
  · intro id owner set
    obtain ⟨n, registered, eq⟩ := registered_of_owner represents set
    obtain rfl := (Value.string.inj eq).symm
    obtain ⟨n', found, keeps⟩ := after_registered r inv registered
    simp only [List.forall_mem_cons, List.not_mem_nil, false_implies, implies_true, and_true,
      after.field found, represents.field registered, represents.owner, NodeRecord.field, ne_eq,
      Option.some.injEq, Value.string.injEq, Value.uint64.injEq]
    have operator := keeps.operator
    have authorised := keeps.authorised
    refine ⟨⟨?_, ?_, ?_⟩, ?_, ?_⟩
    · exact fun changed => operator (.inl changed)
    · exact fun changed => operator (.inr (.inl changed))
    · exact fun changed => operator (.inr (.inr changed))
    · exact fun changed => (authorised (.inl changed)).imp_right Eq.symm
    · exact fun changed => (authorised (.inr changed)).imp_right Eq.symm
  · intro id other field
    rw [after.node, represents.node, after_other r inv id other]

/-- An ID that reads like a key of a registered node is still isolated from it. -/
theorem lookalike_id_isolated :
    let s := Run.run afterInvoke (deployed "op") [⟨"alice", .registerNode "n" "m" 1⟩]
    s (nodeKey "n" .owner) = some (.string "alice") ∧
    ∀ field, afterInvoke s ⟨"mallory", .registerNode "n_owner" "m" 1⟩ (nodeKey "n" field) =
      s (nodeKey "n" field) :=
  ⟨by decide,
    (authority_and_isolation ⟨"op", [⟨"alice", .registerNode "n" "m" 1⟩], rfl⟩
      ⟨"mallory", .registerNode "n_owner" "m" 1⟩).2.2 "n" (by decide)⟩

/-- After every history the storage holds the registry that the same invocations lead to, and it
answers the next one as the registry does. -/
theorem storage_refines_registry (installer : String) (history : List Invocation)
    (inv : Invocation) :
    let s := Run.run afterInvoke (deployed installer) history
    let r := Run.run Registry.after (Registry.deployed installer) history
    Represents s r ∧ answer s inv = some (r.apply inv).1 := by
  have represents := run_represents (deployed_represents installer) history
  exact ⟨represents, represents.answer inv⟩

section alone
variable {r : Registry} {id : String} {inv : Invocation}

/-- The registry as if the node were its only one. -/
def only (r : Registry) (id : String) : Registry :=
  { r with nodes := Function.update (fun _ => none) id (r.nodes id) }

@[simp] theorem nodes_only : (only r id).nodes id = r.nodes id := by simp [only]

theorem only_setNode (n : NodeRecord) : (only r id).setNode id n = only (r.setNode id n) id := by
  simp [only, Registry.setNode]

theorem change_only (f : NodeRecord → Option NodeRecord) :
    (only r id).change id f = ((r.change id f).1, only (r.change id f).2 id) := by
  simp only [Registry.change, nodes_only]
  cases r.nodes id with
  | none => rfl
  | some n => cases changed : f n <;> simp [changed, only_setNode]

/-- An invocation reads and writes no node but the one it names. -/
theorem apply_only (named : inv.call.nodeID = some id) :
    (only r id).apply inv = ((r.apply inv).1, only (r.after inv) id) := by
  obtain ⟨signer, call⟩ := inv
  cases call with
  | initialize_ => cases named
  | registerNode =>
    cases named
    simp only [Registry.after, Registry.apply, nodes_only]
    cases r.nodes id <;> simp [only_setNode]
  | getPrice | getStatus | getBond =>
    cases named
    simp only [Registry.after, Registry.apply, nodes_only]
  | updateNode | disableNode | setPrice | depositBond | withdrawBond | recordSettlement
  | recordSettlementIdem =>
    cases named
    exact change_only _

theorem owner_after (r : Registry) (inv : Invocation) : (r.after inv).owner = r.owner := by
  unfold Registry.after Registry.apply Registry.change
  repeat' split
  all_goals rfl

theorem only_run (r : Registry) (id : String) (history : List Invocation) :
    only (Run.run Registry.after r history) id =
      Run.run Registry.after (only r id) (history.filter (·.call.nodeID = some id)) := by
  induction history generalizing r with
  | nil => rfl
  | cons inv rest ih =>
    rw [Run.run_cons, ih]
    by_cases named : inv.call.nodeID = some id
    · have next : (only r id).after inv = only (r.after inv) id :=
        congrArg Prod.snd (apply_only named)
      rw [List.filter_cons_of_pos (by simpa using named), Run.run_cons, next]
    · rw [List.filter_cons_of_neg (by simpa using named), only, only, owner_after,
        after_other r inv id named]

end alone

/-- The nodes of one contract are as if each had a contract of its own: after every history the
keys of a node, and the answer to the next invocation that names it, are those after only the
invocations that named it. -/
theorem node_independent (installer : String) (history : List Invocation) (id : String) :
    let s := Run.run afterInvoke (deployed installer) history
    let own := Run.run afterInvoke (deployed installer) (history.filter (·.call.nodeID = some id))
    (∀ field, s (nodeKey id field) = own (nodeKey id field)) ∧
      ∀ inv : Invocation, inv.call.nodeID = some id → answer s inv = answer own inv := by
  have whole := run_represents (deployed_represents installer) history
  have own := run_represents (deployed_represents installer)
    (history.filter (·.call.nodeID = some id))
  have start : only (Registry.deployed installer) id = Registry.deployed installer := by
    simp [only, Registry.deployed]
  rw [← start, ← only_run] at own
  refine ⟨fun field => ?_, fun inv named => ?_⟩
  · rw [whole.node, own.node, nodes_only]
  · rw [whole.answer, own.answer, apply_only named]

end VeilNet.Guarantees.ContractSafety
