import VeilNet.Guarantees.ContractSafety

/-!
# Registry contract: bonds and settled totals are exact

Each node's bond and settled total, as natural numbers, against the amounts of the calls that went
through, each judged in the state it was made in.
-/
namespace VeilNet.Guarantees.ContractBalances
open Lib Source.Contract Guarantees.ContractSafety

/-- The amount a call adds to the bond of `id`: a `DepositBond` that returned 0. -/
def deposited (id : String) (entry : Storage × Invocation) : ℕ :=
  match entry.2.call with
  | .depositBond node amount =>
    if node = id ∧ answer entry.1 entry.2 = some 0 then amount.toNat else 0
  | _ => 0

/-- The amount a call takes from the bond of `id`: a `WithdrawBond` that returned 0. -/
def withdrawn (id : String) (entry : Storage × Invocation) : ℕ :=
  match entry.2.call with
  | .withdrawBond node amount =>
    if node = id ∧ answer entry.1 entry.2 = some 0 then amount.toNat else 0
  | _ => 0

/-- The total a call stores for `id`. `RecordSettlementIdem` also returns 0 on
line 56, without storing, when the batch is the remembered one. -/
def stored (id : String) (entry : Storage × Invocation) : ℕ :=
  match entry.2.call with
  | .recordSettlement node total _ =>
    if node = id ∧ answer entry.1 entry.2 = some 0 then total.toNat else 0
  | .recordSettlementIdem node total _ batchID =>
    if node = id ∧ answer entry.1 entry.2 = some 0 ∧
        entry.1 (nodeKey id .lastbatch) ≠ some (.string batchID) then total.toNat
    else 0
  | _ => 0

/-- What a call does to the two balances of one node, with the side condition
that makes each stored machine operation the exact one. -/
structure ExactStep (id : String) (s : Storage) (inv : Invocation) : Prop where
  bond : uintAt (afterInvoke s inv) (nodeKey id .bond) + withdrawn id (s, inv) =
    uintAt s (nodeKey id .bond) + deposited id (s, inv)
  covered : withdrawn id (s, inv) ≤ uintAt s (nodeKey id .bond)
  bondFits : uintAt s (nodeKey id .bond) + deposited id (s, inv) < 2 ^ 64
  settled : uintAt (afterInvoke s inv) (nodeKey id .settled) =
    uintAt s (nodeKey id .settled) + stored id (s, inv)
  settledFits : uintAt s (nodeKey id .settled) + stored id (s, inv) < 2 ^ 64

/-- The same five facts about the registry, where a call has the effect `d`,
`w` and `t` on the node's balances. -/
structure ExactRecords (before after : Option NodeRecord) (d w t : ℕ) : Prop where
  bond : after.elim 0 (·.bond.toNat) + w = before.elim 0 (·.bond.toNat) + d
  covered : w ≤ before.elim 0 (·.bond.toNat)
  bondFits : before.elim 0 (·.bond.toNat) + d < 2 ^ 64
  settled : after.elim 0 (·.settled.toNat) = before.elim 0 (·.settled.toNat) + t
  settledFits : before.elim 0 (·.settled.toNat) + t < 2 ^ 64

theorem exactRecords_same {before after : Option NodeRecord}
    (bond : after.elim 0 (·.bond.toNat) = before.elim 0 (·.bond.toNat))
    (settled : after.elim 0 (·.settled.toNat) = before.elim 0 (·.settled.toNat)) :
    ExactRecords before after 0 0 0 := by
  have boundBond : before.elim 0 (·.bond.toNat) < 2 ^ 64 := by
    cases before with
    | none => decide
    | some n => exact n.bond.toNat_lt
  have boundSettled : before.elim 0 (·.settled.toNat) < 2 ^ 64 := by
    cases before with
    | none => decide
    | some n => exact n.settled.toNat_lt
  exact ⟨by omega, by omega, by omega, by omega, by omega⟩

variable {n : NodeRecord}

theorem exactRecords_deposit {amount : UInt64} (fits : n.bond.toNat + amount.toNat < 2 ^ 64) :
    ExactRecords (some n) (some { n with bond := n.bond + amount }) amount.toNat 0 0 := by
  have sum := Word.toNat_add_of_fits fits
  have settledBound := n.settled.toNat_lt
  constructor <;> simp only [Option.elim_some] <;> omega

theorem exactRecords_withdraw {amount : UInt64} (covered : amount.toNat ≤ n.bond.toNat) :
    ExactRecords (some n) (some { n with bond := n.bond - amount }) 0 amount.toNat 0 := by
  have difference := UInt64.toNat_sub_of_le n.bond amount (UInt64.le_iff_toNat_le.mpr covered)
  have bondBound := n.bond.toNat_lt
  have settledBound := n.settled.toNat_lt
  constructor <;> simp only [Option.elim_some] <;> omega

/-- Whatever else a settlement sets, it adds the total and leaves the bond. -/
theorem exactRecords_settle {n' : NodeRecord} {total : UInt64}
    (fits : n.settled.toNat + total.toNat < 2 ^ 64) (settled : n'.settled = n.settled + total)
    (bond : n'.bond = n.bond) : ExactRecords (some n) (some n') 0 0 total.toNat := by
  have sum := Word.toNat_add_of_fits fits
  have bondBound := n.bond.toNat_lt
  constructor <;> simp only [Option.elim_some, settled, bond] <;> omega

variable {s : Storage} {r : Registry}

theorem exactStep_of_records (h : Represents s r) (inv : Invocation) (id : String)
    (records : ExactRecords (r.nodes id) ((r.after inv).nodes id)
      (deposited id (s, inv)) (withdrawn id (s, inv)) (stored id (s, inv))) :
    ExactStep id s inv := by
  have after := afterInvoke_represents h inv
  constructor
  · rw [after.uintAt_bond, h.uintAt_bond]
    exact records.bond
  · rw [h.uintAt_bond]
    exact records.covered
  · rw [h.uintAt_bond]
    exact records.bondFits
  · rw [after.uintAt_settled, h.uintAt_settled]
    exact records.settled
  · rw [h.uintAt_settled]
    exact records.settledFits

/-- A call that names another node, or a refused call, has no effect on `id`. -/
theorem no_effect {inv : Invocation} (id : String)
    (none : inv.call.nodeID ≠ some id ∨ answer s inv = some 1) :
    deposited id (s, inv) = 0 ∧ withdrawn id (s, inv) = 0 ∧ stored id (s, inv) = 0 := by
  have notBoth : ∀ node, inv.call.nodeID = some node → ¬ (node = id ∧ answer s inv = some 0) := by
    rintro node named ⟨rfl, ok⟩
    rcases none with other | refused
    · exact other named
    · rw [ok] at refused
      exact absurd refused (by decide)
  obtain ⟨signer, call⟩ := inv
  cases call <;> simp only [deposited, withdrawn, stored, and_self, true_and]
  case depositBond node amount => simp [if_neg (notBoth node rfl)]
  case withdrawBond node amount => simp [if_neg (notBoth node rfl)]
  case recordSettlement node total count => simp [if_neg (notBoth node rfl)]
  case recordSettlementIdem node total count batchID =>
    exact if_neg fun all => notBoth node rfl ⟨all.1, all.2.1⟩

/-- A guarded entrypoint on `id`: refused, it has no effect; accepted, its
effect is that of the record change. -/
theorem exactRecords_of_change (h : Represents s r) (inv : Invocation)
    (id : String) (f : NodeRecord → Option NodeRecord) (change : r.apply inv = r.change id f)
    (accepted : ∀ n n', r.nodes id = some n → f n = some n' → answer s inv = some 0 →
      ExactRecords (some n) (some n')
        (deposited id (s, inv)) (withdrawn id (s, inv)) (stored id (s, inv))) :
    ExactRecords (r.nodes id) ((r.after inv).nodes id)
      (deposited id (s, inv)) (withdrawn id (s, inv)) (stored id (s, inv)) := by
  have returned := h.answer inv
  rcases change_cases r id f with same | ⟨n, n', registered, outcome, changed⟩
  · rw [change, same] at returned
    obtain ⟨d, w, t⟩ := no_effect id (.inr returned)
    rw [d, w, t, Registry.after, change, same]
    exact exactRecords_same rfl rfl
  · rw [change, changed] at returned
    rw [Registry.after, change, changed, Registry.setNode_nodes, registered]
    exact accepted n n' registered outcome returned

theorem exactStep (h : Represents s r) (inv : Invocation) (id : String) : ExactStep id s inv := by
  apply exactStep_of_records h
  by_cases named : inv.call.nodeID = some id
  · obtain ⟨signer, call⟩ := inv
    cases call with
    | initialize_ => cases named
    | getPrice | getStatus | getBond => exact exactRecords_same rfl rfl
    | registerNode =>
      cases named
      apply exactRecords_same
      all_goals
        simp only [Registry.after, Registry.apply]
        split
        · rfl
        · next unknown => simp [unknown]
    | updateNode | setPrice | disableNode =>
      cases named
      refine exactRecords_of_change h _ _ _ rfl fun n n' _ outcome _ => ?_
      obtain ⟨_, rfl⟩ := of_guard outcome
      exact exactRecords_same rfl rfl
    | depositBond node amount =>
      cases named
      refine exactRecords_of_change h _ _ _ rfl fun n n' _ outcome returned => ?_
      obtain ⟨⟨_, _, fits⟩, rfl⟩ := of_guard outcome
      simp only [deposited, withdrawn, stored, returned, and_self, ↓reduceIte]
      exact exactRecords_deposit fits
    | withdrawBond node amount =>
      cases named
      refine exactRecords_of_change h _ _ _ rfl fun n n' _ outcome returned => ?_
      obtain ⟨⟨_, _, covered⟩, rfl⟩ := of_guard outcome
      simp only [deposited, withdrawn, stored, returned, and_self, ↓reduceIte]
      exact exactRecords_withdraw covered
    | recordSettlement node total count =>
      cases named
      refine exactRecords_of_change h _ _ _ rfl fun n n' _ outcome returned => ?_
      obtain ⟨⟨_, _, fits⟩, rfl⟩ := of_guard outcome
      simp only [deposited, withdrawn, stored, returned, and_self, ↓reduceIte]
      exact exactRecords_settle fits rfl rfl
    | recordSettlementIdem node total count batchID =>
      cases named
      refine exactRecords_of_change h _ _ _ rfl fun n n' registered outcome returned => ?_
      have remembered : s (nodeKey id .lastbatch) = n.lastbatch.map .string :=
        h.field registered .lastbatch
      simp only [Option.ite_none_right_eq_some] at outcome
      obtain ⟨_, outcome⟩ := outcome
      split at outcome
      · next repeated =>
        obtain rfl := Option.some.inj outcome
        simp only [deposited, withdrawn, stored, returned, remembered, repeated, Option.map_some,
          ne_eq, not_true_eq_false, and_false, ↓reduceIte]
        exact exactRecords_same rfl rfl
      · next fresh =>
        obtain ⟨fits, rfl⟩ := of_guard outcome
        have notRemembered : n.lastbatch.map Value.string ≠ some (.string batchID) := by
          simpa using fresh
        simp only [deposited, withdrawn, stored, returned, remembered, ne_eq, notRemembered,
          not_false_eq_true, and_self, ↓reduceIte]
        exact exactRecords_settle fits rfl rfl
  · obtain ⟨d, w, t⟩ := no_effect (s := s) id (.inl named)
    rw [d, w, t, after_other r inv id named]
    exact exactRecords_same rfl rfl

/-- Along every history since deployment: the bond is the successful deposits less the successful
withdrawals, the settled total the sum of the stored totals, both fit 64 bits, and nothing stored
came from an operation that wrapped. -/
theorem balances_exact (installer : String) (history : List Invocation) (id : String) :
    let s := Run.run afterInvoke (deployed installer) history
    let calls := Run.trace afterInvoke (deployed installer) history
    uintAt s (nodeKey id .bond) = (calls.map (deposited id)).sum - (calls.map (withdrawn id)).sum ∧
    (calls.map (withdrawn id)).sum ≤ (calls.map (deposited id)).sum ∧
    uintAt s (nodeKey id .settled) = (calls.map (stored id)).sum ∧
    uintAt s (nodeKey id .bond) < 2 ^ 64 ∧ uintAt s (nodeKey id .settled) < 2 ^ 64 ∧
    ∀ call ∈ calls,
      uintAt call.1 (nodeKey id .bond) + deposited id call < 2 ^ 64 ∧
      withdrawn id call ≤ uintAt call.1 (nodeKey id .bond) ∧
      uintAt call.1 (nodeKey id .settled) + stored id call < 2 ^ 64 := by
  have reached : ∀ prior, Represents (Run.run afterInvoke (deployed installer) prior)
      (Run.run Registry.after (Registry.deployed installer) prior) :=
    run_represents (deployed_represents installer)
  have empty : ∀ field, deployed installer (nodeKey id field) = none :=
    fun field => (deployed_represents installer).missing rfl field
  -- The two sums move together with the two stored numbers, call by call.
  have sums : uintAt (Run.run afterInvoke (deployed installer) history) (nodeKey id .bond) +
        ((Run.trace afterInvoke (deployed installer) history).map (withdrawn id)).sum =
        ((Run.trace afterInvoke (deployed installer) history).map (deposited id)).sum ∧
      uintAt (Run.run afterInvoke (deployed installer) history) (nodeKey id .settled) =
        ((Run.trace afterInvoke (deployed installer) history).map (stored id)).sum := by
    induction history using List.reverseRecOn with
    | nil => simp [Run.trace, uintAt, empty]
    | append_singleton prior inv ih =>
      have step := exactStep (reached prior) inv id
      have bond := step.bond
      have settled := step.settled
      simp only [Run.run_snoc, Run.trace_snoc, List.map_append, List.sum_append, List.map_cons,
        List.map_nil, List.sum_cons, List.sum_nil]
      omega
  refine ⟨by omega, by omega, sums.2, uintAt_lt _ _, uintAt_lt _ _, ?_⟩
  rintro ⟨t, inv⟩ member
  obtain ⟨prior, _, _, rfl⟩ := Run.mem_trace member
  have step := exactStep (reached prior) inv id
  exact ⟨step.bondFits, step.covered, step.settledFits⟩

end VeilNet.Guarantees.ContractBalances
