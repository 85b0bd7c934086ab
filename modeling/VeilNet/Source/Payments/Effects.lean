import VeilNet.Source.Payments.Service
import VeilNet.Lib.Run

/-!
What each operation of the prepaid service does to the service: one lemma per
function, read off its successful executions.
-/
namespace VeilNet.Source.Payments
open Lib Lib.Outcome

section authorize
variable {F : Type} [GoFloat F] {opts : Options F} {now : Time} {draw : Tokens.Draw}
  {s : Service F} {nodeID operatorAddr sessionID : String} {deposit price : F} {p : Prepaid F}

theorem newPrepaid_ok (h : newPrepaid now sessionID nodeID deposit price = .ok p) :
    p.depositAtomic = toAtomic deposit ∧ 0 < p.depositAtomic ∧ p.spentAtomic = 0 := by
  unfold newPrepaid at h
  split at h
  · cases h
  · split at h
    · cases h
    · next positive =>
      split at h
      · cases h
      · obtain rfl := Except.ok.inj h
        exact ⟨rfl, Int64.not_le.mp positive, rfl⟩

theorem approve_ok {payload : ApprovalPayload F}
    (h : approve opts now nodeID operatorAddr sessionID deposit = .ok (payload, p)) :
    p.depositAtomic = toAtomic deposit ∧ 0 < p.depositAtomic ∧ p.spentAtomic = 0 := by
  unfold approve at h
  obtain ⟨⟨price, endpoint⟩, _, h⟩ := of_bind_ok h
  obtain ⟨_, _, h⟩ := of_bind_ok h
  obtain ⟨balance, _, h⟩ := of_bind_ok h
  obtain ⟨_, _, h⟩ := of_bind_ok h
  obtain ⟨credit, made, h⟩ := of_bind_ok h
  obtain ⟨_, rfl⟩ := Prod.mk.inj (Except.ok.inj h)
  exact newPrepaid_ok made

omit [GoFloat F] in
/-- A funded credit comes with a transfer of the whole deposit, if there is a wallet. -/
theorem fund_ok {txid : String} {transfer : Option (String × UInt64)}
    (h : fund opts operatorAddr p = .ok (txid, transfer)) :
    transfer = opts.wallet.map fun _ => (operatorAddr, p.depositAtomic.toUInt64) := by
  unfold fund at h
  split at h
  · next unattached =>
    rw [unattached, (Prod.mk.inj (Except.ok.inj h)).2.symm]
    rfl
  · next w attached =>
    obtain ⟨_, _, h⟩ := of_bind_ok h
    obtain ⟨_, _, h⟩ := of_bind_ok h
    rw [attached, (Prod.mk.inj (Except.ok.inj h)).2.symm]
    rfl

/-- `Authorize` stops before the wallet is asked to submit or the submit fails; or
the deposit is funded, and then the token is minted and the credit entered, or
`Mint` refuses. -/
theorem authorize_cases (opts : Options F) (now : Time) (draw : Tokens.Draw) (s : Service F)
    (nodeID operatorAddr sessionID : String) (deposit : F) :
    (∃ e, authorize opts now draw s nodeID operatorAddr sessionID deposit = ⟨.error e, s, none⟩ ∧
      ∀ payload credit funded,
        approve opts now nodeID operatorAddr sessionID deposit = .ok (payload, credit) →
          fund opts operatorAddr credit ≠ .ok funded) ∨
    ∃ payload credit txid transfer,
      approve opts now nodeID operatorAddr sessionID deposit = .ok (payload, credit) ∧
      fund opts operatorAddr credit = .ok (txid, transfer) ∧
      ((∃ e, Tokens.mint now draw s.issuer nodeID sessionID (tokenTTL payload.estHours)
            Tokens.scopeExit = (.error e, s.issuer) ∧
          authorize opts now draw s nodeID operatorAddr sessionID deposit =
            ⟨.error (.token e), s, transfer⟩) ∨
        ∃ token issuer, Tokens.mint now draw s.issuer nodeID sessionID
            (tokenTTL payload.estHours) Tokens.scopeExit = (.ok token, issuer) ∧
          authorize opts now draw s nodeID operatorAddr sessionID deposit =
            ⟨.ok ⟨payload, { credit with fundingTXID := txid }, token⟩,
              { s with
                issuer
                prepaid := s.prepaid.insert sessionID { credit with fundingTXID := txid } },
              transfer⟩) := by
  unfold authorize
  cases approved : approve opts now nodeID operatorAddr sessionID deposit with
  | error e => exact .inl ⟨e, rfl, fun _ _ _ ok => by cases ok⟩
  | ok pair =>
    obtain ⟨payload, credit⟩ := pair
    dsimp only
    cases funded : fund opts operatorAddr credit with
    | error e =>
      refine .inl ⟨e, rfl, fun payload' credit' value ok paid => ?_⟩
      obtain ⟨rfl, rfl⟩ := Prod.mk.inj (Except.ok.inj ok)
      rw [funded] at paid
      cases paid
    | ok out =>
      obtain ⟨txid, transfer⟩ := out
      refine .inr ⟨payload, credit, txid, transfer, rfl, funded, ?_⟩
      dsimp only
      rcases minted : Tokens.mint now draw s.issuer nodeID sessionID (tokenTTL payload.estHours)
        Tokens.scopeExit with ⟨e | token, issuer⟩
      · obtain rfl := Tokens.mint_error minted
        exact .inl ⟨e, rfl, rfl⟩
      · exact .inr ⟨token, issuer, rfl, rfl⟩

/-- `Authorize` touches the credits only by granting a fresh one for its session,
and the receipts and settlements not at all. -/
theorem authorize_effect (out : Authorized F)
    (h : authorize opts now draw s nodeID operatorAddr sessionID deposit = out) :
    out.service.receipts = s.receipts ∧ out.service.settled = s.settled ∧
    match out.result with
    | .error _ => out.service.prepaid = s.prepaid
    | .ok grant => out.service.prepaid = s.prepaid.insert sessionID grant.credit ∧
        0 < grant.credit.depositAtomic ∧ grant.credit.spentAtomic = 0 := by
  rcases authorize_cases opts now draw s nodeID operatorAddr sessionID deposit with
    ⟨e, stopped, _⟩ | ⟨payload, credit, txid, transfer, approved, _,
      ⟨e, _, refused⟩ | ⟨token, issuer, _, granted⟩⟩
  · rw [stopped] at h
    subst h
    exact ⟨rfl, rfl, rfl⟩
  · rw [refused] at h
    subst h
    exact ⟨rfl, rfl, rfl⟩
  · obtain ⟨_, positive, unspent⟩ := approve_ok approved
    rw [granted] at h
    subst h
    exact ⟨rfl, rfl, rfl, positive, unspent⟩

end authorize

section receipts
variable {F : Type} {verify : List UInt8 → String → List UInt8 → Bool} {order : RangeOrder}
  {s next : Service F} {r : Receipt}

/-- An accepted receipt is new, its amount is not negative, it passed the credit
check, and it is stored as it came. -/
theorem recordReceipt_ok (h : recordReceipt verify order s r = .ok next) :
    next = { s with receipts := s.receipts.insert r.id r } ∧ 0 ≤ r.amount ∧
      s.receipts.lookup r.id = none ∧ checkCredit order s r = .ok () := by
  unfold recordReceipt at h
  obtain ⟨_, _, h⟩ := of_bind_ok h
  obtain ⟨_, _, h⟩ := of_bind_ok h
  obtain ⟨_, nonneg, h⟩ := of_bind_ok h
  obtain ⟨_, fresh, h⟩ := of_bind_ok h
  obtain ⟨_, credit, h⟩ := of_bind_ok h
  exact ⟨(Except.ok.inj h).symm, Int64.not_lt.mp (of_refuseIf_ok nonneg),
    by simpa using of_refuseIf_ok fresh, credit⟩

theorem afterReceipt_cases (verify : List UInt8 → String → List UInt8 → Bool) (order : RangeOrder)
    (s : Service F) (r : Receipt) :
    (afterReceipt verify order s r = s ∧ ∀ next, recordReceipt verify order s r ≠ .ok next) ∨
    recordReceipt verify order s r = .ok (afterReceipt verify order s r) := by
  unfold afterReceipt
  cases outcome : recordReceipt verify order s r with
  | error e => exact .inl ⟨rfl, by simp⟩
  | ok next => exact .inr rfl

theorem checkCredit_ok {p : Prepaid F} (known : s.prepaid.lookup r.sessionID = some p)
    (h : checkCredit order s r = .ok ()) :
    ∃ pending, pendingTotal r.id r.sessionID 0 (order.visit (GoMap.values s.receipts)) =
      .ok pending ∧ r.amount ≤ p.remainingAtomic - pending := by
  unfold checkCredit at h
  rw [known] at h
  obtain ⟨pending, counted, h⟩ := of_bind_ok h
  exact ⟨pending, counted, Int64.not_lt.mp (of_refuseIf_ok h)⟩

end receipts

section amounts

/-- The amount of a receipt, when it belongs to the session. -/
def amountFor (sid : String) (r : Receipt) : ℤ :=
  if r.sessionID = sid then r.amount.toInt else 0

theorem toInt_nonneg {a : Int64} (h : 0 ≤ a) : 0 ≤ a.toInt := Int64.le_iff_toInt_le.mp h

theorem amountFor_nonneg {r : Receipt} (h : 0 ≤ r.amount) (sid : String) : 0 ≤ amountFor sid r := by
  have := toInt_nonneg h
  unfold amountFor
  split <;> omega

theorem sum_nonneg {f : Receipt → ℤ} {l : List Receipt} (h : ∀ r ∈ l, 0 ≤ f r) :
    0 ≤ (l.map f).sum :=
  List.sum_nonneg fun z member => by
    obtain ⟨r, inList, rfl⟩ := List.mem_map.mp member
    exact h r inList

end amounts

section batches
variable {F : Type} {order : RangeOrder} {s : Service F} {nodeID : String}

/-- Each stored receipt lies under its own ID. -/
def WellKeyed (receipts : GoMap String Receipt) : Prop :=
  ∀ id r, receipts.lookup id = some r → r.id = id

variable {receipts : GoMap String Receipt}

theorem WellKeyed.insert (h : WellKeyed receipts) (r : Receipt) :
    WellKeyed (receipts.insert r.id r) := by
  intro id stored found
  rcases GoMap.lookup_insert_cases found with ⟨rfl, rfl⟩ | ⟨_, old⟩
  · rfl
  · exact h id stored old

/-- What `RecordReceipt` sees to: each stored receipt lies under its own ID, and its
amount is not negative. -/
structure WellStored (s : Service F) : Prop where
  keyed : WellKeyed s.receipts
  nonneg : ∀ r ∈ GoMap.values s.receipts, 0 ≤ r.amount

theorem WellStored.newService (issuer : Tokens.Issuer) :
    WellStored (Payments.newService F issuer) := by
  constructor <;> simp [Payments.newService, WellKeyed, GoMap.values]

variable {r : Receipt} {next : Service F}

theorem WellStored.receipt (h : WellStored s) {verify : List UInt8 → String → List UInt8 → Bool}
    (accepted : recordReceipt verify order s r = .ok next) :
    WellStored next := by
  obtain ⟨rfl, nonneg, _, _⟩ := recordReceipt_ok accepted
  refine ⟨h.keyed.insert r, fun stored member => ?_⟩
  obtain ⟨id, found⟩ := GoMap.mem_values.mp member
  rcases GoMap.lookup_insert_cases found with ⟨_, rfl⟩ | ⟨_, old⟩
  · exact nonneg
  · exact h.nonneg stored (GoMap.mem_values.mpr ⟨id, old⟩)

theorem mem_unsettled (h : WellKeyed s.receipts) : r ∈ unsettled order s nodeID ↔
      s.receipts.lookup r.id = some r ∧ r.nodeID = nodeID ∧ r.settled = false := by
  simp only [unsettled, List.mem_filter, RangeOrder.mem_visit, GoMap.mem_values,
    Bool.and_eq_true, decide_eq_true_eq, Bool.not_eq_eq_eq_not, Bool.not_true]
  constructor
  · rintro ⟨⟨k, found⟩, rest⟩
    rw [h k r found]
    exact ⟨found, rest⟩
  · rintro ⟨found, rest⟩
    exact ⟨⟨r.id, found⟩, rest⟩

theorem nodup_unsettled (h : WellKeyed s.receipts) :
    ((unsettled order s nodeID).map (·.id)).Nodup := by
  have all : ((order.visit (GoMap.values s.receipts)).map (·.id)).Nodup := by
    rw [((order.perm (GoMap.values s.receipts)).map _).nodup_iff, GoMap.map_key_values h]
    exact s.receipts.nodupKeys
  exact all.sublist (List.filter_sublist.map _)

variable {batch : List Receipt}

theorem batchTotal_ok {total result : Int64} (h : batchTotal nodeID total batch = .ok result) :
    result.toInt = total.toInt + (batch.map (·.amount.toInt)).sum ∧ ∀ r ∈ batch, 0 ≤ r.amount := by
  induction batch generalizing total with
  | nil =>
    obtain rfl := Except.ok.inj h
    simp
  | cons r rest ih =>
    unfold batchTotal at h
    split at h
    · cases h
    · next nonneg =>
      have nonneg : 0 ≤ r.amount := Int64.not_lt.mp nonneg
      split at h
      · cases h
      · next noOverflow =>
        obtain ⟨exact, tail⟩ := ih h
        have fits : Word.Fits64 (total.toInt + r.amount.toInt) :=
          (Word.fits64_add_iff nonneg).mpr noOverflow
        rw [Word.toInt_add_of_fits fits] at exact
        refine ⟨?_, ?_⟩
        · rw [exact, List.map_cons, List.sum_cons]
          omega
        · intro r' member
          rcases List.mem_cons.mp member with rfl | member
          · exact nonneg
          · exact tail r' member

/-- The aggregation of amounts that are not negative fails exactly when the total
does not fit. -/
theorem batchTotal_ok_iff {total : Int64} (start : 0 ≤ total) (nonneg : ∀ r ∈ batch, 0 ≤ r.amount) :
    (∃ result, batchTotal nodeID total batch = .ok result) ↔
      total.toInt + (batch.map (·.amount.toInt)).sum < 2 ^ 63 := by
  constructor
  · rintro ⟨result, ok⟩
    rw [← (batchTotal_ok ok).1]
    exact result.toInt_lt
  · intro room
    induction batch generalizing total with
    | nil => exact ⟨total, rfl⟩
    | cons r rest ih =>
      have here : 0 ≤ r.amount := nonneg r List.mem_cons_self
      have later : ∀ r ∈ rest, 0 ≤ r.amount := fun r m => nonneg r (List.mem_cons_of_mem _ m)
      have tail := sum_nonneg fun r m => toInt_nonneg (later r m)
      have low := toInt_nonneg start
      have amountLow := toInt_nonneg here
      rw [List.map_cons, List.sum_cons] at room
      have fits : Word.Fits64 (total.toInt + r.amount.toInt) := ⟨by omega, by omega⟩
      have noOverflow : ¬ total > Int64.maxValue - r.amount := (Word.fits64_add_iff here).mp fits
      have sum := Word.toInt_add_of_fits fits
      unfold batchTotal
      rw [if_neg (Int64.not_lt.mpr here), if_neg noOverflow]
      refine ih ?_ later ?_
      · rw [Int64.le_iff_toInt_le, sum]
        exact Int.add_nonneg low amountLow
      · rw [sum]
        omega

theorem stored_ids (stored : ∀ r ∈ batch, receipts.lookup r.id = some r) :
    ∀ id ∈ batch.map (·.id), (receipts.lookup id).isSome := by
  intro id member
  obtain ⟨r, inBatch, rfl⟩ := List.mem_map.mp member
  rw [stored r inBatch]
  rfl

/-- What a prepared settlement says of its batch. -/
structure Prepared (sha256 : String → List UInt8) (nodeID : String) (batch : List Receipt)
    (st : Settlement) : Prop where
  nonempty : batch ≠ []
  id : st.id = batchIDFor sha256 (batch.map (·.id))
  nodeID : st.nodeID = nodeID
  receiptIDs : st.receiptIDs = batch.map (·.id)
  amounts : ∀ r ∈ batch, 0 ≤ r.amount
  nonneg : 0 ≤ st.total
  total : st.total.toInt = (batch.map (·.amount.toInt)).sum

variable {sha256 : String → List UInt8} {now : Time} {st : Settlement}

theorem prepareSettlement_ok (h : prepareSettlement sha256 now nodeID batch = .ok st) :
    Prepared sha256 nodeID batch st := by
  unfold prepareSettlement at h
  obtain ⟨_, nonempty, h⟩ := of_bind_ok h
  obtain ⟨total, counted, h⟩ := of_bind_ok h
  obtain ⟨_, nonneg, h⟩ := of_bind_ok h
  obtain rfl := Except.ok.inj h
  obtain ⟨exact, amounts⟩ := batchTotal_ok counted
  exact
    { nonempty := of_refuseIf_ok nonempty
      id := rfl
      nodeID := rfl
      receiptIDs := rfl
      amounts
      nonneg := Int64.not_lt.mp (of_refuseIf_ok nonneg)
      total := by simpa using exact }

/-- For amounts that are not negative, `RecordSettlement` gets to the submit exactly
when its batch has a receipt and its total fits. -/
theorem prepareSettlement_ok_iff (nonneg : ∀ r ∈ batch, 0 ≤ r.amount) :
    (∃ st, prepareSettlement sha256 now nodeID batch = .ok st) ↔
      batch ≠ [] ∧ (batch.map (·.amount.toInt)).sum < 2 ^ 63 := by
  have fits : (∃ total, batchTotal nodeID 0 batch = .ok total) ↔ _ :=
    batchTotal_ok_iff (Int64.le_refl 0) nonneg
  rw [show (0 : Int64).toInt = 0 from rfl, zero_add] at fits
  constructor
  · rintro ⟨st, ok⟩
    have prepared := prepareSettlement_ok ok
    refine ⟨prepared.nonempty, ?_⟩
    rw [← prepared.total]
    exact st.total.toInt_lt
  · rintro ⟨nonempty, room⟩
    obtain ⟨total, counted⟩ := fits.mpr room
    have positive : ¬ total < 0 := by
      rw [Int64.lt_iff_toInt_lt, (batchTotal_ok counted).1]
      have sum := sum_nonneg fun r m => toInt_nonneg (nonneg r m)
      exact not_lt.mpr (by simpa using sum)
    simp only [prepareSettlement, bind_ok_iff, refuseIf_ok_iff]
    exact ⟨_, (), nonempty, total, counted, (), positive, rfl⟩

/-- `RecordSettlement` either changes nothing or commits its whole batch. -/
theorem recordSettlement_cases (sha256 : String → List UInt8) (opts : Options F) (now : Time)
    (order : RangeOrder) (s : Service F) (nodeID : String) :
    (recordSettlement sha256 opts now order s nodeID).2 = s ∨
    ∃ st, Prepared sha256 nodeID (unsettled order s nodeID) st ∧
      (recordSettlement sha256 opts now order s nodeID).2 =
        commitSettlement st (unsettled order s nodeID) s := by
  unfold recordSettlement
  dsimp only
  split
  · exact .inl rfl
  · next st prepared =>
    split
    · exact .inl rfl
    · next txid _ =>
      have h := prepareSettlement_ok prepared
      exact .inr ⟨{ st with txid }, ⟨h.nonempty, h.id, h.nodeID, h.receiptIDs, h.amounts, h.nonneg,
        h.total⟩, rfl⟩

/-- A successful `RecordSettlement` has committed its whole batch. -/
theorem recordSettlement_ok {opts : Options F}
    (h : recordSettlement sha256 opts now order s nodeID = (.ok st, next)) :
    Prepared sha256 nodeID (unsettled order s nodeID) st ∧
      next = commitSettlement st (unsettled order s nodeID) s := by
  unfold recordSettlement at h
  dsimp only at h
  split at h
  · cases h
  · next prepared =>
    have content := prepareSettlement_ok prepared
    split at h
    · cases h
    · obtain ⟨ok, rfl⟩ := Prod.mk.inj h
      obtain rfl := Except.ok.inj ok
      exact ⟨⟨content.nonempty, content.id, content.nodeID, content.receiptIDs, content.amounts,
        content.nonneg, content.total⟩, rfl⟩

theorem submittedInvoke_some {opts : Options F}
    {inv : Invoke} (h : submittedInvoke sha256 opts now order s nodeID = some inv) :
    ∃ st, Prepared sha256 nodeID (unsettled order s nodeID) st ∧
      inv = st.invoke opts.scid (unsettled order s nodeID).length := by
  unfold submittedInvoke at h
  dsimp only at h
  split at h
  · next prepared _ =>
    split at h
    · exact ⟨_, prepareSettlement_ok prepared, (Option.some.inj h).symm⟩
    · cases h
  · cases h

theorem lookup_markSettled (receipts : GoMap String Receipt) (ids : List String) (id : String) :
    (ids.foldl markSettled receipts).lookup id =
      if id ∈ ids then some { (receipts.lookup id).getD Receipt.zero with settled := true }
      else receipts.lookup id := by
  induction ids generalizing receipts with
  | nil => rfl
  | cons head rest ih =>
    rw [List.foldl_cons, ih]
    unfold markSettled
    by_cases same : id = head
    · subst same
      simp
    · simp [same]

variable {ids : List String}

/-- Marking stored receipts changes their flags and nothing else. -/
theorem lookup_markSettled_of_stored
    (stored : ∀ id ∈ ids, (receipts.lookup id).isSome) (id : String) :
    (ids.foldl markSettled receipts).lookup id =
      (receipts.lookup id).map fun r => { r with settled := r.settled || decide (id ∈ ids) } := by
  rw [lookup_markSettled]
  by_cases marked : id ∈ ids
  · obtain ⟨r, found⟩ := Option.isSome_iff_exists.mp (stored id marked)
    simp [marked, found]
  · simp [marked]

theorem WellKeyed.markSettled (h : WellKeyed receipts)
    (stored : ∀ id ∈ ids, (receipts.lookup id).isSome) :
    WellKeyed (ids.foldl markSettled receipts) := by
  intro id r found
  rw [lookup_markSettled_of_stored stored] at found
  obtain ⟨old, before, rfl⟩ := Option.map_eq_some_iff.mp found
  exact h id old before

theorem WellStored.markSettled (h : WellStored s)
    (stored : ∀ id ∈ ids, (s.receipts.lookup id).isSome)
    (receipts : next.receipts = ids.foldl Payments.markSettled s.receipts) : WellStored next := by
  constructor
  · rw [receipts]
    exact h.keyed.markSettled stored
  · intro r member
    obtain ⟨id, found⟩ := GoMap.mem_values.mp member
    rw [receipts, lookup_markSettled_of_stored stored] at found
    obtain ⟨old, before, rfl⟩ := Option.map_eq_some_iff.mp found
    exact h.nonneg old (GoMap.mem_values.mpr ⟨id, before⟩)

theorem WellStored.commit (h : WellStored s)
    (prepared : Prepared sha256 nodeID (unsettled order s nodeID) st) :
    WellStored (commitSettlement st (unsettled order s nodeID) s) := by
  refine h.markSettled ?_ rfl
  rw [prepared.receiptIDs]
  exact stored_ids fun r inBatch => ((mem_unsettled h.keyed).mp inBatch).1

/-- A committed batch takes the node's receipts out of the unsettled ones, and no other. -/
theorem mem_unsettled_commit (h : WellKeyed s.receipts)
    (prepared : Prepared sha256 nodeID (unsettled order s nodeID) st)
    {order' : RangeOrder} {other : String} :
    r ∈ unsettled order' (commitSettlement st (unsettled order s nodeID) s) other ↔
      r ∈ unsettled order' s other ∧ other ≠ nodeID := by
  have stored : ∀ id ∈ st.receiptIDs, (s.receipts.lookup id).isSome := by
    rw [prepared.receiptIDs]
    exact stored_ids fun r inBatch => ((mem_unsettled h).mp inBatch).1
  have keyed : WellKeyed (commitSettlement st (unsettled order s nodeID) s).receipts :=
    h.markSettled stored
  -- the marked IDs are those of the node's own unsettled receipts
  have marked : ∀ q, s.receipts.lookup q.id = some q → q.settled = false →
      (q.id ∈ st.receiptIDs ↔ q.nodeID = nodeID) := by
    intro q found unsettled
    rw [prepared.receiptIDs, List.mem_map]
    constructor
    · rintro ⟨member, inBatch, same⟩
      obtain ⟨foundMember, node, _⟩ := (mem_unsettled h).mp inBatch
      rw [same, found] at foundMember
      rw [Option.some.inj foundMember]
      exact node
    · intro node
      exact ⟨q, (mem_unsettled h).mpr ⟨found, node, unsettled⟩, rfl⟩
  rw [mem_unsettled keyed, mem_unsettled h, commitSettlement, lookup_markSettled_of_stored stored,
    Option.map_eq_some_iff]
  constructor
  · rintro ⟨⟨q, found, same⟩, node, due⟩
    obtain ⟨_, unmarked⟩ := Bool.or_eq_false_iff.mp ((congrArg Receipt.settled same).trans due)
    rw [unmarked, Bool.or_false] at same
    obtain rfl : q = r := same
    refine ⟨⟨found, node, due⟩, fun mine => ?_⟩
    exact absurd ((marked q found due).mpr (node.trans mine)) (by simpa using unmarked)
  · rintro ⟨⟨found, node, due⟩, others⟩
    have unmarked : r.id ∉ st.receiptIDs := fun member =>
      others (node.symm.trans ((marked r found due).mp member))
    exact ⟨⟨r, found, by simp [unmarked]⟩, node, due⟩

/-- Marking a batch of stored receipts moves a sum over the receipts by the
change of the batch's own receipts. -/
theorem sumBy_markSettled (f : Receipt → ℤ)
    (distinct : (batch.map (·.id)).Nodup) (stored : ∀ r ∈ batch, receipts.lookup r.id = some r) :
    GoMap.sumBy f ((batch.map (·.id)).foldl markSettled receipts) =
      GoMap.sumBy f receipts + (batch.map fun r => f { r with settled := true } - f r).sum := by
  induction batch generalizing receipts with
  | nil => simp
  | cons r rest ih =>
    obtain ⟨notLater, distinct⟩ := List.nodup_cons.mp distinct
    have here : receipts.lookup r.id = some r := stored r List.mem_cons_self
    have marked : markSettled receipts r.id = receipts.insert r.id { r with settled := true } := by
      unfold markSettled
      rw [here]
      rfl
    have later : ∀ r' ∈ rest, (markSettled receipts r.id).lookup r'.id = some r' := by
      intro r' member
      have other : r'.id ≠ r.id := fun same => notLater (List.mem_map.mpr ⟨r', member, same⟩)
      rw [marked, AList.lookup_insert_ne other]
      exact stored r' (List.mem_cons_of_mem _ member)
    have moved := GoMap.sumBy_insert_old f { r with settled := true } here
    rw [List.map_cons, List.foldl_cons, ih distinct later, marked, List.map_cons, List.sum_cons]
    omega

/-- A quantity of the receipt stored under an ID. -/
def valueAt (f : Receipt → ℤ) (receipts : GoMap String Receipt) (id : String) : ℤ :=
  ((receipts.lookup id).map f).getD 0

theorem lookup_insert_fresh {old : Receipt} {id : String}
    (fresh : receipts.lookup r.id = none) (stored : receipts.lookup id = some old) :
    (receipts.insert r.id r).lookup id = some old := by
  have other : id ≠ r.id := by
    rintro rfl
    rw [fresh] at stored
    cases stored
  rw [AList.lookup_insert_ne other, stored]

/-- Marking receipts keeps every quantity that does not read the flag. -/
theorem valueAt_markSettled {f : Receipt → ℤ}
    (flagless : ∀ r flag, f { r with settled := flag } = f r)
    (stored : ∀ id ∈ ids, (receipts.lookup id).isSome) (id : String) :
    valueAt f (ids.foldl markSettled receipts) id = valueAt f receipts id := by
  unfold valueAt
  rw [lookup_markSettled_of_stored stored]
  cases receipts.lookup id with
  | none => rfl
  | some r => exact flagless r _

theorem sum_valueAt (f : Receipt → ℤ) (stored : ∀ r ∈ batch, receipts.lookup r.id = some r) :
    ((batch.map (·.id)).map (valueAt f receipts)).sum = (batch.map f).sum := by
  rw [List.map_map]
  congr 1
  apply List.map_congr_left
  intro r member
  simp [valueAt, stored r member]

end batches

section spend
variable {F : Type}

theorem lookup_attributeSpend (prepaid : GoMap String (Prepaid F)) (r : Receipt)
    (sessionID : String) :
    (attributeSpend prepaid r).lookup sessionID =
      if r.sessionID = sessionID then (prepaid.lookup sessionID).map (·.attribute r.amount)
      else prepaid.lookup sessionID := by
  unfold attributeSpend
  by_cases same : r.sessionID = sessionID
  · subst same
    cases known : prepaid.lookup r.sessionID with
    | none => simp [known]
    | some p => simp
  · rw [if_neg same]
    cases prepaid.lookup r.sessionID with
    | none => rfl
    | some p => exact AList.lookup_insert_ne (Ne.symm same)

theorem lookup_attributed_none {sessionID : String}
    (none : prepaid.lookup sessionID = none) (batch : List Receipt) :
    (batch.foldl attributeSpend prepaid).lookup sessionID = .none := by
  induction batch generalizing prepaid with
  | nil => exact none
  | cons r rest ih =>
    apply ih
    rw [lookup_attributeSpend, none]
    simp

variable {prepaid : GoMap String (Prepaid F)}

theorem attribute_depositAtomic (p : Prepaid F) (amount : Int64) :
    (p.attribute amount).depositAtomic = p.depositAtomic := by
  unfold Prepaid.attribute
  split <;> rfl

/-- One attribution adds at most the amount, whichever branch it takes. -/
theorem attribute_le (p : Prepaid F) {amount : Int64} (nonneg : 0 ≤ amount) :
    (p.attribute amount).spentAtomic.toInt ≤ p.spentAtomic.toInt + amount.toInt := by
  have saturated : (p.saturated amount).toInt ≤ p.spentAtomic.toInt + amount.toInt := by
    unfold Prepaid.saturated
    split
    · next unsaturated =>
      rw [Word.toInt_add_of_fits ((Word.fits64_add_iff nonneg).mpr
        (Int64.not_lt.mpr unsaturated.2))]
    · next branch =>
      have overflow : Int64.maxValue - amount < p.spentAtomic :=
        Int64.not_le.mp fun le => branch ⟨nonneg, le⟩
      have := (Word.max_sub_lt_iff nonneg).mp overflow
      rw [Int64.toInt_maxValue]
      omega
  unfold Prepaid.attribute
  split
  · next capped =>
    have := Int64.lt_iff_toInt_lt.mp capped
    exact this.le.trans saturated
  · exact saturated

/-- The attribution loop adds at most the batch's amounts of each session. -/
theorem attributed_le {sid : String} {batch : List Receipt}
    {p : Prepaid F} (known : prepaid.lookup sid = some p) (nonneg : ∀ r ∈ batch, 0 ≤ r.amount) :
    ∃ p', (batch.foldl attributeSpend prepaid).lookup sid = some p' ∧
      p'.spentAtomic.toInt ≤ p.spentAtomic.toInt + (batch.map (amountFor sid)).sum := by
  induction batch generalizing prepaid p with
  | nil => exact ⟨p, known, by simp⟩
  | cons r rest ih =>
    have later : ∀ r ∈ rest, 0 ≤ r.amount := fun r m => nonneg r (List.mem_cons_of_mem _ m)
    have next := lookup_attributeSpend prepaid r sid
    rw [known] at next
    rw [List.foldl_cons, List.map_cons, List.sum_cons]
    by_cases mine : r.sessionID = sid
    · rw [if_pos mine] at next
      change _ = some (p.attribute r.amount) at next
      have amount : amountFor sid r = r.amount.toInt := if_pos mine
      obtain ⟨p', found, bound⟩ := ih next later
      have one := attribute_le p (nonneg r List.mem_cons_self)
      exact ⟨p', found, by omega⟩
    · rw [if_neg mine] at next
      have amount : amountFor sid r = 0 := if_neg mine
      obtain ⟨p', found, bound⟩ := ih next later
      exact ⟨p', found, by omega⟩

end spend

end VeilNet.Source.Payments
