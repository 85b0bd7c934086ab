import VeilNet.Source.Payments.Effects

/-!
# Prepaid accounting

For a session authorised once, before its first receipt, the spent amount is the sum of its
settled receipts and the deposit covers the rest, in every state of a run, exactly when no receipt
with an amount arrives with the flag `Settled` set: the flag is not signed, and no settlement
attributes such a receipt.
-/
namespace VeilNet.Guarantees.PrepaidAccounting
open Lib Source.Payments

inductive Op (F : Type) where
  | authorize (opts : Options F) (now : Time) (draw : Source.Tokens.Draw)
      (nodeID operatorAddr sessionID : String) (deposit : F)
  | receipt (order : RangeOrder) (r : Receipt)
  | settle (opts : Options F) (now : Time) (order : RangeOrder) (nodeID : String)

/-- The amount of a receipt, when it belongs to the session and its flag is `settled`. -/
def share (sid : String) (settled : Bool) (r : Receipt) : ℤ :=
  if r.sessionID = sid ∧ r.settled = settled then r.amount.toInt else 0

theorem share_nonneg {r : Receipt} (h : 0 ≤ r.amount) (sid : String) (settled : Bool) :
    0 ≤ share sid settled r := by
  have := toInt_nonneg h
  unfold share
  split <;> omega

section definitions
variable {F : Type}

def settledSum (s : Service F) (sid : String) : ℤ := GoMap.sumBy (share sid true) s.receipts

def pendingSum (s : Service F) (sid : String) : ℤ := GoMap.sumBy (share sid false) s.receipts

/-- Neither the saturating branch nor the cap is taken. -/
structure Plain (p : Prepaid F) (amount : Int64) : Prop where
  unsaturated : 0 ≤ amount ∧ p.spentAtomic ≤ Int64.maxValue - amount
  uncapped : ¬ p.saturated amount > p.depositAtomic

/-- One turn of the attribution loop is plain, as far as it concerns the session. -/
def PlainFor (sid : String) (prepaid : GoMap String (Prepaid F)) (r : Receipt) : Prop :=
  r.sessionID = sid → ∀ p, prepaid.lookup sid = some p → Plain p r.amount

/-- No turn of the loop over the stored receipts wraps, neither in its overflow
test nor in its addition. -/
def ExactPending (sid : String) : Int64 → List Receipt → Prop
  | _, [] => True
  | pending, e :: rest =>
    if e.sessionID = sid ∧ e.settled = false then
      Word.Fits64 (Int64.maxValue.toInt - e.amount.toInt) ∧
      Word.Fits64 (pending.toInt + e.amount.toInt) ∧ ExactPending sid (pending + e.amount) rest
    else ExactPending sid pending rest

/-- No arithmetic of the credit check in `RecordReceipt` wraps. -/
structure NoWrap (s : Service F) (sid : String) (p : Prepaid F) (order : RangeOrder) : Prop where
  pending : ExactPending sid 0 (order.visit (GoMap.values s.receipts))
  remaining : Word.Fits64 (p.depositAtomic.toInt - p.spentAtomic.toInt)
  left : ∀ id pending,
    pendingTotal id sid 0 (order.visit (GoMap.values s.receipts)) = .ok pending →
      Word.Fits64 (p.remainingAtomic.toInt - pending.toInt)

/-- The ledger equation of one credit. -/
structure Balanced (s : Service F) (sid : String) (p : Prepaid F) : Prop where
  nonneg : 0 ≤ p.spentAtomic
  settled : p.spentAtomic.toInt = settledSum s sid
  funded : p.spentAtomic.toInt + pendingSum s sid ≤ p.depositAtomic.toInt

/-- The whole accounting of one credit: the ledger equation, and that neither a
settlement nor a receipt that follows leaves the exact arithmetic. -/
structure Accounted (s : Service F) (sid : String) (p : Prepaid F) : Prop extends
    Balanced s sid p where
  plain : ∀ order nodeID,
    Run.Along attributeSpend (PlainFor sid) s.prepaid (unsettled order s nodeID)
  noWrap : ∀ order, NoWrap s sid p order

/-- The accounting of the session's credit, from when it has one. -/
def SessionAccounted (sid : String) (s : Service F) : Prop :=
  ∀ p, s.prepaid.lookup sid = some p → Accounted s sid p

variable [GoFloat F] (verify : List UInt8 → String → List UInt8 → Bool)
  (sha256 : String → List UInt8)

def step (s : Service F) : Op F → Service F
  | .authorize opts now draw nodeID operatorAddr sessionID deposit =>
    (authorize opts now draw s nodeID operatorAddr sessionID deposit).service
  | .receipt order r => afterReceipt verify order s r
  | .settle opts now order nodeID => (recordSettlement sha256 opts now order s nodeID).2

/-- The session is authorised only while it has neither credit nor receipts. -/
def AuthorisedOnce (sid : String) (s : Service F) : Op F → Prop
  | .authorize opts now draw nodeID operatorAddr sessionID deposit =>
    sessionID = sid →
    (authorize opts now draw s nodeID operatorAddr sessionID deposit).result.isOk = true →
      (s.prepaid.lookup sid).isNone = true ∧ ∀ r ∈ GoMap.values s.receipts, r.sessionID ≠ sid
  | .receipt .. | .settle .. => True

/-- A receipt that the service accepts for the session's credit does not come
with the `Settled` flag, unless its amount is 0. -/
def ArrivesUnsettled (sid : String) (s : Service F) : Op F → Prop
  | .receipt order r =>
    r.sessionID = sid → (s.prepaid.lookup sid).isSome = true →
    (recordReceipt verify order s r).isOk = true → r.settled = true → r.amount = 0
  | .authorize .. | .settle .. => True

instance (sid : String) (s : Service F) (op : Op F) : Decidable (AuthorisedOnce sid s op) := by
  cases op <;> unfold AuthorisedOnce <;> infer_instance

instance (sid : String) (s : Service F) (op : Op F) :
    Decidable (ArrivesUnsettled verify sid s op) := by
  cases op <;> unfold ArrivesUnsettled <;> infer_instance

end definitions

section loops
variable {F : Type}

/-- The loop over the stored receipts is exact while its result fits. -/
theorem pendingTotal_exact (sid : String) {pending : Int64} {l : List Receipt}
    (nonneg : ∀ r ∈ l, 0 ≤ r.amount) (start : 0 ≤ pending)
    (room : pending.toInt + (l.map (share sid false)).sum < 2 ^ 63) :
    ExactPending sid pending l ∧
    ∀ id, ∃ total, pendingTotal id sid pending l = .ok total ∧
      total.toInt = pending.toInt + (l.map (share sid false)).sum := by
  induction l generalizing pending with
  | nil => exact ⟨trivial, fun id => ⟨pending, rfl, by simp⟩⟩
  | cons e rest ih =>
    have here : 0 ≤ e.amount := nonneg e List.mem_cons_self
    have later : ∀ r ∈ rest, 0 ≤ r.amount := fun r m => nonneg r (List.mem_cons_of_mem _ m)
    have restNonneg := sum_nonneg fun r m => share_nonneg (later r m) sid false
    rw [List.map_cons, List.sum_cons] at room ⊢
    unfold ExactPending pendingTotal
    by_cases counted : e.sessionID = sid ∧ e.settled = false
    · have amount : share sid false e = e.amount.toInt := if_pos counted
      have low := toInt_nonneg start
      have amountLow := toInt_nonneg here
      rw [amount] at room ⊢
      simp only [if_pos counted]
      have fits : Word.Fits64 (pending.toInt + e.amount.toInt) := by
        unfold Word.Fits64
        omega
      have sum := Word.toInt_add_of_fits fits
      have noOverflow : ¬ pending > Int64.maxValue - e.amount := (Word.fits64_add_iff here).mp fits
      have startNext : 0 ≤ pending + e.amount := by
        rw [Int64.le_iff_toInt_le, sum]
        exact Int.add_nonneg low amountLow
      obtain ⟨exact, total⟩ := ih later startNext (by omega)
      refine ⟨⟨Word.fits64_max_sub here, fits, exact⟩, fun id => ?_⟩
      obtain ⟨value, ok, value_eq⟩ := total id
      rw [if_neg noOverflow]
      exact ⟨value, ok, by omega⟩
    · have amount : share sid false e = 0 := if_neg counted
      rw [amount, zero_add] at room ⊢
      simp only [if_neg counted]
      exact ih later start room

theorem attribute_plain {p : Prepaid F} {amount : Int64} (nonneg : 0 ≤ amount)
    (room : p.spentAtomic.toInt + amount.toInt ≤ p.depositAtomic.toInt) :
    Plain p amount ∧
      (p.attribute amount).spentAtomic.toInt = p.spentAtomic.toInt + amount.toInt := by
  have low := p.spentAtomic.le_toInt
  have high := p.depositAtomic.toInt_lt
  have amountLow := toInt_nonneg nonneg
  have fits : Word.Fits64 (p.spentAtomic.toInt + amount.toInt) := by
    unfold Word.Fits64
    omega
  have unsaturated : 0 ≤ amount ∧ p.spentAtomic ≤ Int64.maxValue - amount :=
    ⟨nonneg, Int64.not_lt.mp ((Word.fits64_add_iff nonneg).mp fits)⟩
  have sum : p.saturated amount = p.spentAtomic + amount := if_pos unsaturated
  have uncapped : ¬ p.saturated amount > p.depositAtomic := by
    rw [sum, gt_iff_lt, Int64.lt_iff_toInt_lt, Word.toInt_add_of_fits fits]
    omega
  refine ⟨⟨unsaturated, uncapped⟩, ?_⟩
  unfold Prepaid.attribute
  rw [if_neg uncapped, sum]
  exact Word.toInt_add_of_fits fits

/-- The attribution loop over a batch within the deposit is plain and exact. -/
theorem attribute_batch {sid : String} {prepaid : GoMap String (Prepaid F)} {batch : List Receipt}
    {p : Prepaid F} (known : prepaid.lookup sid = some p) (nonneg : ∀ r ∈ batch, 0 ≤ r.amount)
    (room : p.spentAtomic.toInt + (batch.map (amountFor sid)).sum ≤ p.depositAtomic.toInt) :
    Run.Along attributeSpend (PlainFor sid) prepaid batch ∧
    ∃ p', (batch.foldl attributeSpend prepaid).lookup sid = some p' ∧
      p'.depositAtomic = p.depositAtomic ∧
      p'.spentAtomic.toInt = p.spentAtomic.toInt + (batch.map (amountFor sid)).sum := by
  induction batch generalizing prepaid p with
  | nil => exact ⟨trivial, p, known, rfl, by simp⟩
  | cons r rest ih =>
    have here : 0 ≤ r.amount := nonneg r List.mem_cons_self
    have later : ∀ r ∈ rest, 0 ≤ r.amount := fun r m => nonneg r (List.mem_cons_of_mem _ m)
    have restNonneg := sum_nonneg fun r m => amountFor_nonneg (later r m) sid
    have next := lookup_attributeSpend prepaid r sid
    rw [known] at next
    rw [List.map_cons, List.sum_cons] at room ⊢
    rw [List.foldl_cons]
    by_cases mine : r.sessionID = sid
    · rw [if_pos mine] at next
      have amount : amountFor sid r = r.amount.toInt := if_pos mine
      rw [amount] at room ⊢
      obtain ⟨plain, spent⟩ := attribute_plain (p := p) here (by omega)
      obtain ⟨plainRest, p', found, deposit, total⟩ := ih next later (by
        rw [attribute_depositAtomic, spent]
        omega)
      refine ⟨⟨fun _ q hq => ?_, plainRest⟩, p', found, ?_, ?_⟩
      · rw [known] at hq
        rw [← Option.some.inj hq]
        exact plain
      · rw [deposit, attribute_depositAtomic]
      · rw [total, spent]
        omega
    · rw [if_neg mine] at next
      have amount : amountFor sid r = 0 := if_neg mine
      rw [amount, zero_add] at room ⊢
      obtain ⟨plainRest, rest⟩ := ih next later room
      exact ⟨⟨fun same => absurd same mine, plainRest⟩, rest⟩

end loops

section invariant
variable {F : Type} {sid : String} {s : Service F}

/-- The invariant: the ledger equation of the session, on well-formed receipts. -/
structure Sound (sid : String) (s : Service F) : Prop where
  keyed : WellKeyed s.receipts
  nonneg : ∀ r ∈ GoMap.values s.receipts, 0 ≤ r.amount
  balanced : ∀ p, s.prepaid.lookup sid = some p → Balanced s sid p

theorem sound_newService (issuer : Source.Tokens.Issuer) :
    Sound sid (newService F issuer) := by
  constructor <;> simp [newService, WellKeyed, GoMap.values]

variable (h : Sound sid s)
include h

theorem Sound.wellStored : WellStored s := ⟨h.keyed, h.nonneg⟩

theorem Sound.pendingSum_nonneg : 0 ≤ pendingSum s sid :=
  sum_nonneg fun r member => share_nonneg (h.nonneg r member) sid false

theorem Sound.unsettled_nonneg (order : RangeOrder) (nodeID : String) :
    ∀ r ∈ unsettled order s nodeID, 0 ≤ r.amount := by
  intro r member
  exact h.nonneg r (GoMap.mem_values.mpr ⟨r.id, ((mem_unsettled h.keyed).mp member).1⟩)

theorem Sound.batch_le_pending (order : RangeOrder) (nodeID : String) :
    ((unsettled order s nodeID).map (amountFor sid)).sum ≤ pendingSum s sid := by
  unfold unsettled
  rw [GoMap.sum_filter_visit]
  apply GoMap.sumBy_le_sumBy
  intro r member
  have nonneg := toInt_nonneg (h.nonneg r member)
  cases flag : r.settled <;> simp only [share, amountFor, flag]
  · split <;> split <;> simp_all
  · simp

/-- The loop over the stored receipts finds the pending sum, without a wrap. -/
theorem Sound.pending_exact {p : Prepaid F} (known : s.prepaid.lookup sid = some p)
    (order : RangeOrder) :
    ExactPending sid 0 (order.visit (GoMap.values s.receipts)) ∧
    ∀ id, ∃ total, pendingTotal id sid 0 (order.visit (GoMap.values s.receipts)) = .ok total ∧
      total.toInt = pendingSum s sid := by
  have nonneg : ∀ r ∈ order.visit (GoMap.values s.receipts), 0 ≤ r.amount := fun r member =>
    h.nonneg r ((RangeOrder.mem_visit order).mp member)
  have sum : ((order.visit (GoMap.values s.receipts)).map (share sid false)).sum =
      pendingSum s sid := GoMap.sum_visit order (share sid false) s.receipts
  have zero : (0 : Int64).toInt = 0 := rfl
  have balanced := h.balanced p known
  have spent := toInt_nonneg balanced.nonneg
  have funded := balanced.funded
  have deposit := p.depositAtomic.toInt_lt
  have exact := pendingTotal_exact sid nonneg (Int64.le_refl 0) (by rw [sum, zero]; omega)
  rw [sum, zero, zero_add] at exact
  exact exact

theorem Sound.left_exact {p : Prepaid F} (known : s.prepaid.lookup sid = some p)
    {pending : Int64} (exact : pending.toInt = pendingSum s sid) :
    Word.Fits64 (p.depositAtomic.toInt - p.spentAtomic.toInt) ∧
    Word.Fits64 (p.remainingAtomic.toInt - pending.toInt) ∧
    (p.remainingAtomic - pending).toInt =
      p.depositAtomic.toInt - p.spentAtomic.toInt - pendingSum s sid := by
  have balanced := h.balanced p known
  have spent := toInt_nonneg balanced.nonneg
  have funded := balanced.funded
  have deposit := p.depositAtomic.toInt_lt
  have pendingNonneg := h.pendingSum_nonneg
  have remaining : Word.Fits64 (p.depositAtomic.toInt - p.spentAtomic.toInt) := by
    unfold Word.Fits64
    omega
  have remaining_eq : p.remainingAtomic.toInt = p.depositAtomic.toInt - p.spentAtomic.toInt :=
    Word.toInt_sub_of_fits remaining
  have left : Word.Fits64 (p.remainingAtomic.toInt - pending.toInt) := by
    unfold Word.Fits64
    omega
  refine ⟨remaining, left, ?_⟩
  rw [Word.toInt_sub_of_fits left, remaining_eq, exact]

theorem Sound.accounted : SessionAccounted sid s := by
  intro p known
  have balanced := h.balanced p known
  refine ⟨balanced, fun order nodeID => ?_, fun order => ?_⟩
  · have room := h.batch_le_pending order nodeID
    have funded := balanced.funded
    exact (attribute_batch known (h.unsettled_nonneg order nodeID) (by omega)).1
  · obtain ⟨exact, totals⟩ := h.pending_exact known order
    obtain ⟨total, _, total_eq⟩ := totals ""
    refine ⟨exact, (h.left_exact known total_eq).1, fun id pending counted => ?_⟩
    obtain ⟨total, ok, total_eq⟩ := totals id
    rw [counted] at ok
    obtain rfl := Except.ok.inj ok
    exact (h.left_exact known total_eq).2.1

end invariant

section steps
variable {F : Type} {sid : String} {s : Service F}

theorem Balanced.of_receipts_eq {s' : Service F} {p : Prepaid F} (h : Balanced s sid p)
    (same : s'.receipts = s.receipts) : Balanced s' sid p := by
  refine ⟨h.nonneg, ?_, ?_⟩
  · unfold settledSum
    rw [same]
    exact h.settled
  · unfold pendingSum
    rw [same]
    exact h.funded

theorem sums_of_no_receipts (none : ∀ r ∈ GoMap.values s.receipts, r.sessionID ≠ sid)
    (settled : Bool) : GoMap.sumBy (share sid settled) s.receipts = 0 := by
  unfold GoMap.sumBy
  apply List.sum_eq_zero
  intro z member
  obtain ⟨r, inMap, rfl⟩ := List.mem_map.mp member
  exact if_neg fun both => none r inMap both.1

theorem Sound.authorize [GoFloat F] (h : Sound sid s) {opts : Options F} {now : Time}
    {draw : Source.Tokens.Draw} {nodeID operatorAddr sessionID : String} {deposit : F}
    (once : AuthorisedOnce sid s (.authorize opts now draw nodeID operatorAddr sessionID deposit)) :
    Sound sid (authorize opts now draw s nodeID operatorAddr sessionID deposit).service := by
  simp only [AuthorisedOnce] at once
  generalize outcome : Source.Payments.authorize opts now draw s nodeID operatorAddr sessionID
    deposit = out at once ⊢
  obtain ⟨receipts, _, effect⟩ := authorize_effect out outcome
  refine ⟨by rw [receipts]; exact h.keyed, by rw [receipts]; exact h.nonneg, ?_⟩
  intro p known
  cases result : out.result with
  | error e =>
    rw [result] at effect
    rw [effect] at known
    exact (h.balanced p known).of_receipts_eq receipts
  | ok grant =>
    rw [result] at effect
    obtain ⟨inserted, funded, unspent⟩ := effect
    rw [inserted] at known
    by_cases same : sessionID = sid
    · subst same
      obtain ⟨_, noReceipts⟩ := once rfl (by rw [result]; rfl)
      rw [AList.lookup_insert] at known
      obtain rfl := Option.some.inj known
      have positive : 0 < grant.credit.depositAtomic.toInt := Int64.lt_iff_toInt_lt.mp funded
      refine Balanced.of_receipts_eq (s := s) ⟨?_, ?_, ?_⟩ receipts
      · rw [unspent]
        exact Int64.le_refl 0
      · rw [unspent]
        exact (sums_of_no_receipts noReceipts true).symm
      · rw [unspent]
        have empty : pendingSum s sessionID = 0 := sums_of_no_receipts noReceipts false
        rw [empty]
        exact positive.le
    · rw [AList.lookup_insert_ne (Ne.symm same)] at known
      exact (h.balanced p known).of_receipts_eq receipts

variable {order : RangeOrder} {r : Receipt}

/-- The receipt's own part of the two sums, and the room that the credit check
left for it. -/
theorem Sound.receipt_room (h : Sound sid s) {p : Prepaid F}
    (known : s.prepaid.lookup sid = some p) (credit : checkCredit order s r = .ok ())
    (arrives : r.sessionID = sid → r.settled = true → r.amount = 0) :
    share sid true r = 0 ∧
      p.spentAtomic.toInt + share sid false r + pendingSum s sid ≤ p.depositAtomic.toInt := by
  have funded := (h.balanced p known).funded
  by_cases mine : r.sessionID = sid
  · subst mine
    cases flag : r.settled with
    | false =>
      have settledShare : share r.sessionID true r = 0 := if_neg (by simp [flag])
      have pendingShare : share r.sessionID false r = r.amount.toInt := if_pos ⟨rfl, flag⟩
      obtain ⟨total, counted, within⟩ := checkCredit_ok known credit
      obtain ⟨total', ok, exact⟩ := (h.pending_exact known order).2 r.id
      rw [counted] at ok
      obtain rfl := Except.ok.inj ok
      have left := (h.left_exact known exact).2.2
      have within : r.amount.toInt ≤ (p.remainingAtomic - total).toInt :=
        Int64.le_iff_toInt_le.mp within
      exact ⟨settledShare, by omega⟩
    | true =>
      have zero : r.amount.toInt = 0 := by rw [arrives rfl flag]; rfl
      have settledShare : share r.sessionID true r = r.amount.toInt := if_pos ⟨rfl, flag⟩
      have pendingShare : share r.sessionID false r = 0 := if_neg (by simp [flag])
      exact ⟨by omega, by omega⟩
  · have others : ∀ settled, share sid settled r = 0 := fun _ => if_neg fun both => mine both.1
    refine ⟨others true, ?_⟩
    rw [others false]
    omega

theorem Sound.receipt (h : Sound sid s) {verify : List UInt8 → String → List UInt8 → Bool}
    {next : Service F} (accepted : recordReceipt verify order s r = .ok next)
    (arrives : r.sessionID = sid → (s.prepaid.lookup sid).isSome = true → r.settled = true →
      r.amount = 0) :
    Sound sid next := by
  obtain ⟨keyed, amounts⟩ := h.wellStored.receipt accepted
  obtain ⟨rfl, _, fresh, credit⟩ := recordReceipt_ok accepted
  refine ⟨keyed, amounts, ?_⟩
  intro p (known : s.prepaid.lookup sid = some p)
  have balanced := h.balanced p known
  obtain ⟨none, room⟩ := h.receipt_room known credit fun mine =>
    arrives mine (by rw [known]; rfl)
  refine ⟨balanced.nonneg, ?_, ?_⟩
  · unfold settledSum
    rw [GoMap.sumBy_insert_new (share sid true) r fresh, none, zero_add]
    exact balanced.settled
  · unfold pendingSum
    rw [GoMap.sumBy_insert_new (share sid false) r fresh]
    unfold pendingSum at room
    omega

/-- What marking a batch as settled moves from the pending to the settled sum. -/
theorem share_moves (sid : String) (unsettled : r.settled = false) :
    share sid true { r with settled := true } - share sid true r = amountFor sid r ∧
    share sid false { r with settled := true } - share sid false r = -amountFor sid r := by
  unfold share amountFor
  by_cases mine : r.sessionID = sid
  · simp [mine, unsettled]
  · simp [mine]

theorem sums_after_mark (sid : String) {receipts : GoMap String Receipt} {batch : List Receipt}
    (distinct : (batch.map (·.id)).Nodup)
    (pending : ∀ r ∈ batch, receipts.lookup r.id = some r ∧ r.settled = false) :
    GoMap.sumBy (share sid true) ((batch.map (·.id)).foldl markSettled receipts) =
      GoMap.sumBy (share sid true) receipts + (batch.map (amountFor sid)).sum ∧
    GoMap.sumBy (share sid false) ((batch.map (·.id)).foldl markSettled receipts) =
      GoMap.sumBy (share sid false) receipts - (batch.map (amountFor sid)).sum := by
  have stored : ∀ r ∈ batch, receipts.lookup r.id = some r := fun r m => (pending r m).1
  have up := List.map_congr_left fun r m => (share_moves sid (pending r m).2).1
  have down := List.map_congr_left fun r m => (share_moves sid (pending r m).2).2
  rw [sumBy_markSettled _ distinct stored, sumBy_markSettled _ distinct stored, up, down,
    sub_eq_add_neg, List.sum_neg, List.map_map]
  exact ⟨rfl, rfl⟩

theorem Sound.commit (h : Sound sid s) {sha256 : String → List UInt8}
    {nodeID : String} {st : Settlement}
    (prepared : Prepared sha256 nodeID (unsettled order s nodeID) st) :
    Sound sid (commitSettlement st (unsettled order s nodeID) s) := by
  have pending : ∀ r ∈ unsettled order s nodeID,
      s.receipts.lookup r.id = some r ∧ r.settled = false := fun r member =>
    ⟨((mem_unsettled h.keyed).mp member).1, ((mem_unsettled h.keyed).mp member).2.2⟩
  obtain ⟨keyed, amounts⟩ := h.wellStored.commit prepared
  refine ⟨keyed, amounts, ?_⟩
  intro p' known'
  obtain ⟨settled, left⟩ := sums_after_mark sid (nodup_unsettled h.keyed) pending
  cases known : s.prepaid.lookup sid with
  | none =>
    rw [commitSettlement, lookup_attributed_none known] at known'
    cases known'
  | some p =>
    have balanced := h.balanced p known
    have funded := balanced.funded
    have room := h.batch_le_pending order nodeID
    have batchNonneg : 0 ≤ ((unsettled order s nodeID).map (amountFor sid)).sum :=
      sum_nonneg fun r m => amountFor_nonneg (h.unsettled_nonneg order nodeID r m) sid
    obtain ⟨_, q, found, deposit, spent⟩ :=
      attribute_batch known (h.unsettled_nonneg order nodeID) (by omega)
    obtain rfl := Option.some.inj (found.symm.trans known')
    have before := balanced.settled
    have nonneg := toInt_nonneg balanced.nonneg
    unfold settledSum at before
    unfold pendingSum at funded
    refine ⟨Int64.le_iff_toInt_le.mpr ?_, ?_, ?_⟩
    · rw [spent]
      exact Int.add_nonneg nonneg batchNonneg
    · unfold settledSum commitSettlement
      rw [prepared.receiptIDs, settled, spent, before]
    · unfold pendingSum commitSettlement
      rw [prepared.receiptIDs, left, spent, deposit]
      omega

variable [GoFloat F] (verify : List UInt8 → String → List UInt8 → Bool)
  (sha256 : String → List UInt8)

theorem sound_step (s : Service F) (op : Op F)
    (premise : AuthorisedOnce sid s op ∧ ArrivesUnsettled verify sid s op) (h : Sound sid s) :
    Sound sid (step verify sha256 s op) := by
  obtain ⟨once, arrives⟩ := premise
  cases op with
  | authorize opts now draw nodeID operatorAddr sessionID deposit => exact h.authorize once
  | receipt order r =>
    rcases afterReceipt_cases verify order s r with ⟨unchanged, _⟩ | accepted
    · rw [step, unchanged]
      exact h
    · exact h.receipt accepted fun mine credited =>
        arrives mine credited (by rw [accepted]; rfl)
  | settle opts now order nodeID =>
    rcases recordSettlement_cases sha256 opts now order s nodeID with unchanged | ⟨st, prepared, eq⟩
    · rw [step, unchanged]
      exact h
    · rw [step, eq]
      exact h.commit prepared

/-- The ledger equation before and after a step shows that the step met the
condition. -/
theorem arrivesUnsettled_of_accounted (s : Service F) (op : Op F) (before : SessionAccounted sid s)
    (after : SessionAccounted sid (step verify sha256 s op)) :
    ArrivesUnsettled verify sid s op := by
  cases op with
  | authorize opts now draw nodeID operatorAddr sessionID deposit => trivial
  | settle opts now order nodeID => trivial
  | receipt order r =>
    intro mine credited accepted flag
    obtain ⟨p, known⟩ := Option.isSome_iff_exists.mp credited
    rcases afterReceipt_cases verify order s r with ⟨_, refused⟩ | ok
    · cases outcome : recordReceipt verify order s r with
      | error e =>
        rw [outcome] at accepted
        cases accepted
      | ok next => exact absurd outcome (refused next)
    · obtain ⟨next, _, fresh, _⟩ := recordReceipt_ok ok
      have settledBefore := (before p known).settled
      have settledAfter := (after p (by rw [step, next]; exact known)).settled
      rw [step, next, settledSum, GoMap.sumBy_insert_new (share sid true) r fresh] at settledAfter
      rw [settledSum] at settledBefore
      have own : share sid true r = r.amount.toInt := if_pos ⟨mine, flag⟩
      exact Int64.toInt_inj.mp (show r.amount.toInt = 0 by omega)

end steps

/-- For a session that is authorised once, before its first receipt: in every state of the run
spent is non-negative and equals the sum of the settled receipts, the deposit covers spent and
pending, and no branch or wrap is reached, exactly when no accepted receipt for the credit arrives
with the `Settled` flag and an amount. -/
theorem prepaid_accounted_iff {F : Type} [GoFloat F]
    (verify : List UInt8 → String → List UInt8 → Bool) (sha256 : String → List UInt8) (sid : String)
    (issuer : Source.Tokens.Issuer) (ops : List (Op F))
    (once : Run.Along (step verify sha256) (AuthorisedOnce sid) (newService F issuer) ops) :
    Run.Throughout (step verify sha256) (SessionAccounted sid) (newService F issuer) ops ↔
      Run.Along (step verify sha256) (ArrivesUnsettled verify sid) (newService F issuer) ops := by
  constructor
  · exact Run.along_of_throughout (arrivesUnsettled_of_accounted verify sha256)
  · intro arrives
    exact (Run.throughout_of_invariant (sound_newService issuer) (sound_step verify sha256)
      (once.and arrives)).mono fun _ sound => sound.accounted

section sample

/-- A service without wallet, registry and contract, whose user authorises. -/
def demo : Options ℚ := ⟨none, none, fun _ => .ok .authorise, "devmock", ""⟩

/-- Session `s` is authorised with a deposit of 1 DERO. -/
def fundSession : Op ℚ :=
  .authorize demo 0 ⟨some (.replicate 16 0), some (.replicate 32 0)⟩ "node" "operator" "s" 1

/-- A receipt over 5 atomic units of session `s`, with the given flag. -/
def usage (settled : Bool) : Receipt :=
  ⟨"r", "s", "node", "tok", 0, 0, 0, 5, settled, .replicate 32 0, .replicate 64 0⟩

/-- The receipt arrives unsettled and is settled by the service. -/
def settledRun : List (Op ℚ) :=
  [fundSession, .receipt .forward (usage false), .settle demo 1 .forward "node"]

/-- The receipt arrives with the flag. -/
def presettledRun : List (Op ℚ) := [fundSession, .receipt .forward (usage true)]

theorem settledRun_accounted :
    Run.Along (step anySignature noDigest) (AuthorisedOnce "s")
      (newService ℚ Source.Tokens.newIssuer) settledRun ∧
    Run.Throughout (step anySignature noDigest) (SessionAccounted "s")
      (newService ℚ Source.Tokens.newIssuer) settledRun ∧
    ((Run.run (step anySignature noDigest) (newService ℚ Source.Tokens.newIssuer)
      settledRun).prepaid.lookup "s").map (·.spentAtomic) = some 5 := by
  have once : Run.Along (step anySignature noDigest) (AuthorisedOnce "s")
      (newService ℚ Source.Tokens.newIssuer) settledRun := by decide +kernel
  refine ⟨once, ?_, by decide +kernel⟩
  exact (prepaid_accounted_iff anySignature noDigest "s" _ settledRun once).mpr (by decide +kernel)

/-- The session is authorised once, before its receipt; afterwards 5 units are
settled and none is spent. -/
theorem presettledRun_unaccounted :
    Run.Along (step anySignature noDigest) (AuthorisedOnce "s")
      (newService ℚ Source.Tokens.newIssuer) presettledRun ∧
    ((Run.run (step anySignature noDigest) (newService ℚ Source.Tokens.newIssuer)
      presettledRun).prepaid.lookup "s").map (·.spentAtomic) = some 0 ∧
    settledSum (Run.run (step anySignature noDigest) (newService ℚ Source.Tokens.newIssuer)
      presettledRun) "s" = 5 ∧
    ¬ Run.Throughout (step anySignature noDigest) (SessionAccounted "s")
      (newService ℚ Source.Tokens.newIssuer) presettledRun := by
  have spent : ((Run.run (step anySignature noDigest)
      (newService ℚ Source.Tokens.newIssuer) presettledRun).prepaid.lookup "s").map
      (·.spentAtomic) = some 0 := by decide +kernel
  have settled : settledSum (Run.run (step anySignature noDigest)
      (newService ℚ Source.Tokens.newIssuer) presettledRun) "s" = 5 := by decide +kernel
  refine ⟨by decide +kernel, spent, settled, fun accounted => ?_⟩
  obtain ⟨p, known, none⟩ := Option.map_eq_some_iff.mp spent
  have equation := (accounted.last p known).settled
  rw [none, settled] at equation
  exact absurd equation (by decide)

end sample

end VeilNet.Guarantees.PrepaidAccounting
