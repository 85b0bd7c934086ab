import VeilNet.Guarantees.PrepaidAccounting
import VeilNet.Source.Payments.Multihop

/-!
# Settling a whole route

`SettleRoute` runs `RecordSettlement` hop by hop and stops at the first error, such as that for a
node without unsettled receipts. With a wallet that submits, a route is settled completely exactly
when every hop has work and a total that fits.
-/
namespace VeilNet.Guarantees.RouteSettlement
open Lib Source Source.Payments Source.Multihop
open Guarantees.PrepaidAccounting

section definitions
variable {F : Type}

/-- The unsettled receipts of a node, in one order. -/
def due (s : Service F) (nodeID : String) : List Receipt := unsettled .forward s nodeID

/-- The wallet, if there is one, builds and submits every invoke. -/
def Submits (opts : Options F) : Prop :=
  ∀ w, opts.wallet = some w → ∀ invoke,
    w.buildInvoke invoke = .ok () ∧ ∃ txid, w.submitInvoke invoke = .ok txid

/-- The node has an unsettled receipt, and its unsettled amounts add up within `int64`. -/
structure Ready (s : Service F) (nodeID : String) : Prop where
  work : due s nodeID ≠ []
  fits : ((due s nodeID).map (·.amount.toInt)).sum < 2 ^ 63

/-- A settlement of everything that was due to the hop. -/
structure Settles (s : Service F) (hop : Hop F) (st : Settlement) : Prop where
  nodeID : st.nodeID = hop.nodeID
  receiptIDs : st.receiptIDs.Perm ((due s hop.nodeID).map (·.id))

/-- No error, one settlement in path order for each hop with work, and no work left. -/
structure SettlesExactly (s : Service F) (hops : List (Hop F))
    (out : List Settlement × Option RouteError × Option (Service F)) : Prop where
  succeeds : out.2.1 = none
  settled : List.Forall₂ (Settles s) (hops.filter fun hop => due s hop.nodeID ≠ []) out.1
  done : ∀ next, out.2.2 = some next → ∀ hop ∈ hops, due next hop.nodeID = []

end definitions

section stored
variable {F : Type} [GoFloat F] (verify : List UInt8 → String → List UInt8 → Bool)
  (sha256 : String → List UInt8)

theorem wellStored_step (s : Service F) (op : Op F) (h : WellStored s) :
    WellStored (step verify sha256 s op) := by
  cases op with
  | authorize opts now draw nodeID operatorAddr sessionID deposit =>
    have receipts := (authorize_effect _ (rfl : authorize opts now draw s nodeID operatorAddr
      sessionID deposit = _)).1
    rw [step]
    exact ⟨by rw [receipts]; exact h.keyed, by rw [receipts]; exact h.nonneg⟩
  | receipt order r =>
    rcases afterReceipt_cases verify order s r with ⟨unchanged, _⟩ | accepted
    · rw [step, unchanged]
      exact h
    · exact h.receipt accepted
  | settle opts now order nodeID =>
    rcases recordSettlement_cases sha256 opts now order s nodeID with unchanged | ⟨st, prepared, eq⟩
    · rw [step, unchanged]
      exact h
    · rw [step, eq]
      exact h.commit prepared

theorem wellStored_run (issuer : Tokens.Issuer) (ops : List (Op F)) :
    WellStored (Run.run (step verify sha256) (newService F issuer) ops) :=
  (Run.throughout_of_step (WellStored.newService issuer) (wellStored_step verify sha256)).last

end stored

section hop
variable {F : Type} {sha256 : String → List UInt8} {s : Service F} {order : RangeOrder}

/-- The order of the range loop does not matter to what is due. -/
theorem perm_due (order : RangeOrder) (s : Service F) (nodeID : String) :
    (unsettled order s nodeID).Perm (due s nodeID) :=
  ((order.perm _).trans (RangeOrder.forward.perm _).symm).filter _

/-- Readiness is what the preparation of a settlement asks for, in any order of the map. -/
theorem ready_iff_prepares (h : WellStored s) (now : Time) (nodeID : String) :
    Ready s nodeID ↔
      ∃ st, prepareSettlement sha256 now nodeID (unsettled order s nodeID) = .ok st := by
  have nonneg : ∀ r ∈ unsettled order s nodeID, 0 ≤ r.amount := by
    intro r member
    exact h.nonneg r (GoMap.mem_values.mpr ⟨r.id, ((mem_unsettled h.keyed).mp member).1⟩)
  have perm := perm_due order s nodeID
  rw [prepareSettlement_ok_iff nonneg, (perm.map (·.amount.toInt)).sum_eq]
  constructor
  · rintro ⟨work, fits⟩
    exact ⟨fun empty => work (by rw [← List.perm_nil, ← empty]; exact perm.symm), fits⟩
  · rintro ⟨work, fits⟩
    exact ⟨fun empty => work (by rw [← List.perm_nil, ← empty]; exact perm), fits⟩

theorem submitSettlement_of_submits {opts : Options F} (submits : Submits opts) (st : Settlement)
    (count : ℕ) : ∃ txid, submitSettlement opts st count = .ok txid := by
  unfold submitSettlement
  split
  · exact ⟨_, rfl⟩
  · next w attached =>
    split
    · exact ⟨_, rfl⟩
    · obtain ⟨built, txid, submitted⟩ := submits w attached (st.invoke opts.scid count)
      rw [built, submitted]
      exact ⟨txid, rfl⟩

/-- With a wallet that submits, one hop is settled exactly when it is ready. -/
theorem recordSettlement_ok_iff (h : WellStored s) {opts : Options F} (submits : Submits opts)
    (now : Time) (nodeID : String) :
    (∃ st next, recordSettlement sha256 opts now order s nodeID = (.ok st, next)) ↔
      Ready s nodeID := by
  have ready : Ready s nodeID ↔
      ∃ st, prepareSettlement sha256 now nodeID (unsettled order s nodeID) = .ok st :=
    ready_iff_prepares h now nodeID
  rw [ready]
  constructor
  · rintro ⟨st, next, settled⟩
    unfold recordSettlement at settled
    dsimp only at settled
    split at settled
    · cases settled
    · next st prepared => exact ⟨st, prepared⟩
  · rintro ⟨st, prepared⟩
    obtain ⟨txid, sent⟩ := submitSettlement_of_submits submits st (unsettled order s nodeID).length
    unfold recordSettlement
    dsimp only
    rw [prepared]
    dsimp only
    rw [sent]
    exact ⟨_, _, rfl⟩

/-- A settled hop has nothing due any more; the other nodes are as they were. -/
theorem due_commit (h : WellStored s) {nodeID : String} {st : Settlement}
    (prepared : Prepared sha256 nodeID (unsettled order s nodeID) st) (other : String) :
    (other = nodeID → due (commitSettlement st (unsettled order s nodeID) s) other = []) ∧
    (other ≠ nodeID → (due (commitSettlement st (unsettled order s nodeID) s) other).Perm
      (due s other)) := by
  constructor
  · intro mine
    refine List.eq_nil_iff_forall_not_mem.mpr fun r member => ?_
    exact ((mem_unsettled_commit h.keyed prepared).mp member).2 mine
  · intro others
    have nodup : ∀ {s : Service F}, WellStored s → (due s other).Nodup := fun h =>
      (nodup_unsettled h.keyed).of_map _
    rw [List.perm_ext_iff_of_nodup (nodup (h.commit prepared)) (nodup h)]
    intro r
    rw [due, mem_unsettled_commit h.keyed prepared]
    simp [others, due]

theorem Ready.congr {next : Service F} {nodeID : String}
    (same : (due next nodeID).Perm (due s nodeID)) : Ready next nodeID ↔ Ready s nodeID := by
  have empty : due next nodeID = [] ↔ due s nodeID = [] := by
    rw [← List.perm_nil, ← List.perm_nil, List.Perm.congr_left same]
  constructor
  · rintro ⟨work, fits⟩
    exact ⟨mt empty.mpr work, by rwa [← (same.map (·.amount.toInt)).sum_eq]⟩
  · rintro ⟨work, fits⟩
    exact ⟨mt empty.mp work, by rwa [(same.map (·.amount.toInt)).sum_eq]⟩

theorem Settles.congr {next : Service F} {hop : Hop F} {st : Settlement}
    (same : (due next hop.nodeID).Perm (due s hop.nodeID)) (h : Settles next hop st) :
    Settles s hop st :=
  ⟨h.nodeID, h.receiptIDs.trans (same.map _)⟩

end hop

section route
variable {F : Type} {sha256 : String → List UInt8}

/-- What the loop over the hops has done when it ends without an error. -/
structure Completed (s : Service F) (hops : List (Hop F)) (out : RouteSettled F) : Prop where
  settled : List.Forall₂ (Settles s) hops out.settlements
  done : ∀ hop ∈ hops, due out.service hop.nodeID = []
  others : ∀ nodeID, nodeID ∉ hops.map (·.nodeID) → (due out.service nodeID).Perm (due s nodeID)

theorem Completed.cons {s : Service F} {hop : Hop F} {rest : List (Hop F)} {order : RangeOrder}
    {st : Settlement} {out : RouteSettled F} (h : WellStored s)
    (distinct : hop.nodeID ∉ rest.map (·.nodeID))
    (prepared : Prepared sha256 hop.nodeID (unsettled order s hop.nodeID) st)
    (later : Completed (commitSettlement st (unsettled order s hop.nodeID) s) rest out) :
    Completed s (hop :: rest) { out with settlements := st :: out.settlements } := by
  have frame := due_commit h prepared
  have apart : ∀ next ∈ rest, next.nodeID ≠ hop.nodeID := by
    intro next member same
    exact distinct (List.mem_map.mpr ⟨next, member, same⟩)
  constructor
  · refine .cons ⟨prepared.nodeID, ?_⟩ ?_
    · rw [prepared.receiptIDs]
      exact (perm_due order s hop.nodeID).map _
    · obtain ⟨length, pairs⟩ := List.forall₂_iff_zip.mp later.settled
      refine List.forall₂_iff_zip.mpr ⟨length, fun {next made} member => ?_⟩
      exact (pairs member).congr ((frame next.nodeID).2 (apart next (List.of_mem_zip member).1))
  · intro next member
    rcases List.mem_cons.mp member with same | member
    · have kept := later.others hop.nodeID distinct
      rw [(frame hop.nodeID).1 rfl] at kept
      rw [same]
      exact List.perm_nil.mp kept
    · exact later.done next member
  · intro nodeID absent
    rw [List.map_cons, List.mem_cons, not_or] at absent
    exact (later.others nodeID absent.2).trans ((frame nodeID).2 absent.1)

/-- The loop ends without an error exactly when every hop is ready at its start. -/
theorem settleHops_spec (sha256 : String → List UInt8) (moments : ℕ → Moment F)
    (submits : ∀ i, Submits (moments i).opts)
    (s : Service F) (h : WellStored s) (hops : List (Hop F))
    (distinct : (hops.map (·.nodeID)).Nodup) :
    ((settleHops sha256 moments s hops).error = none ↔ ∀ hop ∈ hops, Ready s hop.nodeID) ∧
    ((settleHops sha256 moments s hops).error = none →
      Completed s hops (settleHops sha256 moments s hops)) := by
  induction hops generalizing s moments with
  | nil =>
    refine ⟨iff_of_true rfl (fun hop member => by cases member), fun _ => ⟨.nil, ?_, ?_⟩⟩
    · intro hop member
      cases member
    · intro nodeID _
      exact .refl _
  | cons hop rest ih =>
    obtain ⟨apart, distinct⟩ := List.nodup_cons.mp distinct
    have here : (∃ st next, recordSettlement sha256 (moments 0).opts (moments 0).now
        (moments 0).order s hop.nodeID = (.ok st, next)) ↔ Ready s hop.nodeID :=
      recordSettlement_ok_iff h (submits 0) (moments 0).now hop.nodeID
    unfold settleHops
    rcases outcome : recordSettlement sha256 (moments 0).opts (moments 0).now (moments 0).order s
      hop.nodeID with ⟨e | st, next⟩
    · rw [outcome] at here
      refine ⟨iff_of_false (fun none => by cases none) (fun ready => ?_), fun none => by cases none⟩
      obtain ⟨st, next, impossible⟩ := here.mpr (ready hop List.mem_cons_self)
      cases impossible
    · have readyHere : Ready s hop.nodeID := here.mp ⟨st, next, outcome⟩
      obtain ⟨prepared, rfl⟩ := recordSettlement_ok outcome
      obtain ⟨ends, completed⟩ := ih (fun i => moments (i + 1)) (fun i => submits (i + 1)) _
        (h.commit prepared) distinct
      have counted : st.receiptIDs.length > 0 := by
        rw [prepared.receiptIDs, List.length_map]
        exact List.length_pos_iff.mpr prepared.nonempty
      simp only [if_pos counted]
      refine ⟨?_, fun none => (completed none).cons h apart prepared⟩
      rw [ends, List.forall_mem_cons, and_iff_right readyHere]
      refine forall₂_congr fun next member => Ready.congr ?_
      exact (due_commit h prepared next.nodeID).2 fun same =>
        apart (List.mem_map.mpr ⟨next, member, same⟩)

end route

/-- On every service that the code can reach, with a wallet that submits: a route of distinct
nodes is settled completely (no error, one settlement for each hop with work, no work left)
exactly when every hop has an unsettled receipt and a total within `int64`. -/
theorem settleRoute_exact_iff {F : Type} [GoFloat F]
    (verify : List UInt8 → String → List UInt8 → Bool) (sha256 : String → List UInt8)
    (issuer : Tokens.Issuer) (ops : List (Op F)) (moments : ℕ → Moment F) (route : Route F)
    (nonempty : route.hops ≠ []) (distinct : (route.hops.map (·.nodeID)).Nodup)
    (submits : ∀ i, Submits (moments i).opts) :
    SettlesExactly (Run.run (step verify sha256) (newService F issuer) ops) route.hops
        (settleRoute sha256 moments (some (Run.run (step verify sha256) (newService F issuer) ops))
          (some route)) ↔
      ∀ hop ∈ route.hops,
        Ready (Run.run (step verify sha256) (newService F issuer) ops) hop.nodeID := by
  have h := wellStored_run verify sha256 issuer ops
  generalize Run.run (step verify sha256) (newService F issuer) ops = s at h
  obtain ⟨ends, completed⟩ := settleHops_spec sha256 moments submits s h route.hops distinct
  have some : route.hops.length ≠ 0 := mt List.length_eq_zero_iff.mp nonempty
  simp only [settleRoute, if_neg some]
  constructor
  · intro settled
    exact ends.mp settled.succeeds
  · intro ready
    have none := ends.mpr ready
    have all : (route.hops.filter fun hop => due s hop.nodeID ≠ []) = route.hops := by
      rw [List.filter_eq_self]
      intro hop member
      exact decide_eq_true (ready hop member).work
    refine ⟨none, ?_, ?_⟩
    · rw [all]
      exact (completed none).settled
    · intro next last hop member
      obtain rfl := Option.some.inj last
      exact (completed none).done hop member

section earnings
variable {F : Type} {s : Service F} {nodeID : String}

/-- The amount of a receipt of the node that is still to be settled. -/
def owed (nodeID : String) (r : Receipt) : ℤ :=
  if r.nodeID = nodeID ∧ r.settled = false then r.amount.toInt else 0

/-- What the node has been settled and what it is still owed. -/
def earned (nodeID : String) (s : Service F) : ℤ :=
  (s.settled.map fun st => if st.nodeID = nodeID then st.total.toInt else 0).sum +
    GoMap.sumBy (owed nodeID) s.receipts

theorem earned_commit (h : WellStored s) {sha256 : String → List UInt8} {order : RangeOrder}
    {other : String} {st : Settlement} (prepared :
    Prepared sha256 other (unsettled order s other) st) :
    earned nodeID (commitSettlement st (unsettled order s other) s) = earned nodeID s := by
  have due : ∀ r ∈ unsettled order s other, s.receipts.lookup r.id = some r ∧ r.nodeID = other ∧
      r.settled = false := fun r => (mem_unsettled h.keyed).mp
  have each : ∀ r ∈ unsettled order s other,
      owed nodeID { r with settled := true } - owed nodeID r =
      -(if other = nodeID then r.amount.toInt else 0) := by
    intro r member
    simp [owed, due r member]
  have moved := sumBy_markSettled (owed nodeID) (nodup_unsettled h.keyed) fun r member =>
    (due r member).1
  rw [List.map_congr_left each] at moved
  have total : ((unsettled order s other).map fun r =>
      -(if other = nodeID then r.amount.toInt else 0)).sum =
      -(if other = nodeID then st.total.toInt else 0) := by
    rw [prepared.total]
    split <;> simp [List.sum_neg, Function.comp_def]
  rw [total] at moved
  simp only [earned, commitSettlement, prepared.receiptIDs, moved, List.map_append,
    List.sum_append, List.map_singleton, List.sum_singleton, prepared.nodeID]
  omega

variable [GoFloat F] (verify : List UInt8 → String → List UInt8 → Bool)
  (sha256 : String → List UInt8)

/-- What an operation adds to it: a receipt that is accepted, unless it comes with the flag. -/
def accrues (nodeID : String) (s : Service F) : Op F → ℤ
  | .receipt order r =>
    match recordReceipt verify order s r with
    | .ok _ => owed nodeID r
    | .error _ => 0
  | .authorize .. | .settle .. => 0

theorem earned_step (h : WellStored s) (op : Op F) :
    earned nodeID (step verify sha256 s op) = earned nodeID s + accrues verify nodeID s op := by
  cases op with
  | authorize opts now draw other operatorAddr sessionID deposit =>
    obtain ⟨receipts, settled, _⟩ := authorize_effect _ (rfl : authorize opts now draw s other
      operatorAddr sessionID deposit = _)
    simp [earned, step, receipts, settled, accrues]
  | receipt order r =>
    simp only [step, afterReceipt, accrues]
    cases outcome : recordReceipt verify order s r with
    | error e => exact (add_zero _).symm
    | ok next =>
      obtain ⟨rfl, _, fresh, _⟩ := recordReceipt_ok outcome
      simp only [earned, GoMap.sumBy_insert_new _ r fresh]
      omega
  | settle opts now order other =>
    rcases recordSettlement_cases sha256 opts now order s other with unchanged | ⟨st, prepared, eq⟩
    · simp [step, unchanged, accrues]
    · simp [step, eq, accrues, earned_commit h prepared]

end earnings

/-- No amount is lost or settled twice: in every run, with wallets that may fail, a node's
settlements and its unsettled receipts add up to the receipts that were accepted for it. -/
theorem earnings_conserved {F : Type} [GoFloat F] (verify : List UInt8 → String → List UInt8 → Bool)
    (sha256 : String → List UInt8) (issuer : Tokens.Issuer) (ops : List (Op F)) (nodeID : String) :
    earned nodeID (Run.run (step verify sha256) (newService F issuer) ops) =
      ((Run.trace (step verify sha256) (newService F issuer) ops).map fun entry =>
        accrues verify nodeID entry.1 entry.2).sum := by
  induction ops using List.reverseRecOn with
  | nil => rfl
  | append_singleton front op ih =>
    rw [Run.run_snoc, Run.trace_snoc, List.map_append, List.sum_append,
      earned_step verify sha256 (wellStored_run verify sha256 issuer front), ih]
    simp

section sample

/-- A receipt over 5 atomic units of a node. -/
def usageOf (id nodeID : String) : Receipt :=
  ⟨id, "session", nodeID, "tok", 0, 0, 0, 5, false, .replicate 32 0, .replicate 64 0⟩

def hopTo (nodeID : String) : Hop ℚ := ⟨nodeID, "DE", "endpoint", "key", 0⟩

def twoHops : Route ℚ := ⟨"route", [hopTo "a", hopTo "b"], false, 0⟩

/-- No wallet, so nothing is submitted. -/
def moment (_ : ℕ) : Moment ℚ := ⟨demo, 0, .forward⟩

theorem submits_moment (i : ℕ) : Submits (moment i).opts := fun w attached => by cases attached

/-- Both hops have a receipt. -/
def bothWork : List (Op ℚ) :=
  [.receipt .forward (usageOf "r1" "a"), .receipt .forward (usageOf "r2" "b")]

/-- Only the second hop has one. -/
def secondWorks : List (Op ℚ) := [.receipt .forward (usageOf "r2" "b")]

def afterUsage (ops : List (Op ℚ)) : Service ℚ :=
  Run.run (step anySignature noDigest) (newService ℚ Tokens.newIssuer) ops

theorem bothWork_settled :
    (twoHops.hops ≠ [] ∧ (twoHops.hops.map (·.nodeID)).Nodup ∧ ∀ i, Submits (moment i).opts) ∧
    SettlesExactly (afterUsage bothWork) twoHops.hops
      (settleRoute noDigest moment (some (afterUsage bothWork)) (some twoHops)) := by
  have distinct : (twoHops.hops.map (·.nodeID)).Nodup := by decide
  refine ⟨⟨by simp [twoHops], distinct, submits_moment⟩, ?_⟩
  refine (settleRoute_exact_iff anySignature noDigest Tokens.newIssuer bothWork moment twoHops
    (by simp [twoHops]) distinct submits_moment).mpr fun hop member => ?_
  have either : hop = hopTo "a" ∨ hop = hopTo "b" := by simpa [twoHops] using member
  rcases either with rfl | rfl
  · exact ⟨by decide, by decide⟩
  · exact ⟨by decide, by decide⟩

/-- The first hop has nothing to settle; the receipt of the second stays unsettled. -/
theorem idle_hop_stops_route :
    (settleRoute noDigest moment (some (afterUsage secondWorks)) (some twoHops)).1 = [] ∧
    (settleRoute noDigest moment (some (afterUsage secondWorks)) (some twoHops)).2.1 =
      some (.settlement (.nothingToSettle "a")) ∧
    due (afterUsage secondWorks) "b" = [usageOf "r2" "b"] := by
  decide

end sample

end VeilNet.Guarantees.RouteSettlement
