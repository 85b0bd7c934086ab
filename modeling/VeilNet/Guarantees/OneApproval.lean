import VeilNet.Source.Wallet

/-!
# One approval, one payment

`PayApproved` reads the approval under the lock, asks the wallet without it and then clears the
approval. Payers that read before any of them clears all pay. While a payer passes its checks only
when no other is between checks and confirmation, there are no more transfers than approvals.
-/
namespace VeilNet.Guarantees.OneApproval
open Lib Source.Wallet

variable {F : Type}

inductive Call (F : Type) where
  | request
  | confirm (recording : Recording) (amount : F) (txid : String)
  | pay (p : Payment F)

def Call.start : Call F → Running F
  | .request => .request
  | .confirm recording amount txid => .confirm recording amount txid
  | .pay p => .pay p

abbrev World (F : Type) := Threads.Pool (Paying F) (Running F)

def start (a : App F) (calls : List (Call F)) : World F := ⟨⟨a, [], 0⟩, calls.map Call.start⟩

/-- The payer has passed its checks and has not confirmed. -/
def inFlight : Running F → Bool
  | .transfer .. | .record .. => true
  | .request | .confirm .. | .pay _ | .done .. => false

/-- The payer has passed its checks and has not asked the wallet. -/
def committed : Running F → Bool
  | .transfer .. => true
  | .request | .confirm .. | .pay _ | .record .. | .done .. => false

/-- No more transfers than requests. -/
def Covered (w : World F) : Prop := w.shared.sent.length ≤ w.shared.requests

/-- At most one payer in flight. One that is about to ask the wallet has a request of
its own; with none in flight, so has a pending approval. -/
structure Reserved (s : Paying F) (flying asking : ℕ) : Prop where
  single : flying ≤ 1
  asked : s.sent.length + asking ≤ s.requests
  free : flying = 0 → s.sent.length + s.app.pendingApproval.toNat ≤ s.requests

def Inv (w : World F) : Prop :=
  Reserved w.shared (w.tasks.countP inFlight) (w.tasks.countP committed)

theorem committed_le (tasks : List (Running F)) : tasks.countP committed ≤ tasks.countP inFlight :=
  List.countP_mono_left fun t _ here => by
    cases t <;> first | rfl | exact absurd here Bool.false_ne_true

theorem inv_start (a : App F) (idle : a.pendingApproval = false) (calls : List (Call F)) :
    Inv (start a calls) := by
  have fresh : ∀ q : Running F → Bool, (∀ call : Call F, q call.start = false) →
      ((calls.map Call.start).countP q) = 0 := fun q none =>
    List.countP_eq_zero.mpr fun t member => by
      obtain ⟨call, _, rfl⟩ := List.mem_map.mp member
      simp [none call]
  have flying := fresh inFlight fun call => by cases call <;> rfl
  have asking := fresh committed fun call => by cases call <;> rfl
  unfold Inv start
  rw [flying, asking]
  exact ⟨Nat.zero_le 1, Nat.le_refl 0, fun _ => by simp [idle]⟩

section steps
variable [GoFloat F]

def step : World F → ℕ → World F := Threads.step Running.next

def AloneFor (w : World F) (others : List (Running F)) : Running F → Prop
  | .pay p => (w.shared.app.checkPayment p.dest p.amountDero).isOk →
      others.countP inFlight = 0
  | _ => True

/-- A payer that passes its checks finds no other one in flight. -/
def Alone (w : World F) (i : ℕ) : Prop :=
  ∀ t ∈ w.tasks[i]?, AloneFor w (w.tasks.eraseIdx i) t

instance (w : World F) (others : List (Running F)) (t : Running F) :
  Decidable (AloneFor w others t) := by
  cases t <;> unfold AloneFor <;> infer_instance

instance (w : World F) (i : ℕ) : Decidable (Alone w i) :=
  inferInstanceAs (Decidable (∀ t ∈ w.tasks[i]?, AloneFor w (w.tasks.eraseIdx i) t))

/-- One task moves among `flying` other payers in flight, `asking` of them before the
wallet call. -/
theorem next_reserved {s : Paying F} {t : Running F} {flying asking : ℕ} (fewer : asking ≤ flying)
    (alone : ∀ p, t = .pay p → (s.app.checkPayment p.dest p.amountDero).isOk → flying = 0)
    (before : Reserved s (flying + (inFlight t).toNat) (asking + (committed t).toNat)) :
    Reserved (t.next s).1 (flying + (inFlight (t.next s).2).toNat)
      (asking + (committed (t.next s).2).toNat) := by
  obtain ⟨single, asked, free⟩ := before
  cases t with
  | request =>
    simp only [inFlight, committed, Bool.toNat_false, Nat.add_zero] at single asked free
    refine ⟨single, Nat.le_succ_of_le asked, fun none => ?_⟩
    have room : s.sent.length ≤ s.requests := by omega
    simpa [Running.next, Paying.request, App.requestPaymentApproval] using room
  | confirm r amount txid =>
    simp only [inFlight, committed, Bool.toNat_false, Nat.add_zero] at single asked free
    refine ⟨single, asked, fun none => ?_⟩
    have room : s.sent.length ≤ s.requests := by omega
    simpa [Running.next] using room
  | pay p =>
    simp only [inFlight, committed, Bool.toNat_false, Nat.add_zero] at single asked free
    cases checked : s.app.checkPayment p.dest p.amountDero with
    | error e =>
      simp only [Running.next, checked, inFlight, committed, Bool.toNat_false, Nat.add_zero]
      exact ⟨single, asked, free⟩
    | ok passed =>
      have none : flying = 0 := alone p rfl (by rw [checked]; rfl)
      have room := free none
      rw [(of_checkPayment checked).1, Bool.toNat_true] at room
      simp only [Running.next, checked, inFlight, committed, Bool.toNat_true]
      exact ⟨by omega, by omega, fun other => absurd other (by omega)⟩
  | transfer p conn network atomic =>
    simp only [inFlight, committed, Bool.toNat_true] at single asked
    cases made : s.transfer p conn network atomic with
    | error e =>
      have pending := Bool.toNat_le s.app.pendingApproval
      simp only [Running.next, made, inFlight, committed, Bool.toNat_false, Nat.add_zero]
      exact ⟨by omega, by omega, fun _ => by omega⟩
    | ok out =>
      have sent : out.2.sent.length = s.sent.length + 1 := by
        rw [of_transfer made, List.length_append, List.length_singleton]
      have requests : out.2.requests = s.requests := by rw [of_transfer made]
      simp only [Running.next, made, inFlight, committed, Bool.toNat_true, Bool.toNat_false]
      exact ⟨by omega, by omega, fun other => absurd other (by omega)⟩
  | record p txid =>
    simp only [inFlight, committed, Bool.toNat_true, Bool.toNat_false, Nat.add_zero] at single asked
    simp only [Running.next, inFlight, committed, Bool.toNat_false, Nat.add_zero]
    refine ⟨by omega, asked, fun _ => ?_⟩
    simp only [confirm_sent, confirm_requests, confirm_pendingApproval, Bool.toNat_false]
    omega
  | done txid err => exact ⟨single, asked, free⟩

theorem inv_step (w : World F) (i : ℕ) (alone : Alone w i) (inv : Inv w) : Inv (step w i) := by
  rcases Threads.step_cases Running.next w i with same |
    ⟨front, t, back, found, tasks, erased, moved⟩
  · rw [step, same]
    exact inv
  · unfold Alone at alone
    rw [found, erased] at alone
    unfold Inv at inv ⊢
    rw [tasks, Slots.countP_middle, Slots.countP_middle] at inv
    rw [step, moved, Slots.countP_middle, Slots.countP_middle]
    refine next_reserved (committed_le _) (fun p pays checked => ?_) inv
    have here := alone t rfl
    rw [pays] at here
    exact here checked

/-- In every interleaving in which each payer that passes its checks is alone, no more
transfers are made than approvals were requested. -/
theorem transfers_le_requests (a : App F) (idle : a.pendingApproval = false)
    (calls : List (Call F)) (schedule : List ℕ)
    (alone : Run.Along step Alone (start a calls) schedule) :
    Run.Throughout step Covered (start a calls) schedule := by
  have reserved := Run.throughout_of_invariant (inv_start a idle calls) inv_step alone
  refine reserved.mono fun w inv => ?_
  have room := inv.asked
  unfold Covered
  omega

end steps

section instances

def payment : Payment ℚ := ⟨"dero1q", 1 / 2, 0, .ok "tx", ⟨"r", 0, .ok ()⟩⟩

/-- Two payers one after the other: the second finds no approval. -/
theorem covered_one_after_other :
    Run.Throughout step Covered (start client [.request, .pay payment, .pay payment])
      [0, 1, 1, 1, 2] :=
  transfers_le_requests client rfl [.request, .pay payment, .pay payment] [0, 1, 1, 1, 2]
    (by decide +kernel)

/-- Two payers that both read the approval before either clears it. -/
theorem paid_twice :
    ¬ Run.Throughout step Covered (start client [.request, .pay payment, .pay payment])
      [0, 1, 2, 1, 2] := by
  intro covered
  have bound : Covered (Run.run step (start client [.request, .pay payment, .pay payment])
      [0, 1, 2, 1, 2]) := covered.last
  revert bound
  unfold Covered
  decide +kernel

end instances

end VeilNet.Guarantees.OneApproval
