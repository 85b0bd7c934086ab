import VeilNet.Source.Wallet
import Mathlib.Algebra.Order.Ring.Rat
import Mathlib.Data.Rat.Cast.Order

/-!
# The hourly budget

`PayApproved` compares one payment with the budget of an hour and never adds up. So over an hour
the budget holds exactly as long as each payment fits into what the hour before it has left.
-/
namespace VeilNet.Guarantees.HourlyBudget
open Lib Source.Wallet

/-- The client and its wallet, and the last clock reading. -/
structure Clocked where
  paying : Paying ℚ
  clock : Time

inductive Op where
  | request (now : Time)
  | pay (p : Payment ℚ)

def Op.time : Op → Time
  | .request now => now
  | .pay p => p.sentAt

variable (s : Clocked)

def step (op : Op) : Clocked :=
  ⟨match op with
    | .request _ => s.paying.request
    | .pay p => (s.paying.payApproved p).2,
    op.time⟩

def start (a : App ℚ) (clock : Time) : Clocked := ⟨⟨a, [], 0⟩, clock⟩

/-- The clock does not go back. -/
def Forward (op : Op) : Prop := s.clock ≤ op.time

/-- The closed hour that opens at `opening`. -/
def inHour (opening : Time) (t : Transfer ℚ) : Prop :=
  opening ≤ t.sentAt ∧ t.sentAt ≤ opening + Duration.hour

instance (opening : Time) (t : Transfer ℚ) : Decidable (inHour opening t) :=
  inferInstanceAs (Decidable (_ ∧ _))

/-- What was sent in the hour that opens at `opening`. -/
def spentIn (opening : Time) (sent : List (Transfer ℚ)) : ℚ :=
  (sent.map fun t => if inHour opening t then t.amountDero else 0).sum

/-- No hour has more transfers than the budget allows. -/
def WithinBudget : Prop :=
  ∀ opening, spentIn opening s.paying.sent ≤ s.paying.app.maxPerHourDero

/-- The wallet is asked for the payment and makes it. -/
def pays (s : Paying ℚ) (p : Payment ℚ) : Bool :=
  match s.app.checkPayment p.dest p.amountDero with
  | .error _ => false
  | .ok (conn, atomic) => (s.transfer p conn s.app.network atomic).isOk

/-- A payment that is made fits into what the hour before it has left. -/
def HourAllows : Op → Prop
  | .request _ => True
  | .pay p => pays s.paying p →
      spentIn (p.sentAt - Duration.hour) s.paying.sent + p.amountDero ≤ s.paying.app.maxPerHourDero

instance (s : Clocked) (op : Op) : Decidable (Forward s op) :=
  inferInstanceAs (Decidable (s.clock ≤ op.time))

instance (s : Clocked) (op : Op) : Decidable (HourAllows s op) := by
  cases op <;> unfold HourAllows <;> infer_instance

section windows
variable {sent : List (Transfer ℚ)}

theorem spentIn_snoc (opening : Time) (sent : List (Transfer ℚ)) (t : Transfer ℚ) :
    spentIn opening (sent ++ [t]) =
      spentIn opening sent + if inHour opening t then t.amountDero else 0 := by
  simp [spentIn]

/-- What an hour saw before `now` is part of what the hour up to `now` saw. -/
theorem spentIn_le_trailing {opening now : Time} (amounts : ∀ t ∈ sent, 0 ≤ t.amountDero)
    (past : ∀ t ∈ sent, t.sentAt ≤ now) (inside : now ≤ opening + Duration.hour) :
    spentIn opening sent ≤ spentIn (now - Duration.hour) sent := by
  refine List.sum_le_sum fun t member => ?_
  have earlier := past t member
  by_cases counted : inHour opening t
  · have trailing : inHour (now - Duration.hour) t := by
      obtain ⟨after, _⟩ := counted
      constructor <;> linarith
    rw [if_pos counted, if_pos trailing]
  · rw [if_neg counted]
    split
    · exact amounts t member
    · exact le_refl 0

/-- One more transfer keeps every hour within the budget exactly if the hour before it
has room for its amount. -/
theorem within_snoc_iff {budget : ℚ} {t : Transfer ℚ} (amounts : ∀ t ∈ sent, 0 ≤ t.amountDero)
    (past : ∀ old ∈ sent, old.sentAt ≤ t.sentAt)
    (within : ∀ opening, spentIn opening sent ≤ budget) :
    (∀ opening, spentIn opening (sent ++ [t]) ≤ budget) ↔
      spentIn (t.sentAt - Duration.hour) sent + t.amountDero ≤ budget := by
  have length : 0 ≤ Duration.hour := by decide
  have last : inHour (t.sentAt - Duration.hour) t := by
    constructor <;> linarith
  constructor
  · intro all
    have trailing := all (t.sentAt - Duration.hour)
    rwa [spentIn_snoc, if_pos last] at trailing
  · intro room opening
    rw [spentIn_snoc]
    split
    · next counted =>
      have part := spentIn_le_trailing amounts past counted.2
      linarith
    · rw [add_zero]
      exact within opening

end windows

/-- Amounts are positive, and nothing was sent after the last clock reading. -/
structure Sound (s : Clocked) : Prop where
  amounts : ∀ t ∈ s.paying.sent, 0 ≤ t.amountDero
  past : ∀ t ∈ s.paying.sent, t.sentAt ≤ s.clock

/-- A payment is not made and changes nothing, or it is the last of the wallet's list. -/
theorem pay_cases (p : Payment ℚ) :
    (pays s.paying p = false ∧ step s (.pay p) = ⟨s.paying, p.sentAt⟩) ∨
    pays s.paying p = true ∧ 0 < p.amountDero ∧
      (step s (.pay p)).paying.app.maxPerHourDero = s.paying.app.maxPerHourDero ∧
      ∃ atomic : UInt64, (step s (.pay p)).paying.sent =
        s.paying.sent ++ [⟨p.sentAt, p.dest, atomic, p.amountDero⟩] := by
  simp only [step, pays, Paying.payApproved]
  cases checked : s.paying.app.checkPayment p.dest p.amountDero with
  | error e => exact .inl ⟨rfl, rfl⟩
  | ok passed =>
    obtain ⟨conn, atomic⟩ := passed
    have positive : 0 < p.amountDero := by
      simpa [GoFloat.le, GoFloat.ofInt] using (of_checkPayment checked).2
    cases made : s.paying.transfer p conn s.paying.app.network atomic with
    | error e =>
      simp only [made]
      exact .inl ⟨rfl, rfl⟩
    | ok out =>
      simp only [made, confirm_sent, confirm_maxPerHourDero, of_transfer made]
      exact .inr ⟨rfl, positive, trivial, atomic.toUInt64, rfl⟩

theorem sound_step (op : Op) (forward : Forward s op) (sound : Sound s) :
    Sound (step s op) := by
  have still : ∀ t ∈ s.paying.sent, t.sentAt ≤ op.time :=
    fun t member => le_trans (sound.past t member) forward
  cases op with
  | request now => exact ⟨sound.amounts, still⟩
  | pay p =>
    rcases pay_cases s p with ⟨_, same⟩ | ⟨_, positive, _, atomic, sent⟩
    · rw [same]
      exact ⟨sound.amounts, still⟩
    · constructor
      · intro t member
        rw [sent, List.mem_append, List.mem_singleton] at member
        rcases member with old | rfl
        · exact sound.amounts t old
        · exact le_of_lt positive
      · intro t member
        rw [sent, List.mem_append, List.mem_singleton] at member
        rcases member with old | rfl
        · exact still t old
        · exact le_refl p.sentAt

theorem within_step_iff (op : Op) (forward : Forward s op) (sound : Sound s)
    (within : WithinBudget s) : WithinBudget (step s op) ↔ HourAllows s op := by
  cases op with
  | request now => exact iff_of_true within trivial
  | pay p =>
    rcases pay_cases s p with ⟨refused, same⟩ | ⟨made, _, budget, atomic, sent⟩
    · rw [same]
      exact iff_of_true within fun impossible => absurd impossible (by simp [refused])
    · have past : ∀ t ∈ s.paying.sent, t.sentAt ≤ p.sentAt :=
        fun t member => le_trans (sound.past t member) forward
      unfold WithinBudget
      rw [sent, budget, within_snoc_iff sound.amounts past within]
      exact ⟨fun room _ => room, fun room => room made⟩

/-- Over a run every hour stays within the budget exactly if each payment that is made
fits into what the hour before it has left. -/
theorem within_budget_iff (a : App ℚ) (budget : 0 < a.maxPerHourDero) (clock : Time)
    (ops : List Op) (forward : Run.Along step Forward (start a clock) ops) :
    Run.Throughout step WithinBudget (start a clock) ops ↔
      Run.Along step HourAllows (start a clock) ops := by
  refine Run.throughout_iff_along ?_ ?_ sound_step within_step_iff forward
  · exact ⟨fun t member => (List.not_mem_nil member).elim,
      fun t member => (List.not_mem_nil member).elim⟩
  · exact fun _ => le_of_lt budget

/-- A payment that the wallet makes. -/
def paid (amountDero : ℚ) (sentAt : Time) : Payment ℚ :=
  ⟨"dero1q", amountDero, sentAt, .ok "tx", ⟨"r", sentAt, .ok ()⟩⟩

/-- Half the budget twice in one hour. -/
theorem within_two_halves :
    Run.Throughout step WithinBudget (start client 0)
      [.request 0, .pay (paid (1 / 2) 1), .request 2, .pay (paid (1 / 2) 3)] :=
  (within_budget_iff client (by decide) 0 _ (by decide)).mpr (by decide +kernel)

/-- The whole budget twice in one hour. -/
theorem budget_spent_twice :
    ¬ Run.Throughout step WithinBudget (start client 0)
      [.request 0, .pay (paid 1 1), .request 2, .pay (paid 1 3)] := by
  intro within
  have bound := within.last 0
  revert bound
  decide +kernel

end VeilNet.Guarantees.HourlyBudget
