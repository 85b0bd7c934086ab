import Mathlib.Init

/-!
Computations that may fail: the guard `if cond { return err }`, and how to peel
a successful computation apart.
-/
namespace VeilNet.Lib.Outcome

/-- `if cond { return err }`. -/
def refuseIf {ε : Type} (cond : Prop) [Decidable cond] (err : ε) : Except ε Unit :=
  if cond then .error err else .ok ()

variable {ε α β : Type} {first : Except ε α}

theorem of_bind_ok {next : α → Except ε β} {value : β}
    (h : (first >>= next) = .ok value) : ∃ x, first = .ok x ∧ next x = .ok value := by
  cases first with
  | error e => cases h
  | ok x => exact ⟨x, rfl, h⟩

theorem of_refuseIf_ok {ε : Type} {cond : Prop} [Decidable cond] {err : ε} {u : Unit}
    (h : refuseIf cond err = .ok u) : ¬ cond := by
  unfold refuseIf at h
  split at h
  · cases h
  · assumption

theorem of_mapError_ok {ε ε' α : Type} {first : Except ε α} {f : ε → ε'} {value : α}
    (h : first.mapError f = .ok value) : first = .ok value := by
  cases first with
  | error e => cases h
  | ok x =>
    cases h
    rfl

theorem of_map_ok {f : α → β} {value : β}
    (h : first.map f = .ok value) : ∃ x, first = .ok x ∧ f x = value := by
  cases first with
  | error e => cases h
  | ok x =>
    cases h
    exact ⟨x, rfl, rfl⟩

theorem of_toOption {ε α : Type} {first : Except ε α} {value : α}
    (h : first.toOption = some value) : first = .ok value := by
  cases first with
  | error e => cases h
  | ok x =>
    cases h
    rfl

theorem bind_ok_iff {next : α → Except ε β} {value : β} :
    (first >>= next) = .ok value ↔ ∃ x, first = .ok x ∧ next x = .ok value := by
  constructor
  · exact of_bind_ok
  · rintro ⟨x, rfl, h⟩
    exact h

theorem refuseIf_ok_iff {ε : Type} {cond : Prop} [Decidable cond] {err : ε} {u : Unit} :
    refuseIf cond err = .ok u ↔ ¬ cond := by
  constructor
  · exact of_refuseIf_ok
  · exact fun allowed => if_neg allowed

/-- A loop of checks that stops at the first failure has passed every element. -/
theorem forall_of_checks {ε α : Type} {check : List α → Except ε Unit} {P : α → Prop}
    (first : ∀ a rest, check (a :: rest) = .ok () → P a ∧ check rest = .ok ()) {items : List α}
    (checked : check items = .ok ()) : ∀ a ∈ items, P a := by
  induction items with
  | nil => exact fun a member => (List.not_mem_nil member).elim
  | cons head rest ih =>
    obtain ⟨holds, checked⟩ := first head rest checked
    intro a member
    obtain rfl | later := List.mem_cons.mp member
    · exact holds
    · exact ih checked a later

theorem foldlM_append_ok {ε α σ : Type} {step : σ → α → Except ε σ} {front : List α} {s t : σ}
    (passed : front.foldlM step s = .ok t) (back : List α) :
    (front ++ back).foldlM step s = back.foldlM step t := by
  rw [List.foldlM_append, passed]
  rfl

/-- What every step keeps, a loop that does not fail keeps. -/
theorem foldlM_invariant {ε α σ : Type} {step : σ → α → Except ε σ} {Inv : σ → Prop}
    {items : List α}
    (keeps : ∀ a ∈ items, ∀ s t, Inv s → step s a = .ok t → Inv t) {s t : σ} (init : Inv s)
    (passed : items.foldlM step s = .ok t) : Inv t := by
  induction items generalizing s with
  | nil =>
    cases passed
    exact init
  | cons a rest ih =>
    rw [List.foldlM_cons] at passed
    obtain ⟨next, first, passed⟩ := of_bind_ok passed
    exact ih (fun b member => keeps b (List.mem_cons_of_mem a member))
      (keeps a List.mem_cons_self s next init first) passed

theorem isOk_iff {ε : Type} {first : Except ε Unit} : first.isOk = true ↔ first = .ok () := by
  cases first with
  | error e => simp [Except.isOk, Except.toBool]
  | ok u => simp [Except.isOk, Except.toBool]

end VeilNet.Lib.Outcome
