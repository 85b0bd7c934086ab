import VeilNet.Lib.Run
import VeilNet.Lib.Slots

/-!
Tasks that run concurrently on a shared state. A task is what is left of its program; one step
takes one task through its next atomic section, and a schedule lists the tasks that take a step.
-/
namespace VeilNet.Lib.Threads

structure Pool (σ τ : Type*) where
  shared : σ
  tasks : List τ

variable {σ τ : Type*}

/-- Task `i` takes its next step; a position without a task is no step. -/
def step (next : σ → τ → σ × τ) (p : Pool σ τ) (i : ℕ) : Pool σ τ :=
  match p.tasks[i]? with
  | none => p
  | some t => ⟨(next p.shared t).1, p.tasks.set i (next p.shared t).2⟩

variable {next : σ → τ → σ × τ} {p : Pool σ τ} {i : ℕ}

/-- A step changes nothing, or it moves one task on and leaves the others. -/
theorem step_cases (next : σ → τ → σ × τ) (p : Pool σ τ) (i : ℕ) :
    step next p i = p ∨
    ∃ front t back, p.tasks[i]? = some t ∧ p.tasks = front ++ t :: back ∧
      p.tasks.eraseIdx i = front ++ back ∧
      step next p i = ⟨(next p.shared t).1, front ++ (next p.shared t).2 :: back⟩ := by
  unfold step
  cases found : p.tasks[i]? with
  | none => exact .inl rfl
  | some t =>
    obtain ⟨front, back, whole, erased, replaced⟩ := Slots.split_at found
    exact .inr ⟨front, t, back, rfl, whole, erased, by simp only [replaced]⟩

/-- The task that moved. -/
theorem getElem?_step (next : σ → τ → σ × τ) {t : τ} (found : p.tasks[i]? = some t) :
    step next p i = ⟨(next p.shared t).1, p.tasks.set i (next p.shared t).2⟩ ∧
      (step next p i).tasks[i]? = some (next p.shared t).2 := by
  have bound : i < p.tasks.length := (List.getElem?_eq_some_iff.mp found).1
  simp only [step, found, List.getElem?_set_self bound, and_self]

theorem length_run (next : σ → τ → σ × τ) (p : Pool σ τ) (schedule : List ℕ) :
    (Run.run (step next) p schedule).tasks.length = p.tasks.length := by
  induction schedule generalizing p with
  | nil => rfl
  | cons i rest ih =>
    rw [Run.run_cons, ih]
    rcases step_cases next p i with same | ⟨front, t, back, _, tasks, _, moved⟩
    · rw [same]
    · rw [moved, tasks, List.length_append, List.length_append]
      rfl

/-- When at most one task satisfies `q` and the moving one does, no other does. -/
theorem others_of_countP {q : τ → Bool} {front back : List τ} {t : τ}
    (one : (front ++ t :: back).countP q ≤ 1) (here : q t = true) :
    (front ++ back).countP q = 0 := by
  rw [Slots.countP_middle, here, Bool.toNat_true] at one
  omega

/-- Task `i` takes its next step, with which it may start further tasks. -/
def fork (next : σ → τ → σ × τ × List τ) (p : Pool σ τ) (i : ℕ) : Pool σ τ :=
  match p.tasks[i]? with
  | none => p
  | some t =>
    let out := next p.shared t
    ⟨out.1, p.tasks.set i out.2.1 ++ out.2.2⟩

/-- A step changes nothing, or it moves one task on, leaves the others and adds the new. -/
theorem fork_cases (next : σ → τ → σ × τ × List τ) (p : Pool σ τ) (i : ℕ) :
    fork next p i = p ∨
    ∃ front t back, p.tasks[i]? = some t ∧ p.tasks = front ++ t :: back ∧
      fork next p i = ⟨(next p.shared t).1,
        front ++ (next p.shared t).2.1 :: (back ++ (next p.shared t).2.2)⟩ := by
  unfold fork
  cases found : p.tasks[i]? with
  | none => exact .inl rfl
  | some t =>
    obtain ⟨front, back, whole, _, replaced⟩ := Slots.split_at found
    refine .inr ⟨front, t, back, rfl, whole, ?_⟩
    simp [replaced]

/-- One task alone. -/
@[simp] theorem step_single (s : σ) (t : τ) :
    step next ⟨s, [t]⟩ 0 = ⟨(next s t).1, [(next s t).2]⟩ := rfl

end VeilNet.Lib.Threads
