import Mathlib.Data.List.Basic
import Mathlib.Data.List.Induction

/-!
Runs of a deterministic step function. `Along` is a premise on every step of a run, read in the
state the step starts from; `Throughout` is a conclusion about every state. The invariant rule
turns one step lemma into a statement about whole runs.
-/
namespace VeilNet.Lib.Run

variable {σ α : Type*}

/-- The state after a whole run. -/
def run (step : σ → α → σ) (s : σ) (ops : List α) : σ :=
  ops.foldl step s

/-- Each operation of the run paired with the state it is applied to. -/
def trace (step : σ → α → σ) : σ → List α → List (σ × α)
  | _, [] => []
  | s, a :: rest => (s, a) :: trace step (step s a) rest

/-- Every operation of the run meets `cond` in the state it is applied to. -/
def Along (step : σ → α → σ) (cond : σ → α → Prop) : σ → List α → Prop
  | _, [] => True
  | s, a :: rest => cond s a ∧ Along step cond (step s a) rest

/-- `P` holds in every state of the run, the first and the last included. -/
def Throughout (step : σ → α → σ) (P : σ → Prop) : σ → List α → Prop
  | s, [] => P s
  | s, a :: rest => P s ∧ Throughout step P (step s a) rest

instance Along.decidable (step : σ → α → σ) (cond : σ → α → Prop) [∀ s a, Decidable (cond s a)] :
    ∀ s ops, Decidable (Along step cond s ops)
  | _, [] => isTrue trivial
  | s, a :: rest =>
    have := Along.decidable step cond (step s a) rest
    inferInstanceAs (Decidable (_ ∧ _))

variable {step : σ → α → σ} {cond cond' : σ → α → Prop} {P Inv : σ → Prop} {s : σ} {ops : List α}

@[simp] theorem run_nil : run step s [] = s := rfl

@[simp] theorem run_cons (a : α) : run step s (a :: ops) = run step (step s a) ops := rfl

theorem run_append (front back : List α) :
    run step s (front ++ back) = run step (run step s front) back :=
  List.foldl_append

theorem run_snoc (a : α) : run step s (ops ++ [a]) = step (run step s ops) a := by
  rw [run_append, run_cons, run_nil]

theorem trace_append (front back : List α) :
    trace step s (front ++ back) = trace step s front ++ trace step (run step s front) back := by
  induction front generalizing s with
  | nil => rfl
  | cons a rest ih => simp [trace, ih, run_cons]

theorem trace_snoc (a : α) :
    trace step s (ops ++ [a]) = trace step s ops ++ [(run step s ops, a)] :=
  trace_append ops [a]

/-- A trace entry is an operation of the run together with the state that the
operations before it lead to. -/
theorem mem_trace {t : σ} {a : α} (member : (t, a) ∈ trace step s ops) :
    ∃ front back, ops = front ++ a :: back ∧ t = run step s front := by
  induction ops generalizing s with
  | nil => cases member
  | cons b rest ih =>
    simp only [trace, List.mem_cons, Prod.mk.injEq] at member
    rcases member with ⟨rfl, rfl⟩ | later
    · exact ⟨[], rest, rfl, rfl⟩
    · obtain ⟨front, back, rfl, rfl⟩ := ih later
      exact ⟨b :: front, back, rfl, rfl⟩

theorem along_of_mem (holds : ∀ a ∈ ops, ∀ s, cond s a) : Along step cond s ops := by
  induction ops generalizing s with
  | nil => trivial
  | cons a rest ih =>
    exact ⟨holds a List.mem_cons_self s, ih fun b member => holds b (List.mem_cons_of_mem a member)⟩

theorem along_iff_forall_mem {good : α → Prop} :
    Along step (fun _ a => good a) s ops ↔ ∀ a ∈ ops, good a := by
  induction ops generalizing s with
  | nil => simp [Along]
  | cons a rest ih => simp [Along, ih]

theorem along_of_forall (holds : ∀ s a, cond s a) : Along step cond s ops :=
  along_of_mem fun a _ s => holds s a

theorem Along.and (h : Along step cond s ops) (h' : Along step cond' s ops) :
    Along step (fun s a => cond s a ∧ cond' s a) s ops := by
  induction ops generalizing s with
  | nil => trivial
  | cons a rest ih => exact ⟨⟨h.1, h'.1⟩, ih h.2 h'.2⟩

theorem Throughout.mono {Q : σ → Prop} (weaker : ∀ s, P s → Q s) (h : Throughout step P s ops) :
    Throughout step Q s ops := by
  induction ops generalizing s with
  | nil => exact weaker s h
  | cons a rest ih => exact ⟨weaker s h.1, ih h.2⟩

theorem Throughout.last (h : Throughout step P s ops) : P (run step s ops) := by
  induction ops generalizing s with
  | nil => exact h
  | cons a rest ih => exact ih h.2

/-- What holds in every state can be strengthened one state after the other. -/
theorem Throughout.strengthen {Q : σ → Prop} (start : Q s)
    (stronger : ∀ s a, Q s → P (step s a) → Q (step s a)) (h : Throughout step P s ops) :
    Throughout step Q s ops := by
  induction ops generalizing s with
  | nil => exact start
  | cons a rest ih =>
    have next : P (step s a) := by
      cases rest with
      | nil => exact h.2
      | cons b later => exact h.2.1
    exact ⟨start, ih (stronger s a start next) h.2⟩

/-- The invariant rule, for a run whose steps may carry a premise. -/
theorem throughout_of_invariant (init : Inv s)
    (preserved : ∀ s a, cond s a → Inv s → Inv (step s a))
    (premise : Along step cond s ops) : Throughout step Inv s ops := by
  induction ops generalizing s with
  | nil => exact init
  | cons a rest ih => exact ⟨init, ih (preserved s a premise.1 init) premise.2⟩

theorem throughout_of_step (init : Inv s) (preserved : ∀ s a, Inv s → Inv (step s a)) :
    Throughout step Inv s ops := by
  induction ops generalizing s with
  | nil => exact init
  | cons a rest ih => exact ⟨init, ih (preserved s a init)⟩

/-- The invariant rule for a conclusion about each step, its state included. -/
theorem along_of_invariant (init : Inv s) (preserved : ∀ s a, cond s a → Inv s → Inv (step s a))
    (implied : ∀ s a, cond s a → Inv s → cond' s a)
    (premise : Along step cond s ops) : Along step cond' s ops := by
  induction ops generalizing s with
  | nil => trivial
  | cons a rest ih =>
    exact ⟨implied s a premise.1 init, ih (preserved s a premise.1 init) premise.2⟩

/-- The converse of the invariant rule: what the states around each step imply
about the step. -/
theorem along_of_throughout (implied : ∀ s a, P s → P (step s a) → cond s a)
    (h : Throughout step P s ops) : Along step cond s ops := by
  induction ops generalizing s with
  | nil => trivial
  | cons a rest ih =>
    have next : P (step s a) := by
      cases rest with
      | nil => exact h.2
      | cons b later => exact h.2.1
    exact ⟨implied s a h.1 next, ih h.2⟩

theorem along_congr (agree : ∀ s a, cond s a ↔ cond' s a) :
    Along step cond s ops ↔ Along step cond' s ops := by
  induction ops generalizing s with
  | nil => exact Iff.rfl
  | cons a rest ih => exact and_congr (agree s a) ih

/-- Under an invariant, premises that agree on each step agree on a run. -/
theorem along_iff_along (init : Inv s) (preserved : ∀ s a, Inv s → Inv (step s a))
    (agree : ∀ s a, Inv s → (cond s a ↔ cond' s a)) :
    Along step cond s ops ↔ Along step cond' s ops := by
  induction ops generalizing s with
  | nil => exact Iff.rfl
  | cons a rest ih => exact and_congr (agree s a init) (ih (preserved s a init))

/-- When, under an invariant, each step keeps `P` exactly if it meets `cond'`, then
`P` holds throughout a run exactly if all of its steps meet `cond'`. -/
theorem throughout_iff_along (init : Inv s) (holds : P s)
    (preserved : ∀ s a, cond s a → Inv s → Inv (step s a))
    (keeps : ∀ s a, cond s a → Inv s → P s → (P (step s a) ↔ cond' s a))
    (premise : Along step cond s ops) : Throughout step P s ops ↔ Along step cond' s ops := by
  induction ops generalizing s with
  | nil => exact iff_of_true holds trivial
  | cons a rest ih =>
    have here := keeps s a premise.1 init holds
    have later := fun next => ih (preserved s a premise.1 init) next premise.2
    constructor
    · intro ⟨_, after⟩
      have next : P (step s a) := by
        cases rest with
        | nil => exact after
        | cons b more => exact after.1
      exact ⟨here.mp next, (later next).mp after⟩
    · intro ⟨met, after⟩
      exact ⟨holds, (later (here.mpr met)).mpr after⟩

/-- When `Inv` implies `P`, and from a state with `Inv` each step to `P` meets `cond'` and leads
to `Inv`, then `P` holds throughout a run exactly if all steps meet `cond'`. -/
theorem throughout_iff_along_of_stronger (init : Inv s) (implies : ∀ s, Inv s → P s)
    (preserved : ∀ s a, cond s a → Inv s → cond' s a → Inv (step s a))
    (keeps : ∀ s a, cond s a → Inv s → P (step s a) → cond' s a)
    (premise : Along step cond s ops) : Throughout step P s ops ↔ Along step cond' s ops := by
  induction ops generalizing s with
  | nil => exact iff_of_true (implies s init) trivial
  | cons a rest ih =>
    have later := fun met => ih (preserved s a premise.1 init met) premise.2
    constructor
    · intro h
      have next : P (step s a) := by
        cases rest with
        | nil => exact h.2
        | cons b more => exact h.2.1
      have met := keeps s a premise.1 init next
      exact ⟨met, (later met).mp h.2⟩
    · intro h
      exact ⟨implies s init, (later h.1).mpr h.2⟩

end VeilNet.Lib.Run
