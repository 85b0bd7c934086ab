import Mathlib.Data.List.Basic

/-!
Programs that act on a machine one command at a time. A program can die between any two commands,
so a run has moments: the states after its first `k` commands. `Ensures` is a weakest precondition
with a crash condition: an invariant at every moment and a postcondition at the end. Fates decide
how commands go wrong, the commands so far can be kept, and two machines can stand side by side.
-/
namespace VeilNet.Lib

/-- A program whose command `c` is answered by a `Reply c`. -/
inductive Script {κ : Type} (Reply : κ → Type) (α : Type) where
  | done (value : α)
  | call (c : κ) (next : Reply c → Script Reply α)

/-- How a machine carries out a command. -/
abbrev Machine {κ : Type} (Reply : κ → Type) (σ : Type) := (c : κ) → σ → Reply c × σ

namespace Script

section programs
variable {κ : Type} {Reply : κ → Type} {α β : Type}

def bind : Script Reply α → (α → Script Reply β) → Script Reply β
  | .done a, f => f a
  | .call c next, f => .call c fun r => (next r).bind f

instance : Monad (Script Reply) where
  pure := .done
  bind := Script.bind

def perform (c : κ) : Script Reply (Reply c) := .call c .done

/-- Every command that the program can issue satisfies `p`. -/
def Only (p : κ → Prop) : Script Reply α → Prop
  | .done _ => True
  | .call c next => p c ∧ ∀ r, (next r).Only p

variable {p q : κ → Prop}

@[simp] theorem only_perform (c : κ) : (perform c : Script Reply (Reply c)).Only p ↔ p c :=
  ⟨fun h => h.1, fun h => ⟨h, fun _ => trivial⟩⟩

theorem Only.bind {x : Script Reply α} {f : α → Script Reply β} (first : x.Only p)
    (rest : ∀ a, (f a).Only p) : (x >>= f).Only p := by
  induction x with
  | done a => exact rest a
  | call c next ih => exact ⟨first.1, fun r => ih r (first.2 r)⟩

theorem only_true (x : Script Reply α) : x.Only fun _ => True := by
  induction x with
  | done a => trivial
  | call c next ih => exact ⟨trivial, ih⟩

theorem Only.mono {x : Script Reply α} (weaker : ∀ c, p c → q c) (h : x.Only p) : x.Only q := by
  induction x with
  | done a => trivial
  | call c next ih => exact ⟨weaker c h.1, fun r => ih r (h.2 r)⟩

end programs

section runs
variable {κ : Type} {Reply : κ → Type} {α β σ : Type} (act : Machine Reply σ)

/-- The result and the state after a whole run. -/
def exec : Script Reply α → σ → α × σ
  | .done a, s => (a, s)
  | .call c next, s => (next (act c s).1).exec (act c s).2

/-- The state after the first `k` commands, where a program that dies leaves it. -/
def after : Script Reply α → ℕ → σ → σ
  | .done _, _, s => s
  | .call _ _, 0, s => s
  | .call c next, k + 1, s => (next (act c s).1).after k (act c s).2

/-- `inv` at every moment of the run and `post` of its result. -/
def Ensures (inv : σ → Prop) (post : α → σ → Prop) : Script Reply α → σ → Prop
  | .done a, s => inv s ∧ post a s
  | .call c next, s => inv s ∧ (next (act c s).1).Ensures inv post (act c s).2

/-- `post` of the result, whatever the moments before. -/
abbrev Ends (post : α → σ → Prop) (x : Script Reply α) (s : σ) : Prop :=
  x.Ensures act (fun _ => True) post s

variable {act} {inv inv' : σ → Prop} {post post' : α → σ → Prop} {s : σ}

@[simp] theorem exec_pure (a : α) : (pure a : Script Reply α).exec act s = (a, s) := rfl

@[simp] theorem exec_perform (c : κ) : (perform c).exec act s = act c s := rfl

@[simp] theorem exec_bind (x : Script Reply α) (f : α → Script Reply β) :
    (x >>= f).exec act s = (f (x.exec act s).1).exec act (x.exec act s).2 := by
  induction x generalizing s with
  | done a => rfl
  | call c next ih => exact ih (act c s).1

variable {x : Script Reply α}

theorem Ensures.now (h : x.Ensures act inv post s) : inv s := by
  cases x with
  | done a => exact h.1
  | call c next => exact h.1

/-- The rule for sequences. -/
@[simp] theorem ensures_bind (x : Script Reply α) (f : α → Script Reply β) {post : β → σ → Prop} :
    (x >>= f).Ensures act inv post s ↔
      x.Ensures act inv (fun a s => (f a).Ensures act inv post s) s := by
  induction x generalizing s with
  | done a => exact ⟨fun h => ⟨h.now, h⟩, fun h => h.2⟩
  | call c next ih => exact and_congr_right fun _ => ih (act c s).1

theorem Ensures.mono (weakerInv : ∀ s, inv s → inv' s)
    (weaker : ∀ a s, inv s → post a s → post' a s) (h : x.Ensures act inv post s) :
    x.Ensures act inv' post' s := by
  induction x generalizing s with
  | done a => exact ⟨weakerInv s h.1, weaker a s h.1 h.2⟩
  | call c next ih => exact ⟨weakerInv s h.1, ih _ h.2⟩

theorem Ensures.ends (h : x.Ensures act inv post s)
    (weaker : ∀ a s, inv s → post a s → post' a s) : x.Ends act post' s :=
  h.mono (fun _ _ => trivial) weaker

/-- The rule for one command. -/
theorem Ensures.step {c : κ} {f : Reply c → Script Reply β} {post : β → σ → Prop} (now : inv s)
    (rest : (f (act c s).1).Ensures act inv post (act c s).2) :
    (perform c >>= f).Ensures act inv post s :=
  ⟨now, rest⟩

/-- The rule for sequences, with what holds in between. -/
theorem Ensures.seq {f : α → Script Reply β} {mid : α → σ → Prop}
    {post : β → σ → Prop} (first : x.Ensures act inv mid s)
    (rest : ∀ a s, inv s → mid a s → (f a).Ensures act inv post s) :
    (x >>= f).Ensures act inv post s :=
  (ensures_bind x f).mpr (first.mono (fun _ h => h) rest)

theorem Ensures.and (h : x.Ensures act inv post s)
    (h' : x.Ensures act inv' post' s) :
    x.Ensures act (fun s => inv s ∧ inv' s) (fun a s => post a s ∧ post' a s) s := by
  induction x generalizing s with
  | done a => exact ⟨⟨h.1, h'.1⟩, h.2, h'.2⟩
  | call c next ih => exact ⟨⟨h.1, h'.1⟩, ih _ h.2 h'.2⟩

theorem Ensures.after (h : x.Ensures act inv post s) (k : ℕ) :
    inv (x.after act k s) := by
  induction x generalizing s k with
  | done a => exact h.1
  | call c next ih =>
    cases k with
    | zero => exact h.1
    | succ k => exact ih _ h.2 k

theorem Ensures.exec (h : x.Ensures act inv post s) :
    post (x.exec act s).1 (x.exec act s).2 := by
  induction x generalizing s with
  | done a => exact h.2
  | call c next ih => exact ih _ h.2

/-- A program whose commands all keep an invariant. -/
theorem ensures_of_only {p : κ → Prop} (only : x.Only p)
    (keeps : ∀ c s, p c → inv s → inv (act c s).2) (start : inv s) :
    x.Ensures act inv (fun _ => inv) s := by
  induction x generalizing s with
  | done a => exact ⟨start, start⟩
  | call c next ih => exact ⟨start, ih _ (only.2 _) (keeps c s only.1 start)⟩

/-- A run ends as `exec` has it. -/
theorem ensures_exec (x : Script Reply α) (s : σ) :
    x.Ends act (fun a t => (a, t) = x.exec act s) s := by
  induction x generalizing s with
  | done a => exact ⟨trivial, rfl⟩
  | call c next ih => exact ⟨trivial, ih _ _⟩

theorem ensures_true (x : Script Reply α) (s : σ) :
    x.Ends act (fun _ _ => True) s := by
  induction x generalizing s with
  | done a => exact ⟨trivial, trivial⟩
  | call c next ih => exact ⟨trivial, ih _ _⟩

end runs

/-! Commands that may go wrong. -/

section fates
variable {κ : Type} {Reply : κ → Type} {φ σ : Type}

/-- A machine together with the fates of the commands to come and the trail of the
commands so far. -/
structure Fated (κ φ σ : Type) where
  state : σ
  fates : List φ
  trail : List (κ × φ)

/-- The next fate is that of the command; when none is left, it is `usual`. -/
def fated (usual : φ) (act : φ → Machine Reply σ) : Machine Reply (Fated κ φ σ) := fun c w =>
  let fate := w.fates.headD usual
  ((act fate c w.state).1, ⟨(act fate c w.state).2, w.fates.tail, w.trail ++ [(c, fate)]⟩)

variable {α : Type} {usual : φ} {act : φ → Machine Reply σ}

/-- The program at the beginning of its run. -/
def Fated.start (s : σ) (fates : List φ) : Fated κ φ σ := ⟨s, fates, []⟩

/-- When all goes as usual, the fates do not matter. -/
theorem Ensures.fated {x : Script Reply α} {inv : σ → Prop} {post : α → σ → Prop}
    {w : Fated κ φ σ} (ordinary : ∀ fate ∈ w.fates, fate = usual)
    (h : x.Ensures (act usual) inv post w.state) :
    x.Ensures (Script.fated usual act) (fun w => inv w.state) (fun a w => post a w.state) w := by
  induction x generalizing w with
  | done a => exact h
  | call c next ih =>
    have here : w.fates.headD usual = usual := by
      cases fates : w.fates with
      | nil => rfl
      | cons fate rest => exact ordinary fate (by rw [fates]; exact List.mem_cons_self)
    have reply : (Script.fated usual act c w).1 = (act usual c w.state).1 := by
      simp only [Script.fated, here]
    have state : (Script.fated usual act c w).2.state = (act usual c w.state).2 := by
      simp only [Script.fated, here]
    refine ⟨h.1, ?_⟩
    have later := h.2
    rw [← reply, ← state] at later
    exact ih _ (fun fate member => ordinary fate (List.mem_of_mem_tail member)) later

end fates

/-! The commands so far. -/

section record
variable {κ : Type} {Reply : κ → Type} {α σ : Type}

/-- The machine with the list of the commands it has been given. -/
def recording (act : Machine Reply σ) : Machine Reply (σ × List κ) := fun c s =>
  ((act c s.1).1, (act c s.1).2, s.2 ++ [c])

/-- Keeping the list changes nothing else. -/
theorem Ensures.recording {act : Machine Reply σ} {x : Script Reply α} {inv : σ → Prop}
    {post : α → σ → Prop} {s : σ × List κ} (h : x.Ensures act inv post s.1) :
    x.Ensures (Script.recording act) (fun s => inv s.1) (fun a s => post a s.1) s := by
  induction x generalizing s with
  | done a => exact h
  | call c next ih => exact ⟨h.1, ih _ h.2⟩

end record

/-! Two machines side by side. -/

section sides
variable {κ κ' : Type} {Reply : κ → Type} {Reply' : κ' → Type} {α β σ σ' τ : Type}

/-- The machine that carries out each command on the side it belongs to. -/
def both (act : Machine Reply σ) (act' : Machine Reply' σ') :
    Machine (Sum.elim Reply Reply') (σ × σ')
  | .inl c, s => ((act c s.1).1, (act c s.1).2, s.2)
  | .inr c, s => ((act' c s.2).1, s.1, (act' c s.2).2)

def left : Script Reply α → Script (Sum.elim Reply Reply') α
  | .done a => .done a
  | .call c next => .call (.inl c) fun r => (next r).left

def right : Script Reply' α → Script (Sum.elim Reply Reply') α
  | .done a => .done a
  | .call c next => .call (.inr c) fun r => (next r).right

/-- A program for one side does there what it does alone, on any machine whose part
`get` answers that side's commands. -/
theorem Ensures.left {act : Machine (Sum.elim Reply Reply') τ} {actLeft : Machine Reply σ}
    (get : τ → σ) {inv : σ → Prop} {post : α → σ → Prop} {x : Script Reply α} {t : τ}
    (part : ∀ c t, (act (.inl c) t).1 = (actLeft c (get t)).1 ∧
      get (act (.inl c) t).2 = (actLeft c (get t)).2) (h : x.Ensures actLeft inv post (get t)) :
    (x.left : Script (Sum.elim Reply Reply') α).Ensures act (fun t => inv (get t))
      (fun a t => post a (get t)) t := by
  induction x generalizing t with
  | done a => exact h
  | call c next ih =>
    obtain ⟨reply, rest⟩ := part c t
    refine ⟨h.1, ?_⟩
    have later := h.2
    rw [← reply, ← rest] at later
    exact ih _ later

theorem Only.left {p : κ → Prop} {x : Script Reply α} (only : x.Only p) :
    (x.left : Script (Sum.elim Reply Reply') α).Only fun c => ∃ c', c = .inl c' ∧ p c' := by
  induction x with
  | done a => trivial
  | call c next ih => exact ⟨⟨c, rfl, only.1⟩, fun r => ih r (only.2 r)⟩

theorem Only.right {p : κ' → Prop} {x : Script Reply' α} (only : x.Only p) :
    (x.right : Script (Sum.elim Reply Reply') α).Only fun c => ∃ c', c = .inr c' ∧ p c' := by
  induction x with
  | done a => trivial
  | call c next ih => exact ⟨⟨c, rfl, only.1⟩, fun r => ih r (only.2 r)⟩

variable {act : Machine Reply σ} {act' : Machine Reply' σ'}

@[simp] theorem exec_left (x : Script Reply α) (s : σ × σ') :
    (x.left : Script (Sum.elim Reply Reply') α).exec (both act act') s =
      ((x.exec act s.1).1, (x.exec act s.1).2, s.2) := by
  induction x generalizing s with
  | done a => rfl
  | call c next ih => exact ih _ _

@[simp] theorem exec_right (x : Script Reply' α) (s : σ × σ') :
    (x.right : Script (Sum.elim Reply Reply') α).exec (both act act') s =
      ((x.exec act' s.2).1, s.1, (x.exec act' s.2).2) := by
  induction x generalizing s with
  | done a => rfl
  | call c next ih => exact ih _ _

theorem Ensures.onLeft {inv : σ → Prop} {post : α → σ → Prop} {x : Script Reply α} {s : σ × σ'}
    (h : x.Ensures act inv post s.1) :
    (x.left : Script (Sum.elim Reply Reply') α).Ensures (both act act') (fun s => inv s.1)
      (fun a s => post a s.1) s :=
  Ensures.left Prod.fst (fun _ _ => ⟨rfl, rfl⟩) h

/-- What is on the left is not touched by a program for the right. -/
theorem ensures_frame (inv : σ → Prop) (x : Script Reply' α) {s : σ × σ'} (now : inv s.1) :
    (x.right : Script (Sum.elim Reply Reply') α).Ensures (both act act') (fun s => inv s.1)
      (fun _ s => inv s.1) s := by
  refine ensures_of_only (only_true x).right ?_ now
  rintro _ s ⟨c, rfl, -⟩ now
  exact now

end sides

end Script

end VeilNet.Lib
