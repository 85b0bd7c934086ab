import Mathlib.Logic.Function.Basic

/-!
The part of the DERO virtual machine that `contracts/veilnet.bas` runs on. `LOAD` on a missing key
panics, and so does using a value at the other type. A frame has no rollback: what it stored
before it returns stays. Gas, and the runtime around a call, are left out.
-/
namespace VeilNet.Source.Contract

inductive Value where
  | string (s : String)
  | uint64 (n : UInt64)
  deriving DecidableEq

abbrev Storage := String → Option Value

inductive Panic where
  | missingKey (key : String)
  | typeMismatch (key : String)

abbrev Exec (α : Type) := StateT Storage (Except Panic) α

def keyExists (key : String) : Exec Bool := fun s => .ok ((s key).isSome, s)

/-- `LOAD(key)` where the program uses the value as a string. -/
def loadString (key : String) : Exec String := fun s =>
  match s key with
  | some (.string v) => .ok (v, s)
  | some (.uint64 _) => .error (.typeMismatch key)
  | none => .error (.missingKey key)

/-- `LOAD(key)` where the program uses the value as a Uint64. -/
def loadUint64 (key : String) : Exec UInt64 := fun s =>
  match s key with
  | some (.uint64 v) => .ok (v, s)
  | some (.string _) => .error (.typeMismatch key)
  | none => .error (.missingKey key)

def store (key : String) (value : Value) : Exec Unit := fun s =>
  .ok ((), Function.update s key (some value))

section run
variable {α β : Type} {s : Storage} {key : String}

@[simp] theorem exec_pure (a : α) : (pure a : Exec α) s = .ok (a, s) := rfl

theorem exec_bind_ok {x : Exec α} {next : α → Exec β} {a : α} {t : Storage}
    (h : x s = .ok (a, t)) : (x >>= next) s = next a t := by
  change (x s >>= fun p => next p.1 p.2) = _
  rw [h]
  rfl

@[simp] theorem exec_ite (c : Prop) [Decidable c] (yes no : Exec α) :
    (if c then yes else no) s = if c then yes s else no s := by
  split <;> rfl

@[simp] theorem keyExists_bind (next : Bool → Exec β) :
    (keyExists key >>= next) s = next (s key).isSome s :=
  exec_bind_ok rfl

@[simp] theorem store_bind (value : Value) (next : Unit → Exec β) :
    (store key value >>= next) s = next () (Function.update s key (some value)) :=
  exec_bind_ok rfl

@[simp] theorem exec_map (f : α → β) (x : Exec α) :
    (f <$> x) s = match x s with
      | .ok (a, t) => .ok (f a, t)
      | .error e => .error e := by
  change (x s >>= fun p => pure (f p.1, p.2)) = _
  cases x s <;> rfl

@[simp] theorem store_apply (value : Value) :
    store key value s = .ok ((), Function.update s key (some value)) := rfl

@[simp] theorem loadString_bind (next : String → Exec β) :
    (loadString key >>= next) s =
      match s key with
      | some (.string v) => next v s
      | some (.uint64 _) => .error (.typeMismatch key)
      | none => .error (.missingKey key) := by
  change (loadString key s >>= fun p => next p.1 p.2) = _
  unfold loadString
  split <;> rfl

@[simp] theorem loadUint64_bind (next : UInt64 → Exec β) :
    (loadUint64 key >>= next) s =
      match s key with
      | some (.uint64 v) => next v s
      | some (.string _) => .error (.typeMismatch key)
      | none => .error (.missingKey key) := by
  change (loadUint64 key s >>= fun p => next p.1 p.2) = _
  unfold loadUint64
  split <;> rfl

end run

end VeilNet.Source.Contract
