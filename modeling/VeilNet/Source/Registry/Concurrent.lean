import VeilNet.Source.Registry.Store
import VeilNet.Lib.Threads

/-!
The writing calls of `internal/registry/registry.go` as tasks. The mutex covers the change of the
maps and, taken again, the snapshot; the temporary file is written and renamed without it, under
one name for all. Each is one step, with the local work that follows it.
-/
namespace VeilNet.Source.Registry
open Lib

/-- What is left of a call. `data` is the encoded snapshot. -/
inductive Writer (F : Type) where
  | change (call : Call F) (out : Outcomes)
  | snapshot (call : Call F) (out : Outcomes)
  | write (call : Call F) (out : Outcomes) (data : List UInt8)
  | rename (call : Call F) (out : Outcomes) (data : List UInt8)
  | done (result : Option (Error F))

/-- The maps and the disk, which all calls share. -/
structure Shared (F : Type) where
  store : Store F
  disk : Disk

section tasks
variable {F : Type} [GoFloat F] (codec : Codec F)

def Writer.next (g : Shared F) : Writer F → Shared F × Writer F
  | .change call out =>
    match g.store.locked codec call with
    | .error e => (g, .done (some e))
    | .ok (_, store) =>
      ({ g with store },
        if store.path = "" then .done (callMirror out store call.op) else .snapshot call out)
  | .snapshot call out =>
    (g, match codec.marshalNodes g.store.nodes with
      | .error err => .done (some (.file err))
      | .ok data => .write call out data)
  | .write call out data =>
    match writeTmp out g.disk data with
    | (some e, disk) => ({ g with disk }, .done (some e))
    | (none, disk) => ({ g with disk }, .rename call out data)
  | .rename call out _ =>
    match renameTmp out g.disk with
    | (some e, disk) => ({ g with disk }, .done (some e))
    | (none, disk) => ({ g with disk }, .done (callMirror out g.store call.op))
  | .done result => (g, .done result)

/-- A call that nothing interrupts is the sequential one. -/
theorem solo_perform (out : Outcomes) (s : Store F) (d : Disk) (call : Call F) :
    Run.run (Threads.step (Writer.next codec)) ⟨⟨s, d⟩, [.change call out]⟩ [0, 0, 0, 0] =
      ⟨⟨(perform codec out s d call).2.1, (perform codec out s d call).2.2⟩,
        [.done (perform codec out s d call).1]⟩ := by
  rw [Run.run_cons, Threads.step_single, Writer.next, perform]
  cases s.locked codec call with
  | error e => rfl
  | ok changed =>
    obtain ⟨n, s'⟩ := changed
    dsimp only
    rw [save]
    split
    · rfl
    · rw [Run.run_cons, Threads.step_single, Writer.next]
      cases codec.marshalNodes s'.nodes with
      | error err => rfl
      | ok data =>
        dsimp only
        rw [Run.run_cons, Threads.step_single, Writer.next]
        rcases writeTmp out d data with ⟨_ | e, d'⟩
        · dsimp only
          rw [Run.run_cons, Threads.step_single, Writer.next]
          dsimp only
          rcases renameTmp out d' with ⟨_ | e, d''⟩ <;> rfl
        · rfl

end tasks

end VeilNet.Source.Registry
