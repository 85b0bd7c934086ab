import VeilNet.Source.Multihop.Concurrent
import VeilNet.Guarantees.HopSeparation

/-!
# Interleaved rotations

Any number of rotations run on one rotator, each section under its lock one step.
`RotateDownstream` builds on the circuit it read in an earlier section, so a rotation in between
is lost: its hop comes back, and the history and the callback name a circuit that was not current.
While no section that may replace the circuit falls between the two of another rotation, every
rotation replaces the circuit it was computed from.
-/
namespace VeilNet.Guarantees.RotatorUpdates
open Lib Source.Multihop

variable {F : Type}

/-- The hops that the operation of a task promises to keep. -/
def Keeps (t : Rotation F) (old next : Circuit F) : Prop :=
  match t with
  | .entry .. => (Circuit.nodes (some next)).tail = (Circuit.nodes (some old)).tail
  | .exit .. => (Circuit.nodes (some next)).dropLast = (Circuit.nodes (some old)).dropLast
  | .downstream .. | .replace .. =>
    (Circuit.nodes (some next)).head? = (Circuit.nodes (some old)).head?
  | .callback .. | .done _ => True

/-- The next section of the task may replace the circuit. -/
def mayReplace : Rotation F → Bool
  | .entry _ _ newEntry _ => newEntry.validate.isOk
  | .exit _ _ newExit _ => newExit.validate.isOk
  | .replace .. => true
  | .downstream .. | .callback .. | .done _ => false

/-- When a task takes a section that may replace the circuit, no other task is between
the two sections of `RotateDownstream`. -/
def undisturbed (p : Threads.Pool (Rotating F) (Rotation F)) (i : ℕ) : Bool :=
  match p.tasks[i]? with
  | none => true
  | some t => mayReplace t → (p.tasks.eraseIdx i).countP Rotation.pending = 0

/-- What a rotation between its sections carries, if nothing intervened. -/
def Fresh (current : Circuit F) : Rotation F → Prop
  | .replace _ _ old next => old = current ∧
      (Circuit.nodes (some next)).head? = (Circuit.nodes (some old)).head?
  | .entry .. | .exit .. | .downstream .. | .callback .. | .done _ => True

theorem fresh_of_not_pending {t : Rotation F} (idle : t.pending = false) (current : Circuit F) :
    Fresh current t := by
  cases t with
  | replace => cases idle
  | entry | exit | downstream | callback | done => trivial

variable [GoFloat F]

variable (codec : Codec)

/-- If the step commits a rotation, with a new record in the history, then it replaces the
circuit that the rotation was computed from. -/
def ReplacesCurrent (p : Threads.Pool (Rotating F) (Rotation F)) (i : ℕ) : Prop :=
  let after := Threads.step (Rotation.next codec) p i
  let old := p.shared.rotator.current
  let next := after.shared.rotator.current
  ∀ t record, p.tasks[i]? = some t →
    after.shared.rotator.history = p.shared.rotator.history ++ [record] →
    Keeps t old next ∧ record.oldEntry = old.entry.nodeID ∧
      ∃ t', after.tasks[i]? = some t' ∧
        ∀ g, (t'.next codec g).1.rotated = g.rotated ++ [(old, next)]

/-- What one section does: it leaves the circuit and the history, or it was allowed to
replace the circuit and did so. -/
inductive Section (g : Rotating F) (t : Rotation F) : Rotating F × Rotation F → Prop
  | keeps {g' t'} (same : g'.rotator = g.rotator) (fresh : Fresh g.rotator.current t') :
      Section g t (g', t')
  | replaces {g' record next} (may : mayReplace t = true)
      (installed : g'.rotator = ⟨next, g.rotator.history ++ [record]⟩)
      (kept : Keeps t g.rotator.current next)
      (replaced : record.oldEntry = g.rotator.current.entry.nodeID) :
      Section g t (g', .callback g.rotator.current next)

theorem section_next (g : Rotating F) (t : Rotation F)
    (fresh : Fresh g.rotator.current t) : Section g t (t.next codec g) := by
  cases t with
  | entry stamp rotatedAt newEntry reason =>
    rcases rotateEntry_cases codec stamp rotatedAt g.rotator newEntry reason with
      ⟨e, refused⟩ | ⟨next, record, valid, replaced, kept, rotated⟩
    · rw [Rotation.next, Rotating.after, refused]
      exact .keeps rfl trivial
    · rw [Rotation.next, Rotating.after, rotated]
      exact .replaces (by rw [mayReplace, valid]; rfl) rfl kept replaced
  | exit stamp rotatedAt newExit reason =>
    rcases rotateExit_cases codec stamp rotatedAt g.rotator newExit reason with
      ⟨e, refused⟩ | ⟨next, record, valid, replaced, kept, rotated⟩
    · rw [Rotation.next, Rotating.after, refused]
      exact .keeps rfl trivial
    · rw [Rotation.next, Rotating.after, rotated]
      exact .replaces (by rw [mayReplace, valid]; rfl) rfl kept replaced
  | downstream stamp rotatedAt newMiddle newExit reason =>
    simp only [Rotation.next]
    split
    · exact .keeps rfl trivial
    · next three =>
      refine .keeps rfl ?_
      split
      · trivial
      · next built =>
        split
        · trivial
        · refine ⟨rfl, ?_⟩
          rw [nodes_buildThreeHopCircuit built, Circuit.nodes, if_pos (not_not.mp three)]
          rfl
  | replace rotatedAt reason old next =>
    obtain ⟨rfl, kept⟩ := fresh
    exact .replaces rfl rfl kept rfl
  | callback old next => exact .keeps rfl trivial
  | done result => exact .keeps rfl trivial

/-- Every rotation between its sections still has the current circuit in hand. -/
def AllFresh (p : Threads.Pool (Rotating F) (Rotation F)) : Prop :=
  ∀ t ∈ p.tasks, Fresh p.shared.rotator.current t

theorem allFresh_step (p : Threads.Pool (Rotating F) (Rotation F)) (i : ℕ)
    (alone : undisturbed p i = true) (h : AllFresh p) :
    AllFresh (Threads.step (Rotation.next codec) p i) := by
  rcases Threads.step_cases (Rotation.next codec) p i with
    same | ⟨front, t, back, found, tasks, erased, moved⟩
  · rw [same]
    exact h
  · have shape := section_next codec p.shared t (h t (by simp [tasks]))
    rw [moved]
    intro t' member
    generalize t.next codec p.shared = outcome at shape member ⊢
    cases shape with
    | keeps same fresh =>
      rw [same]
      rcases Slots.mem_replaced (a := t) member with rfl | old
      · exact fresh
      · exact h t' (by rw [tasks]; exact old)
    | replaces may =>
      -- Nobody else has a circuit in hand, so nobody is left with the replaced one.
      simp only [undisturbed, found, may, erased, forall_const, decide_eq_true_eq] at alone
      have idle : t'.pending = false := by
        simp only [List.mem_append, List.mem_cons] at member
        rcases member with inFront | rfl | inBack
        · exact Bool.eq_false_of_not_eq_true (List.countP_eq_zero.mp alone t' (by simp [inFront]))
        · rfl
        · exact Bool.eq_false_of_not_eq_true (List.countP_eq_zero.mp alone t' (by simp [inBack]))
      exact fresh_of_not_pending idle _

theorem replacesCurrent_of_allFresh
    (p : Threads.Pool (Rotating F) (Rotation F)) (i : ℕ) (h : AllFresh p) :
    ReplacesCurrent codec p i := by
  intro t record found grown
  obtain ⟨moved, here⟩ := Threads.getElem?_step (Rotation.next codec) found
  have shape := section_next codec p.shared t (h t (List.mem_of_getElem? found))
  have shared : (Threads.step (Rotation.next codec) p i).shared = (t.next codec p.shared).1 := by
    rw [moved]
  rw [shared] at grown ⊢
  generalize t.next codec p.shared = outcome at shape grown here ⊢
  cases shape with
  | keeps same =>
    rw [same] at grown
    simp at grown
  | replaces may installed kept replaced =>
    rw [installed] at grown ⊢
    obtain rfl : _ = record := List.singleton_inj.mp (List.append_cancel_left grown)
    exact ⟨kept, replaced, _, here, fun g => rfl⟩

/-- In every interleaving in which no section that may replace the circuit falls between
the two sections of another rotation, every rotation that commits replaces the circuit it
was computed from. -/
theorem replacesCurrent_of_undisturbed (codec : Codec) (g : Rotating F)
    (calls : List (Rotation F)) (begun : ∀ t ∈ calls, t.fresh = true) (schedule : List ℕ)
    (alone : Run.Along (Threads.step (Rotation.next codec)) (fun p i => undisturbed p i = true)
      ⟨g, calls⟩ schedule) :
    Run.Along (Threads.step (Rotation.next codec)) (ReplacesCurrent codec) ⟨g, calls⟩ schedule := by
  have start : AllFresh ⟨g, calls⟩ := by
    intro t member
    refine fresh_of_not_pending ?_ _
    have fresh := begun t member
    cases t with
    | replace => cases fresh
    | entry | exit | downstream | callback | done => rfl
  exact Run.along_of_invariant start (allFresh_step codec)
    (fun p i _ h => replacesCurrent_of_allFresh codec p i h) alone

section instances
open HopSeparation (someNode someCircuit)

def someRotator : Rotating ℚ := ⟨⟨someCircuit, []⟩, []⟩

/-- New middle and exit, and a new entry. -/
def someCalls : List (Rotation ℚ) :=
  [.downstream someStamp 1 (someNode "d") (someNode "e") "scheduled",
    .entry someStamp 2 (someNode "f") "scheduled"]

/-- One after the other: entry f with the middle d and the exit e. -/
theorem rotations_in_turn :
    Run.Along (Threads.step (Rotation.next plainCodec)) (ReplacesCurrent plainCodec)
        ⟨someRotator, someCalls⟩ [0, 0, 0, 1, 1] ∧
      (Run.run (Threads.step (Rotation.next plainCodec)) ⟨someRotator, someCalls⟩
        [0, 0, 0, 1, 1]).shared.rotated.map (fun pair => pair.1.entry.nodeID) = ["a", "a"] :=
  ⟨replacesCurrent_of_undisturbed plainCodec someRotator someCalls (by decide) [0, 0, 0, 1, 1]
    (by decide), by decide⟩

/-- The rotation with the circuit a, b, c in hand. -/
def overtaken : Rotation ℚ :=
  .replace 1 "scheduled" someCircuit ⟨"c-0", 3, someNode "a", someNode "d", someNode "e", 0⟩

/-- The entry rotates while the downstream rotation builds: a, though it was replaced by f,
is the entry again, and the record says that a made way for a. -/
theorem entry_rotation_lost :
    let p := Run.run (Threads.step (Rotation.next plainCodec)) ⟨someRotator, someCalls⟩ [0, 1]
    p.shared.rotator.current.entry = someNode "f" ∧ ¬ ReplacesCurrent plainCodec p 0 := by
  refine ⟨by decide, fun replaces => ?_⟩
  obtain ⟨_, replaced, _⟩ := replaces overtaken ⟨1, "a", "a", "", "scheduled"⟩ rfl rfl
  have differ : "a" ≠ (Run.run (Threads.step (Rotation.next plainCodec))
      ⟨someRotator, someCalls⟩ [0, 1]).shared.rotator.current.entry.nodeID := by decide
  exact differ replaced

end instances

end VeilNet.Guarantees.RotatorUpdates
