import VeilNet.Source.Client.Effects
import VeilNet.Lib.Run

/-!
# A pinned guard and the circuit record

The seven parallel fields of the circuit describe one path of one to three nodes in every run. A
rotation of a pinned circuit keeps its guard exactly when there is another hop: a single hop is
the exit, which is replaced.
-/
namespace VeilNet.Guarantees.StickyGuard
open Lib Source Source.Client

theorem one_to_three {α : Type} {l : List α} (any : 1 ≤ l.length) (few : l.length ≤ 3) :
    (∃ n, l = [n]) ∨ (∃ n m, l = [n, m]) ∨ ∃ n m k, l = [n, m, k] := by
  rw [← List.length_eq_one_iff, ← List.length_eq_two, ← List.length_eq_three]
  omega

section record
variable {F : Type} [GoFloatDiff F]

/-- The circuit is the record of the path. -/
structure Describes (provider : Provider F) (c : Circuit F) (path : List (NodeInfo F)) : Prop where
  offered : ∀ n ∈ path, Offered provider n
  size : 1 ≤ path.length ∧ path.length ≤ 3
  hops : c.hops = path.map NodeInfo.nodeID
  countries : c.countries = path.map NodeInfo.country
  prices : c.prices = path.map NodeInfo.pricePerHourDero
  entry : c.hops.head? = some c.entryID
  exit : c.hops.getLast? = some c.exitID
  middle : c.hops[1]? = some c.middleID ↔ c.hops.length = 3
  noMiddle : c.hops.length ≠ 3 → c.middleID = ""

structure Consistent (provider : Provider F) (c : Circuit F) : Prop where
  idle : c.active = false → c.hops = [] ∧ c.middleID = ""
  described : c.active = true → ∃ path, Describes provider c path

variable {codec : Multihop.Codec} {provider : Provider F} {c : Circuit F} {path : List (NodeInfo F)}

theorem describes_ofNodes (sound : Sound codec provider path)
    (clock : Clock) : Describes provider (.ofNodes path clock) path := by
  obtain ⟨any, few⟩ := sound.accepted.length
  rcases one_to_three any few with ⟨n, rfl⟩ | ⟨n, m, rfl⟩ | ⟨n, m, k, rfl⟩
  · exact ⟨sound.offered, ⟨any, few⟩, rfl, rfl, rfl, rfl, rfl, by simp [Circuit.ofNodes], fun _ =>
      rfl⟩
  · -- The exit has an ID, and the middle has none.
    have named : m.nodeID ≠ "" := (sound.accepted.dialable m (by simp)).nodeID
    exact ⟨sound.offered, ⟨any, few⟩, rfl, rfl, rfl, rfl, rfl, by simp [Circuit.ofNodes, named],
      fun _ => rfl⟩
  · exact ⟨sound.offered, ⟨any, few⟩, rfl, rfl, rfl, rfl, rfl, by simp [Circuit.ofNodes],
      fun short => absurd rfl short⟩

theorem Describes.succeed (old : Circuit F)
    (describes : Describes provider c path) : Describes provider (old.succeed c) path := by
  obtain ⟨offered, size, hops, countries, prices, entry, exit, middle, noMiddle⟩ := describes
  unfold Circuit.succeed
  dsimp only
  split <;> exact ⟨offered, size, hops, countries, prices, entry, exit, middle, noMiddle⟩

theorem Describes.rotate (describes : Describes provider c path)
    (long : 1 < c.hops.length) {next : NodeInfo F} (offered : Offered provider next)
    (named : next.nodeID ≠ "") (now : Time) :
    Describes provider (c.rotate next now) (path.dropLast ++ [next]) := by
  obtain ⟨inside, size, hops, countries, prices, entry, exit, middle, noMiddle⟩ := describes
  obtain ⟨active, entryID, middleID, exitID, _, _, _, guardPinned, guardSince, builtAt,
      rotations⟩ := c
  subst hops countries prices
  have later : ∀ n ∈ path.dropLast ++ [next], Offered provider n := by
    intro n member
    rcases List.mem_append.mp member with before | last
    · exact inside n (List.mem_of_mem_dropLast before)
    · rwa [List.mem_singleton.mp last]
  rcases one_to_three size.1 size.2 with ⟨n, rfl⟩ | ⟨n, m, rfl⟩ | ⟨n, m, k, rfl⟩
  · simp at long
  · have none : middleID = "" := noMiddle (by simp)
    exact ⟨later, ⟨by simp, by simp⟩, rfl, rfl, rfl, entry,
      rfl, by simp [Circuit.rotate, none, named], fun _ => none⟩
  · exact ⟨later, ⟨by simp, by simp⟩, rfl, rfl, rfl, entry, rfl, middle, noMiddle⟩

theorem describes_single {next : NodeInfo F} (offered : Offered provider next) (now : Time)
    (short : ¬ 1 < c.hops.length) (noMiddle : c.middleID = "") :
    Describes provider (c.rotate next now) [next] := by
  refine ⟨by simpa using offered, by simp, ?_, ?_, ?_, ?_, ?_, ?_, ?_⟩ <;>
    simp [Circuit.rotate, short, noMiddle]

/-- One call keeps the record consistent. -/
theorem Consistent.move {c' : Circuit F} (consistent : Consistent provider c)
    (moved : Circuit.Move codec provider c c') : Consistent provider c' := by
  cases moved with
  | same => exact consistent
  | set path clock sound =>
    have described := (describes_ofNodes sound clock).succeed c
    refine ⟨fun idle => ?_, fun _ => ⟨path, described⟩⟩
    have active : (c.succeed (.ofNodes path clock)).active = true := by
      unfold Circuit.succeed
      dsimp only
      split <;> rfl
    rw [active] at idle
    cases idle
  | rotate next now kept names sound =>
    have offered : Offered provider next := sound.offered next (by simp)
    have named : next.nodeID ≠ "" := (sound.accepted.dialable next (by simp)).nodeID
    refine ⟨fun idle => ?_, fun _ => ?_⟩
    · have active : (c.rotate next now).active = true := rfl
      rw [active] at idle
      cases idle
    · by_cases long : 1 < c.hops.length
      · cases active : c.active with
        | false =>
          rw [(consistent.idle active).1] at long
          cases long
        | true =>
          obtain ⟨path, describes⟩ := consistent.described active
          exact ⟨_, describes.rotate long offered named now⟩
      · refine ⟨[next], describes_single offered now long ?_⟩
        cases active : c.active with
        | false => exact (consistent.idle active).2
        | true =>
          obtain ⟨path, describes⟩ := consistent.described active
          exact describes.noMiddle (by omega)
  | reset =>
    refine ⟨consistent.idle, fun active => ?_⟩
    obtain ⟨path, offered, size, hops, countries, prices, entry, exit, middle, noMiddle⟩ :=
      consistent.described active
    exact ⟨path, offered, size, hops, countries, prices, entry, exit, middle, noMiddle⟩
  | clear => exact ⟨fun _ => ⟨rfl, rfl⟩, nofun⟩

end record

section guard
variable {F : Type}

/-- The guard, its pin and its time stay, and so does the number of hops. -/
structure KeepsGuard (c c' : Circuit F) : Prop where
  entryID : c'.entryID = c.entryID
  guardPinned : c'.guardPinned = c.guardPinned
  guardSince : c'.guardSince = c.guardSince
  hops : c'.hops.length = c.hops.length

/-- A rotation of a pinned circuit keeps the guard exactly when there is a further hop. -/
theorem keepsGuard_rotate_iff {c : Circuit F} (pinned : c.guardPinned = true) (next : NodeInfo F)
    (now : Time) : KeepsGuard c (c.rotate next now) ↔ 2 ≤ c.hops.length := by
  constructor
  · intro keeps
    by_contra short
    have single : ¬ c.hops.length > 1 := by omega
    have unpinned := keeps.guardPinned
    simp [Circuit.rotate, single, pinned] at unpinned
  · intro long
    have several : c.hops.length > 1 := by omega
    refine ⟨?_, ?_, ?_, ?_⟩ <;> simp [Circuit.rotate, several]
    omega

theorem keepsGuard_rotateCircuit_iff [GoFloatDiff F] (codec : Multihop.Codec) {a : App F}
    {call : Rotating F}
    (success : (a.rotateCircuit codec call).1 = none) (pinned : a.circuit.guardPinned = true) :
    KeepsGuard a.circuit (a.rotateCircuit codec call).2.circuit ↔ 2 ≤ a.circuit.hops.length := by
  rcases rotateCircuit_cases codec a call with ⟨⟨err, failed⟩, _⟩ | ⟨e, next, e', _, _, _, whole⟩
  · rw [failed] at success
    cases success
  · rw [whole]
    exact keepsGuard_rotate_iff pinned next call.now

end guard

/-- In every run from a new app: the active circuit is the record of one to three nodes on offer,
and a successful `RotateCircuit` of a pinned one keeps the guard, its time, its pin and the number
of hops exactly when it has at least two hops. -/
theorem guard_kept_iff {F Key Addr Net : Type} [GoFloatDiff F] (lib : Library F Key Addr Net)
    (cfg : Settings) (nodes : Provider F) (engine : Option Tunnel.Engine) (ops : List (Op F)) :
    Run.Throughout (step lib)
        (fun a => a.circuit.active = true → ∃ path, Describes nodes a.circuit path)
        (newApp cfg nodes engine) ops ∧
      Run.Along (step lib)
        (fun a op => (op.rotation a).isSome = true → (op.run lib a).1 = none →
          a.circuit.guardPinned = true → (KeepsGuard a.circuit (step lib a op).circuit ↔
            2 ≤ a.circuit.hops.length))
        (newApp cfg nodes engine) ops := by
  constructor
  · have invariant : Run.Throughout (step lib)
        (fun a : App F => a.nodes = nodes ∧ Consistent nodes a.circuit)
        (newApp cfg nodes engine) ops := by
      refine Run.throughout_of_step ⟨rfl, ⟨fun _ => ⟨rfl, rfl⟩, nofun⟩⟩ ?_
      intro a op ⟨fixed, consistent⟩
      have moved := move_step lib a op
      rw [fixed] at moved
      exact ⟨(fixed_step lib a op).2.trans fixed, consistent.move moved⟩
    exact invariant.mono fun a holds => holds.2.described
  · refine Run.along_of_forall fun a op rotating success pinned => ?_
    obtain ⟨call, rotating⟩ := Option.isSome_iff_exists.mp rotating
    have same := run_of_rotation lib rotating
    simp only [step, same] at success ⊢
    exact keepsGuard_rotateCircuit_iff lib.codec success pinned

section instances

/-- A circuit of one hop is pinned to its entry, and a rotation replaces the entry. -/
theorem guard_lost :
    let a := Run.run (step (.plain ℚ)) (someApp ["a", "b"])
      [someConnect "a", .build ⟨["a"], fun _ => unobserved, ⟨4, 4⟩⟩]
    a.circuit.guardPinned = true ∧ a.circuit.entryID = "a" ∧
      ((Op.rotate (rotatingAt 5)).run (.plain ℚ) a).1.isNone = true ∧
      (step (.plain ℚ) a (.rotate (rotatingAt 5))).circuit.entryID = "b" ∧
      (step (.plain ℚ) a (.rotate (rotatingAt 5))).circuit.guardPinned = false := by
  decide

end instances

end VeilNet.Guarantees.StickyGuard
