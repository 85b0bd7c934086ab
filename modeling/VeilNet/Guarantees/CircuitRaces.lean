import VeilNet.Source.Client.Concurrent

/-!
# Concurrent circuit changes

A rotation checks its exit against the hops it has read, and later puts it behind those that are
there. The hops stay separated as long as the two agree, or at most one is replaced.
-/
namespace VeilNet.Guarantees.CircuitRaces
open Lib Source Source.Client

section races
variable {F : Type} [GoFloatDiff F]

/-- The hops name, in order, nodes on offer that form a path that `BuildRoute` accepts. -/
def Separated (codec : Multihop.Codec) (a : App F) : Prop :=
  ∃ path : List (NodeInfo F), path.map NodeInfo.nodeID = a.circuit.hops ∧
    (∀ n ∈ path, Offered a.nodes n) ∧ Accepted codec path

/-- A circuit with hops is separated, and so is an active one. -/
def Recorded (codec : Multihop.Codec) (a : App F) : Prop :=
  a.circuit.active = true ∨ a.circuit.hops ≠ [] → Separated codec a

/-- The hops that a rotation has read, once it is about to commit. -/
def readHops : Running F → Option (List String)
  | .committing _ hops _ => some hops
  | .pending _ | .setting _ _ | .planning _ _ | .moving _ _ _ | .finished _ => none

/-- A rotation that is about to commit finds the hops that it has read, up to the last, or at
most one hop. -/
def Current (pool : Client.Pool F) (i : ℕ) : Prop :=
  ∀ hops ∈ pool.tasks[i]?.bind readHops,
    pool.shared.circuit.hops.length ≤ 1 ∨ pool.shared.circuit.hops.dropLast = hops.dropLast

instance (pool : Client.Pool F) (i : ℕ) : Decidable (Current pool i) :=
  inferInstanceAs (Decidable (∀ hops ∈ pool.tasks[i]?.bind readHops, _ ∨ _))

structure Holds (codec : Multihop.Codec) (pool : Client.Pool F) : Prop where
  recorded : Recorded codec pool.shared
  checked : ∀ t ∈ pool.tasks, t.Checked codec pool.shared.nodes

variable {codec : Multihop.Codec} {a : App F}

theorem recorded_setCircuit {path : List (NodeInfo F)} (sound : Sound codec a.nodes path)
    (clock : Clock) : Recorded codec (a.setCircuit path clock) := by
  intro _
  refine ⟨path, ?_, sound.offered, sound.accepted⟩
  simp only [App.setCircuit, Circuit.succeed]
  split <;> rfl

theorem recorded_commitRotation {next : NodeInfo F} {kept : List (NodeInfo F)} {hops : List String}
    (now : Time) (names : kept.map NodeInfo.nodeID = hops.dropLast)
    (sound : Sound codec a.nodes (kept ++ [next]))
    (current : a.circuit.hops.length ≤ 1 ∨ a.circuit.hops.dropLast = hops.dropLast) :
    Recorded codec (a.commitRotation next now) := by
  intro _
  by_cases long : a.circuit.hops.length > 1
  · have same : a.circuit.hops.dropLast = hops.dropLast := by
      rcases current with short | same
      · omega
      · exact same
    refine ⟨kept ++ [next], ?_, sound.offered, sound.accepted⟩
    simp [App.commitRotation, Circuit.rotate, long, names, same]
  · refine ⟨[next], ?_, ?_, sound.accepted.sublist (by simp) (by simp)⟩
    · simp [App.commitRotation, Circuit.rotate, long]
    · exact fun n member => sound.offered n (by rw [List.mem_singleton.mp member]; simp)

theorem nodes_next (t : Running F) : (t.next codec a).1.nodes = a.nodes := by
  rcases t.next_cases codec a with ⟨engine, same⟩ | ⟨path, clock, _, same⟩ |
    ⟨call, hops, next, _, same⟩
  · rw [same]
  · rw [same]
    rfl
  · rw [same]
    rfl

theorem holds_pass (pool : Client.Pool F) (i : ℕ) (current : Current pool i)
    (holds : Holds codec pool) : Holds codec (pass codec pool i) := by
  rcases Threads.step_cases (Running.next codec) pool i with
    same | ⟨front, t, back, found, tasks, _, moved⟩
  · rw [Client.pass, same]
    exact holds
  · have mine : t.Checked codec pool.shared.nodes := holds.checked t (by rw [tasks]; simp)
    rw [Client.pass, moved]
    constructor
    · rcases t.next_cases codec pool.shared with
        ⟨engine, same⟩ | ⟨path, clock, rfl, same⟩ | ⟨call, hops, next, rfl, same⟩
      · simp only [same]
        exact holds.recorded
      · simp only [same]
        exact recorded_setCircuit mine clock
      · obtain ⟨kept, names, sound⟩ := mine
        simp only [same]
        exact recorded_commitRotation call.now names sound (current hops (by rw [found]; rfl))
    · intro u member
      rw [nodes_next]
      rcases Slots.mem_replaced (a := t) member with rfl | other
      · exact Running.next_checked pool.shared mine
      · exact holds.checked u (by rw [tasks]; exact other)

end races

/-- In every interleaving in which each rotation that commits finds the hops it has read, up to
the last, or at most one hop: in every state the hops of an active circuit name a path that
`BuildRoute` accepts. -/
theorem hops_stay_separated {F : Type} [GoFloatDiff F] (codec : Multihop.Codec) (a : App F)
    (recorded : Recorded codec a) (calls : List (Call F)) (schedule : List ℕ)
    (current : Run.Along (pass codec) Current (start a calls) schedule) :
    Run.Throughout (pass codec)
      (fun pool => pool.shared.circuit.active = true → Separated codec pool.shared)
      (start a calls) schedule := by
  have begun : Holds codec (start a calls) := by
    refine ⟨recorded, fun t member => ?_⟩
    obtain ⟨call, _, rfl⟩ := List.mem_map.mp member
    trivial
  exact (Run.throughout_of_invariant begun holds_pass current).mono
    fun pool holds active => holds.recorded (.inl active)

section instances

/-- Connected to the first of three nodes, without a circuit. -/
def connected : App ℚ :=
  step (.plain ℚ) (someApp ["a", "b", "c"]) (someConnect "a")

theorem recorded_connected : Recorded (Library.plain ℚ).codec connected := by
  have blank : connected.circuit.active = false ∧ connected.circuit.hops = [] := by decide
  rintro (active | some)
  · rw [blank.1] at active
    cases active
  · exact absurd blank.2 some

def rotation : Call ℚ := .rotate ⟨rotatingAt 5, none⟩

def building : Call ℚ := .build ⟨["a", "b"], fun _ => unobserved, ⟨4, 4⟩⟩

/-- The circuit is built first, and two rotations take turns with the sections of each other. -/
theorem separated_after_two_rotations :
    Run.Throughout (pass (Library.plain ℚ).codec)
      (fun pool => pool.shared.circuit.active = true →
        Separated (Library.plain ℚ).codec pool.shared)
      (start connected [building, rotation, rotation]) [0, 0, 1, 2, 1, 2, 1, 2, 1, 2] :=
  hops_stay_separated _ connected recorded_connected [building, rotation, rotation] _
    (by decide)

theorem names_nodup {codec : Multihop.Codec} {path : List (NodeInfo ℚ)}
    (accepted : Accepted codec path) : (path.map NodeInfo.nodeID).Nodup := by
  obtain ⟨_, _, apart, _⟩ := Multihop.exists_buildRoute_iff.mp (accepted ⟨none, 0, 0⟩)
  rw [List.Nodup, List.pairwise_map]
  exact (List.pairwise_map.mp apart).imp fun differ => differ.id

/-- The rotation picks the first node while there is no circuit, and commits it behind the same
node once the circuit has been built. -/
theorem hop_repeated :
    ¬ Run.Throughout (pass (Library.plain ℚ).codec)
      (fun pool => pool.shared.circuit.active = true →
        Separated (Library.plain ℚ).codec pool.shared)
      (start connected [rotation, building]) [0, 0, 1, 1, 0, 0] := by
  intro throughout
  have last := throughout.last
  have twice : (Run.run (pass (Library.plain ℚ).codec) (start connected [rotation, building])
      [0, 0, 1, 1, 0, 0]).shared.circuit.active = true ∧
      (Run.run (pass (Library.plain ℚ).codec) (start connected [rotation, building])
        [0, 0, 1, 1, 0, 0]).shared.circuit.hops = ["a", "a"] := by decide +kernel
  obtain ⟨path, names, _, accepted⟩ := last twice.1
  have differ := names_nodup accepted
  rw [names, twice.2] at differ
  exact absurd differ (by decide)

end instances

end VeilNet.Guarantees.CircuitRaces
