import VeilNet.Source.Registry.Concurrent
import VeilNet.Guarantees.RegistryIdentity

/-!
# The registry file under concurrent calls

A call takes its snapshot under the lock, but writes and renames it after the unlock, perhaps
after a later one. While no call takes its snapshot between the snapshot and the rename of
another, the file holds the nodes once all calls have returned.
-/
namespace VeilNet.Guarantees.RegistryFile
open Lib Source.Registry

variable {F : Type}

abbrev World (F : Type) := Threads.Pool (Shared F) (Writer F)

def start (s : Store F) (d : Disk) (calls : List (Call F × Outcomes)) : World F :=
  ⟨⟨s, d⟩, calls.map fun c => .change c.1 c.2⟩

/-- The call has changed the maps and has no snapshot yet. -/
def waiting : Writer F → Bool
  | .snapshot .. => true
  | .change .. | .write .. | .rename .. | .done _ => false

/-- The call is between its snapshot and its rename. -/
def writing : Writer F → Bool
  | .write .. | .rename .. => true
  | .change .. | .snapshot .. | .done _ => false

def failed : Writer F → Bool
  | .done (some _) => true
  | .done none | .change .. | .snapshot .. | .write .. | .rename .. => false

/-- No call takes its snapshot while another is between its snapshot and its rename. -/
def Serial (w : World F) (i : ℕ) : Prop :=
  ∀ t ∈ w.tasks[i]?, waiting t = true → w.tasks.countP writing = 0

instance (w : World F) (i : ℕ) : Decidable (Serial w i) :=
  inferInstanceAs (Decidable (∀ t ∈ w.tasks[i]?, waiting t = true → w.tasks.countP writing = 0))

/-- The file holds the nodes. -/
def Current (codec : Codec F) (g : Shared F) : Prop :=
  ∃ data, codec.marshalNodes g.store.nodes = .ok data ∧ g.disk.file = some data

def Behind (tasks : List (Writer F)) : Prop := ∃ t ∈ tasks, waiting t = true

/-- What each call knows: a snapshot holds the nodes unless a call with a later change
has yet to take its own, and after the last rename the file holds them. -/
def Knows (codec : Codec F) (g : Shared F) (tasks : List (Writer F)) : Writer F → Prop
  | .write _ _ data => Behind tasks ∨ codec.marshalNodes g.store.nodes = .ok data
  | .rename _ _ data => g.disk.tmp = some data ∧
      (Behind tasks ∨ codec.marshalNodes g.store.nodes = .ok data)
  | .done none => tasks.countP writing = 0 → Behind tasks ∨ Current codec g
  | .done (some _) | .change .. | .snapshot .. => True

/-- No call has failed so far, and all is well. -/
structure Ordered (codec : Codec F) (w : World F) : Prop where
  path : w.shared.store.path ≠ ""
  one : w.tasks.countP writing ≤ 1
  known : ∀ t ∈ w.tasks, Knows codec w.shared w.tasks t

variable {t : Writer F}

theorem behind_middle {front back : List (Writer F)} (isWaiting : waiting t = true) :
    Behind (front ++ t :: back) :=
  ⟨t, List.mem_append_cons_self, isWaiting⟩

theorem behind_replace {front back : List (Writer F)} {t t' : Writer F} (idle : waiting t = false)
    (behind : Behind (front ++ t :: back)) : Behind (front ++ t' :: back) := by
  obtain ⟨u, member, isWaiting⟩ := behind
  rcases Slots.mem_replaced member with rfl | kept
  · cases idle.symm.trans isWaiting
  · exact ⟨u, kept, isWaiting⟩

theorem knows_of_idle {codec : Codec F} {g : Shared F} {tasks : List (Writer F)}
    (idle : writing t = false) (notYet : tasks.countP writing = 0 → Behind tasks ∨
      Current codec g) : Knows codec g tasks t := by
  cases t with
  | write call out data => cases idle
  | rename call out data => cases idle
  | change call out => trivial
  | snapshot call out => trivial
  | done result =>
    cases result with
    | none => exact notYet
    | some e => trivial

theorem Knows.of_behind {codec : Codec F} {g g' : Shared F} {tasks tasks' : List (Writer F)}
    (h : Knows codec g tasks t) (disk : g'.disk = g.disk) (behind : Behind tasks') :
    Knows codec g' tasks' t := by
  cases t with
  | write call out data => exact .inl behind
  | rename call out data => exact ⟨disk ▸ h.1, .inl behind⟩
  | change call out => trivial
  | snapshot call out => trivial
  | done result =>
    cases result with
    | none => exact fun _ => .inl behind
    | some e => trivial

section steps
variable {codec : Codec F} {g : Shared F} {front back : List (Writer F)} {call : Call F}
  {out : Outcomes} {data : List UInt8}

theorem Ordered.change (h : Ordered codec ⟨g, front ++ .change call out :: back⟩) {store : Store F}
    (path : store.path = g.store.path) :
    Ordered codec ⟨{ g with store }, front ++ .snapshot call out :: back⟩ := by
  have behind : Behind (front ++ .snapshot call out :: back) := behind_middle rfl
  have known := h.known
  simp only [List.forall_mem_append, List.forall_mem_cons] at known
  refine ⟨path ▸ h.path, ?_, ?_⟩
  · have one := h.one
    rw [Slots.countP_middle] at one ⊢
    exact one
  · simp only [List.forall_mem_append, List.forall_mem_cons]
    exact ⟨fun t member => (known.1 t member).of_behind rfl behind, trivial,
      fun t member => (known.2.2 t member).of_behind rfl behind⟩

/-- When no other call writes, what the moving call knows decides. -/
theorem ordered_of_alone {t : Writer F} {g' : Shared F} (path : g'.store.path ≠ "")
    (alone : (front ++ back).countP writing = 0) (here : Knows codec g' (front ++ t :: back) t)
    (rests : writing t = false → Behind (front ++ t :: back) ∨ Current codec g') :
    Ordered codec ⟨g', front ++ t :: back⟩ := by
  have count : (front ++ t :: back).countP writing = (writing t).toNat := by
    rw [Slots.countP_middle, alone, Nat.zero_add]
  have idle : ∀ u ∈ front ++ back, Knows codec g' (front ++ t :: back) u := by
    intro u member
    refine knows_of_idle (Bool.eq_false_iff.mpr (List.countP_eq_zero.mp alone u member)) fun none =>
      ?_
    rw [count] at none
    exact rests (Bool.toNat_eq_zero.mp none)
  rw [List.forall_mem_append] at idle
  refine ⟨path, count.trans_le (Bool.toNat_le _), ?_⟩
  simp only [List.forall_mem_append, List.forall_mem_cons]
  exact ⟨idle.1, here, idle.2⟩

theorem Ordered.snapshot (h : Ordered codec ⟨g, front ++ .snapshot call out :: back⟩)
    (serial : (front ++ .snapshot call out :: back).countP writing = 0)
    (encoded : codec.marshalNodes g.store.nodes = .ok data) :
    Ordered codec ⟨g, front ++ .write call out data :: back⟩ := by
  have alone : (front ++ back).countP writing = 0 := by
    rw [Slots.countP_middle] at serial
    omega
  exact ordered_of_alone h.path alone (.inr encoded) nofun

theorem Ordered.write (h : Ordered codec ⟨g, front ++ .write call out data :: back⟩) {disk : Disk}
    (tmp : disk.tmp = some data) :
    Ordered codec ⟨{ g with disk }, front ++ .rename call out data :: back⟩ := by
  have alone := Threads.others_of_countP h.one rfl
  have known := h.known (.write call out data) List.mem_append_cons_self
  exact ordered_of_alone h.path alone ⟨tmp, known.imp_left (behind_replace rfl)⟩ nofun

theorem Ordered.rename (h : Ordered codec ⟨g, front ++ .rename call out data :: back⟩) {disk : Disk}
    (file : disk.file = g.disk.tmp) :
    Ordered codec ⟨{ g with disk }, front ++ .done none :: back⟩ := by
  have alone := Threads.others_of_countP h.one rfl
  obtain ⟨tmp, known⟩ := h.known (.rename call out data) List.mem_append_cons_self
  have after : Behind (front ++ .done none :: back) ∨ Current codec { g with disk } := by
    rcases known with behind | encoded
    · exact .inl (behind_replace rfl behind)
    · exact .inr ⟨data, encoded, file.trans tmp⟩
  exact ordered_of_alone h.path alone (fun _ => after) fun _ => after

end steps

section runs
variable {codec : Codec F}

theorem ordered_start {s : Store F} (onDisk : s.path ≠ "") (d : Disk)
    (calls : List (Call F × Outcomes)) : Ordered codec (start s d calls) := by
  have changes : ∀ t ∈ (start s d calls).tasks, ∃ call out, t = .change call out := by
    intro t member
    obtain ⟨c, _, rfl⟩ := List.mem_map.mp member
    exact ⟨c.1, c.2, rfl⟩
  have count : (start s d calls).tasks.countP writing = 0 := by
    rw [List.countP_eq_zero]
    intro t member
    obtain ⟨call, out, rfl⟩ := changes t member
    exact Bool.false_ne_true
  refine ⟨onDisk, count.le.trans (Nat.zero_le 1), fun t member => ?_⟩
  obtain ⟨call, out, rfl⟩ := changes t member
  trivial

variable [GoFloat F]

def step (codec : Codec F) : World F → ℕ → World F := Threads.step (Writer.next codec)

def Failed (tasks : List (Writer F)) : Prop := ∃ t ∈ tasks, failed t = true

/-- One step either ends a call with an error or keeps the order. -/
theorem Ordered.next {g : Shared F} {front back : List (Writer F)} {t : Writer F}
    (h : Ordered codec ⟨g, front ++ t :: back⟩)
    (serial : waiting t = true → (front ++ t :: back).countP writing = 0) :
    Failed (front ++ (t.next codec g).2 :: back) ∨
      Ordered codec ⟨(t.next codec g).1, front ++ (t.next codec g).2 :: back⟩ := by
  have fails : ∀ e, Failed (front ++ .done (some e) :: back) := fun e =>
    ⟨.done (some e), List.mem_append_cons_self, rfl⟩
  cases t with
  | change call out =>
    rw [Writer.next]
    split
    · exact .inl (fails _)
    · next n store reached =>
      have path := locked_path reached
      have onDisk : store.path ≠ "" := by
        rw [path]
        exact h.path
      rw [if_neg onDisk]
      exact .inr (h.change path)
  | snapshot call out =>
    rw [Writer.next]
    dsimp only
    split
    · exact .inl (fails _)
    · next data encoded => exact .inr (h.snapshot (serial rfl) encoded)
  | write call out data =>
    rw [Writer.next]
    split
    · exact .inl (fails _)
    · next disk written => exact .inr (h.write (writeTmp_ok written))
  | rename call out data =>
    rw [Writer.next]
    split
    · exact .inl (fails _)
    · next disk renamed =>
      dsimp only
      cases callMirror out g.store call.op with
      | some e => exact .inl (fails e)
      | none => exact .inr (h.rename (renameTmp_ok renamed))
  | done result => exact .inr h

theorem failed_next {g : Shared F} {t : Writer F} (isFailed : failed t = true) :
    failed (t.next codec g).2 = true := by
  cases t with
  | done result => exact isFailed
  | change call out => cases isFailed
  | snapshot call out => cases isFailed
  | write call out data => cases isFailed
  | rename call out data => cases isFailed

theorem failed_step {w : World F} {i : ℕ} (h : Failed w.tasks) : Failed (step codec w i).tasks := by
  rcases Threads.step_cases (Writer.next codec) w i with same | ⟨front, t, back, _, tasks, _, moved⟩
  · rw [step, same]
    exact h
  · obtain ⟨u, member, isFailed⟩ := h
    rw [step, moved]
    rw [tasks] at member
    rcases Slots.mem_replaced member with rfl | kept
    · exact ⟨_, List.mem_append_cons_self, failed_next isFailed⟩
    · exact ⟨u, kept, isFailed⟩

theorem ordered_step {w : World F} {i : ℕ} (serial : Serial w i)
    (h : Failed w.tasks ∨ Ordered codec w) :
    Failed (step codec w i).tasks ∨ Ordered codec (step codec w i) := by
  rcases h with isFailed | ordered
  · exact .inl (failed_step isFailed)
  · rcases Threads.step_cases (Writer.next codec) w i with same |
      ⟨front, t, back, found, tasks, _, moved⟩
    · rw [step, same]
      exact .inr ordered
    · obtain ⟨g, ts⟩ := w
      obtain rfl : ts = front ++ t :: back := tasks
      rw [step, moved]
      exact ordered.next (serial t found)

end runs

/-- Any concurrent calls that have all returned nil, in which none takes its snapshot between the
snapshot and the rename of another: the file holds the nodes. -/
theorem file_current [GoFloat F] (codec : Codec F) (s : Store F) (d : Disk)
    (onDisk : s.path ≠ "") (calls : List (Call F × Outcomes)) (called : calls ≠ [])
    (schedule : List ℕ) (serial : Run.Along (step codec) Serial (start s d calls) schedule)
    (returned : ∀ t ∈ (Run.run (step codec) (start s d calls) schedule).tasks, t = .done none) :
    Current codec (Run.run (step codec) (start s d calls) schedule).shared := by
  have preserved : ∀ (w : World F) i, Serial w i → Failed w.tasks ∨ Ordered codec w →
      Failed (step codec w i).tasks ∨ Ordered codec (step codec w i) :=
    fun _ _ met before => ordered_step met before
  have kept := (Run.throughout_of_invariant (.inr (ordered_start onDisk d calls)) preserved
    serial).last
  have length := Threads.length_run (Writer.next codec) (start s d calls) schedule
  rw [← step, start, List.length_map] at length
  obtain ⟨t, member⟩ := List.exists_mem_of_length_pos
    (length ▸ List.length_pos_iff.mpr called)
  rcases kept with ⟨u, inside, isFailed⟩ | ordered
  · rw [returned u inside] at isFailed
    cases isFailed
  · have idle : (Run.run (step codec) (start s d calls) schedule).tasks.countP writing = 0 := by
      rw [List.countP_eq_zero]
      intro u inside
      rw [returned u inside]
      exact Bool.false_ne_true
    have known := ordered.known t member
    rw [returned t member] at known
    rcases known idle with ⟨u, inside, isWaiting⟩ | current
    · rw [returned u inside] at isWaiting
      cases isWaiting
    · exact current

section sample
open RegistryIdentity

/-- The nodes are encoded by their prices. -/
def priceCodec : Codec ℚ :=
  { sampleCodec with
    marshalNodes := fun nodes =>
      .ok ((GoMap.values nodes).map fun n => UInt8.ofNat n.pricePerHourDERO.num.natAbs) }

/-- One node at price 1, and a file that says so. -/
def oneNode : Store ℚ := ⟨AList.singleton "n" sampleNode, ∅, false, "nodes.json", 10⟩

def oneNodeDisk : Disk := ⟨some [1], none⟩

/-- Two calls set the node's price. -/
def twoPrices : List (Call ℚ × Outcomes) := [(.setPrice "n" 2, allFine), (.setPrice "n" 3, allFine)]

/-- Both calls change the price before either takes its snapshot. -/
theorem twoPrices_file_current :
    Current priceCodec (Run.run (step priceCodec) (start oneNode oneNodeDisk twoPrices)
      [0, 1, 0, 0, 0, 1, 1, 1]).shared := by
  refine file_current priceCodec oneNode oneNodeDisk (by decide) twoPrices
    (by simp [twoPrices]) _ (by decide) ?_
  intro t member
  have both : (Run.run (step priceCodec) (start oneNode oneNodeDisk twoPrices)
      [0, 1, 0, 0, 0, 1, 1, 1]).tasks = [.done none, .done none] := rfl
  rw [both] at member
  simpa using member

/-- The first call takes its snapshot, and then the second runs to its end. -/
def overtaken : World ℚ :=
  Run.run (step priceCodec) (start oneNode oneNodeDisk twoPrices) [0, 0, 1, 1, 1, 1, 0, 0]

/-- Both calls return nil, and the second price is lost from the file. -/
theorem overtaken_loses_price :
    overtaken.tasks = [.done none, .done none] ∧
    (overtaken.shared.store.nodes.lookup "n").map (·.pricePerHourDERO) = some 3 ∧
    overtaken.shared.disk.file = some [2] ∧
    ¬ Current priceCodec overtaken.shared := by
  have file : overtaken.shared.disk.file = some [2] := by decide
  refine ⟨rfl, by decide, file, ?_⟩
  rintro ⟨data, encoded, held⟩
  rw [file] at held
  cases held
  cases encoded

end sample

end VeilNet.Guarantees.RegistryFile
