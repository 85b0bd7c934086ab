import Mathlib.Data.List.OfFn
import Mathlib.Logic.Function.Basic

/-!
Slices with their backing arrays. A copy of a slice is a window on the same cells, so that what is
written through one is read through the other.
-/
namespace VeilNet.Lib.GoSlice

structure Slice where
  array : ℕ
  offset : ℕ
  length : ℕ
  deriving DecidableEq

/-- The cell of `s[i]`: its array, and the index there. -/
def Slice.cell (s : Slice) (i : Fin s.length) : ℕ × ℕ := (s.array, s.offset + i)

theorem Slice.cell_inj {s : Slice} {i j : Fin s.length} (same : s.cell i = s.cell j) : i = j :=
  Fin.ext (Nat.add_left_cancel (congrArg Prod.snd same))

/-- The contents of all arrays. -/
structure Memory (α : Type) where
  cells : ℕ × ℕ → α

namespace Memory
variable {α : Type} (m : Memory α) (s : Slice)

/-- `s[i]`. -/
def get (i : Fin s.length) : α := m.cells (s.cell i)

/-- The elements of the slice. -/
def read : List α := List.ofFn (m.get s)

/-- `s[i] = v`. -/
def set (i : Fin s.length) (v : α) : Memory α := ⟨Function.update m.cells (s.cell i) v⟩

variable {m s}

@[simp] theorem length_read : (m.read s).length = s.length := List.length_ofFn

theorem get_set_same (i : Fin s.length) (v : α) : (m.set s i v).get s i = v :=
  Function.update_self ..

theorem get_set_other {i j : Fin s.length} (other : j ≠ i) (v : α) :
    (m.set s i v).get s j = m.get s j :=
  Function.update_of_ne (fun same => other (Slice.cell_inj same)) ..

/-- To write what is there changes no cell. -/
theorem set_get (i : Fin s.length) : m.set s i (m.get s i) = m := by
  unfold set get
  rw [Function.update_eq_self]

/-- What is written through a slice is read through it, and through each copy of it. -/
theorem read_set (i : Fin s.length) (v : α) : (m.set s i v).read s = (m.read s).set i v := by
  apply List.ext_getElem
  · rw [length_read, List.length_set, length_read]
  · intro j inLeft inRight
    have bound : j < s.length := by simpa using inLeft
    rw [List.getElem_set]
    simp only [read, List.getElem_ofFn]
    split
    · next same =>
      subst same
      exact get_set_same i v
    · next other =>
      apply get_set_other
      intro same
      exact other (congrArg Fin.val same).symm

end Memory

section buffers
variable {α : Type}

/-- A slice with its capacity: behind its elements there is room in the same array. -/
structure Buffer where
  slice : Slice
  cap : ℕ

/-- A nil slice. -/
def Buffer.nil : Buffer := ⟨⟨0, 0, 0⟩, 0⟩

/-- `b[:0]`, on the same array. -/
def Buffer.emptied (b : Buffer) : Buffer := { b with slice := { b.slice with length := 0 } }

/-- The memory, and the number of the next array. -/
structure Heap (α : Type) where
  memory : Memory α
  fresh : ℕ

/-- The cell that `s[i]` has, or would have in a longer slice. -/
def Slice.place (s : Slice) (i : ℕ) : ℕ × ℕ := (s.array, s.offset + i)

/-- `append(b, v)`: in place while there is room, and else in a new array, whose capacity is
at least what is needed. -/
def append (grow : ℕ → ℕ) (h : Heap α) (b : Buffer) (v : α) : Heap α × Buffer :=
  let longer := b.slice.length + 1
  if b.slice.length < b.cap then
    (⟨⟨Function.update h.memory.cells (b.slice.place b.slice.length) v⟩, h.fresh⟩,
      { b with slice := { b.slice with length := longer } })
  else
    (⟨⟨fun c =>
        if c.1 = h.fresh ∧ c.2 < b.slice.length then h.memory.cells (b.slice.place c.2)
        else if c = (h.fresh, b.slice.length) then v
        else h.memory.cells c⟩, h.fresh + 1⟩,
      ⟨⟨h.fresh, 0, longer⟩, max longer (grow b.cap)⟩)

/-- One turn of the loop below: the element is read when its turn comes. -/
def filterStep (grow : ℕ → ℕ) (keep : α → Bool) (old : Slice) (st : Heap α × Buffer) (i : ℕ) :
    Heap α × Buffer :=
  if keep (st.1.memory.cells (old.place i)) then
    append grow st.1 st.2 (st.1.memory.cells (old.place i))
  else st

/-- `kept := old[:0]; for _, v := range old { if keep(v) { kept = append(kept, v) } }`. -/
def filterInPlace (grow : ℕ → ℕ) (keep : α → Bool) (h : Heap α) (old : Buffer) : Heap α × Buffer :=
  (List.range old.slice.length).foldl (filterStep grow keep old.slice) (h, old.emptied)

theorem read_eq_map (m : Memory α) (s : Slice) :
    m.read s = (List.range s.length).map fun i => m.cells (s.place i) := by
  apply List.ext_getElem
  · simp
  · intro i inLeft inRight
    simp [Memory.read, Memory.get, Slice.cell, Slice.place]

variable {s : Slice}

/-- What a slice reads is decided by its cells. -/
theorem read_congr {m m' : Memory α}
    (same : ∀ i < s.length, m'.cells (s.place i) = m.cells (s.place i)) : m'.read s = m.read s := by
  rw [read_eq_map, read_eq_map]
  apply List.map_congr_left
  intro i member
  exact same i (List.mem_range.mp member)

variable {grow : ℕ → ℕ} {h : Heap α} {b : Buffer}

theorem append_of_room (room : b.slice.length < b.cap) (v : α) :
    append grow h b v =
      (⟨⟨Function.update h.memory.cells (b.slice.place b.slice.length) v⟩, h.fresh⟩,
        { b with slice := { b.slice with length := b.slice.length + 1 } }) :=
  if_pos room

variable (grow h) in
theorem read_append_of_room (room : b.slice.length < b.cap) (v : α) :
    (append grow h b v).1.memory.read (append grow h b v).2.slice =
      h.memory.read b.slice ++ [v] := by
  rw [append_of_room room, read_eq_map, read_eq_map, List.range_succ, List.map_append]
  congr 1
  · apply List.map_congr_left
    intro i member
    have below := List.mem_range.mp member
    apply Function.update_of_ne
    intro same
    have index := congrArg Prod.snd same
    simp only [Slice.place] at index
    omega
  · exact congrArg (fun v => [v]) (Function.update_self ..)

/-- The new slice has the old elements and the new one. -/
theorem read_append (v : α) :
    (append grow h b v).1.memory.read (append grow h b v).2.slice =
      h.memory.read b.slice ++ [v] := by
  by_cases room : b.slice.length < b.cap
  · exact read_append_of_room grow h room v
  · rw [append, if_neg room, read_eq_map, read_eq_map, List.range_succ, List.map_append]
    congr 1
    · apply List.map_congr_left
      intro i member
      have below := List.mem_range.mp member
      simp [Slice.place, below]
    · simp [Slice.place]

/-- Slices on other arrays, all older than the next one, read what they read before. -/
theorem read_append_other (old : s.array < h.fresh)
    (other : 0 < b.cap → s.array ≠ b.slice.array) (v : α) :
    (append grow h b v).1.memory.read s = h.memory.read s := by
  apply read_congr
  intro i _
  unfold append
  split
  · next room =>
    apply Function.update_of_ne
    intro same
    exact other (Nat.zero_lt_of_lt room) (congrArg Prod.fst same)
  · have notFresh : s.array ≠ h.fresh := Nat.ne_of_lt old
    simp [Slice.place, notFresh]

/-- The loop after `k` turns: it has written over elements that it had read, and nothing
else. -/
structure Filtered (keep : α → Bool) (h : Heap α) (old : Buffer) (k : ℕ) (st : Heap α × Buffer) :
    Prop where
  fresh : st.1.fresh = h.fresh
  array : st.2.slice.array = old.slice.array
  offset : st.2.slice.offset = old.slice.offset
  cap : st.2.cap = old.cap
  behind : st.2.slice.length ≤ k
  ahead : ∀ i, k ≤ i → st.1.memory.cells (old.slice.place i) = h.memory.cells (old.slice.place i)
  elsewhere : ∀ c : ℕ × ℕ, c.1 ≠ old.slice.array → st.1.memory.cells c = h.memory.cells c
  contents : st.1.memory.read st.2.slice = ((h.memory.read old.slice).take k).filter keep

theorem take_succ_read (m : Memory α) {k : ℕ} (below : k < s.length) :
    (m.read s).take (k + 1) = (m.read s).take k ++ [m.cells (s.place k)] := by
  rw [List.take_add_one, read_eq_map]
  simp [below]

variable {old : Buffer}

theorem Filtered.step {keep : α → Bool} {k : ℕ} {st : Heap α × Buffer}
    (done : Filtered keep h old k st) (below : k < old.slice.length)
    (fits : old.slice.length ≤ old.cap) :
    Filtered keep h old (k + 1) (filterStep grow keep old.slice st k) := by
  have here : st.1.memory.cells (old.slice.place k) = h.memory.cells (old.slice.place k) :=
    done.ahead k le_rfl
  have filtered := take_succ_read h.memory below
  unfold filterStep
  rw [here]
  split
  · next kept =>
    have behind := done.behind
    have room : st.2.slice.length < st.2.cap := by
      rw [done.cap]
      omega
    have contents := read_append_of_room grow st.1 room (h.memory.cells (old.slice.place k))
    rw [done.contents] at contents
    rw [append_of_room room] at contents ⊢
    refine ⟨done.fresh, done.array, done.offset, done.cap, Nat.succ_le_succ behind, ?_, ?_, ?_⟩
    · intro i later
      rw [← done.ahead i (Nat.le_of_succ_le later)]
      apply Function.update_of_ne
      intro same
      have index := congrArg Prod.snd same
      simp only [Slice.place, done.offset] at index
      omega
    · intro c other
      rw [← done.elsewhere c other]
      apply Function.update_of_ne
      intro same
      rw [same] at other
      exact other done.array
    · rw [contents, filtered, List.filter_append, List.filter_cons_of_pos kept]
      rfl
  · next dropped =>
    refine ⟨done.fresh, done.array, done.offset, done.cap, Nat.le_succ_of_le done.behind,
      fun i later => done.ahead i (Nat.le_of_succ_le later), done.elsewhere, ?_⟩
    rw [done.contents, filtered, List.filter_append, List.filter_cons_of_neg dropped]
    simp

/-- The loop leaves the elements that pass, in the array they were in. -/
theorem filtered_filterInPlace (grow : ℕ → ℕ) (keep : α → Bool) (h : Heap α)
    (fits : old.slice.length ≤ old.cap) :
    Filtered keep h old old.slice.length (filterInPlace grow keep h old) := by
  have turns : ∀ k ≤ old.slice.length, Filtered keep h old k
      ((List.range k).foldl (filterStep grow keep old.slice) (h, old.emptied)) := by
    intro k
    induction k with
    | zero =>
      intro _
      exact ⟨rfl, rfl, rfl, rfl, le_rfl, fun _ _ => rfl, fun _ _ =>
        rfl, by simp [read_eq_map, Buffer.emptied]⟩
    | succ k ih =>
      intro below
      rw [List.range_succ, List.foldl_append]
      exact (ih (Nat.le_of_succ_le below)).step below fits
  exact turns old.slice.length le_rfl

theorem read_filterInPlace (keep : α → Bool) (fits : old.slice.length ≤ old.cap) :
    (filterInPlace grow keep h old).1.memory.read (filterInPlace grow keep h old).2.slice =
      (h.memory.read old.slice).filter keep := by
  have done := (filtered_filterInPlace grow keep h fits).contents
  rwa [List.take_of_length_le (by simp)] at done

theorem read_filterInPlace_other (keep : α → Bool) (fits : old.slice.length ≤ old.cap)
    (other : 0 < old.cap → s.array ≠ old.slice.array) :
    (filterInPlace grow keep h old).1.memory.read s = h.memory.read s := by
  by_cases room : 0 < old.cap
  · exact read_congr fun i _ =>
      (filtered_filterInPlace grow keep h fits).elsewhere (s.place i) (other room)
  · have empty : old.slice.length = 0 := by omega
    rw [filterInPlace, empty]
    rfl

end buffers

end VeilNet.Lib.GoSlice
