import VeilNet.Lib.GoNet
import VeilNet.Lib.Rotation
import Mathlib.Data.Finset.Basic

/-!
The address pool of `internal/nodes/ipam.go`. Offsets from the base address are
`uint32` and wrap. `Release` and `Reserve` take any text. A range is an IPv4 address and
a mask.
-/
namespace VeilNet.Source.Nodes
open Lib

structure IPAM where
  base : UInt32
  size : UInt32
  next : UInt32
  used : Finset UInt32
  serverIP : String
  deriving DecidableEq

namespace IPAM

/-- The pool over the IPv4 range that `net.ParseCIDR` read as address and mask;
a range of fewer than eight addresses is refused. -/
def newIPAM (text : IPText) (ip mask : UInt32) : Option IPAM :=
  let base := ip &&& mask
  let size := ~~~mask + 1
  if size < 8 then none
  else some { base, size, next := 2, used := ∅, serverIP := text.format (base + 1) }

/-- The pointer after `next`: it wraps before the broadcast address. -/
def following (a : IPAM) : UInt32 :=
  let next := a.next + 1
  if next ≥ a.size - 1 then 2 else next

/-- The loop of `Allocate`, with the iterations it has left. -/
def scan : ℕ → IPAM → Option UInt32 × IPAM
  | 0, a => (none, a)
  | budget + 1, a =>
    let off := a.next
    let a := { a with next := a.following }
    if off ∈ a.used then scan budget a
    else if off = a.size - 1 then scan budget a
    else (some off, { a with used := insert off a.used })

def allocate (text : IPText) (a : IPAM) : Option String × IPAM :=
  let (off, a) := scan (a.size - 2).toNat a
  (off.map fun off => text.format (a.base + off), a)

/-- The offset that a text stands for; text that is no IPv4 address has none. -/
def offset (text : IPText) (base : UInt32) (ip : String) : Option UInt32 :=
  (text.parse ip).map (· - base)

def release (text : IPText) (a : IPAM) (ip : String) : IPAM :=
  match offset text a.base ip with
  | none => a
  | some off => { a with used := a.used.erase off }

def reserve (text : IPText) (a : IPAM) (ip : String) : IPAM :=
  match offset text a.base ip with
  | none => a
  | some off => if off < 2 ∨ off ≥ a.size - 1 then a else { a with used := insert off a.used }

/-- Offsets of client addresses: not the network, the server or the broadcast address. -/
def Assignable (a : IPAM) (off : UInt32) : Prop := 2 ≤ off ∧ off ≤ a.size - 2

/-- The pool has client addresses and its pointer is at one of them. -/
structure InRange (a : IPAM) : Prop where
  wide : 8 ≤ a.size
  pointer : a.Assignable a.next

variable {text : IPText} {a : IPAM}

section pointer

theorem assignable_iff (wide : 8 ≤ a.size) {off : UInt32} :
    a.Assignable off ↔ 2 ≤ off.toNat ∧ off.toNat ≤ a.size.toNat - 2 := by
  have two : (2 : UInt32) ≤ a.size := UInt32.le_trans (by decide) wide
  rw [Assignable, UInt32.le_iff_toNat_le, UInt32.le_iff_toNat_le, UInt32.toNat_sub_of_le _ _ two]
  rfl

/-- Within the range the pointer rotates; neither the increment nor the bound wraps. -/
theorem toNat_following (h : a.InRange) :
    a.following.toNat = Rotation.advance 2 (a.size.toNat - 2) a.next.toNat := by
  have wide : 8 ≤ a.size.toNat := UInt32.le_iff_toNat_le.mp h.wide
  obtain ⟨_, below⟩ := (assignable_iff h.wide).mp h.pointer
  have bound := a.size.toNat_lt
  have limit : (a.size - 1).toNat = a.size.toNat - 1 :=
    UInt32.toNat_sub_of_le _ _ (UInt32.le_trans (by decide) h.wide)
  have sum : (a.next + 1).toNat = a.next.toNat + 1 := by
    rw [UInt32.toNat_add]
    exact Nat.mod_eq_of_lt (by simp; omega)
  have atEnd : a.next + 1 ≥ a.size - 1 ↔ a.next.toNat = a.size.toNat - 2 := by
    rw [ge_iff_le, UInt32.le_iff_toNat_le, limit, sum]
    omega
  unfold following Rotation.advance
  by_cases last : a.next.toNat = a.size.toNat - 2
  · rw [if_pos last, if_pos (atEnd.mpr last)]
    rfl
  · rw [if_neg last, if_neg (mt atEnd.mp last), sum]

theorem InRange.following (h : a.InRange) : InRange { a with next := a.following } := by
  refine ⟨h.wide, (assignable_iff h.wide).mpr ?_⟩
  obtain ⟨above, below⟩ := (assignable_iff h.wide).mp h.pointer
  rw [toNat_following h]
  exact Rotation.advance_mem above below

/-- The pointer is never at the broadcast address, so the loop's second test never skips. -/
theorem InRange.ne_broadcast (h : a.InRange) : a.next ≠ a.size - 1 := by
  intro last
  have wide : 8 ≤ a.size.toNat := UInt32.le_iff_toNat_le.mp h.wide
  obtain ⟨_, below⟩ := (assignable_iff h.wide).mp h.pointer
  have limit : (a.size - 1).toNat = a.size.toNat - 1 :=
    UInt32.toNat_sub_of_le _ _ (UInt32.le_trans (by decide) h.wide)
  rw [last, limit] at below
  omega

end pointer

@[simp] theorem offset_format (base off : UInt32) :
    offset text base (text.format (base + off)) = some off := by
  rw [offset, text.parse_format, Option.map_some, UInt32.add_comm, UInt32.add_sub_cancel]

/-- The scan moves only the pointer, until it marks one free offset. -/
theorem scan_cases (budget : ℕ) (a : IPAM) :
    (∃ next, scan budget a = (none, { a with next })) ∨
    ∃ off next, off ∉ a.used ∧
      scan budget a = (some off, { a with next, used := insert off a.used }) := by
  induction budget generalizing a with
  | zero => exact .inl ⟨a.next, rfl⟩
  | succ budget ih =>
    unfold scan
    dsimp only
    split
    · exact ih { a with next := a.following }
    · next free =>
      split
      · exact ih { a with next := a.following }
      · exact .inr ⟨a.next, a.following, free, rfl⟩

/-- The scan keeps the pointer in range and marks assignable offsets only. -/
theorem scan_inRange (h : a.InRange) (budget : ℕ) :
    (scan budget a).2.InRange ∧ ∀ off, (scan budget a).1 = some off → a.Assignable off := by
  induction budget generalizing a with
  | zero => exact ⟨h, fun _ found => nomatch found⟩
  | succ budget ih =>
    unfold scan
    dsimp only
    split
    · exact ih h.following
    · rw [if_neg h.ne_broadcast]
      refine ⟨⟨h.wide, h.following.pointer⟩, ?_⟩
      rintro off ⟨⟩
      exact h.pointer

variable {off : UInt32}

/-- The scan finds an offset if its budget takes it as far as a free one. -/
theorem scan_complete (h : a.InRange) (assignable : a.Assignable off)
    (free : off ∉ a.used) (budget : ℕ)
    (enough : Rotation.stepsTo 2 (a.size.toNat - 2) a.next.toNat off.toNat < budget) :
    (scan budget a).1.isSome := by
  -- every pass either takes the offset under the pointer or comes one step nearer to `off`
  induction budget generalizing a with
  | zero => omega
  | succ budget ih =>
    unfold scan
    dsimp only
    split
    · next taken =>
      have away : a.next.toNat ≠ off.toNat := fun same =>
        free (UInt32.toNat_inj.mp same ▸ taken)
      obtain ⟨_, below⟩ := (assignable_iff h.wide).mp h.pointer
      obtain ⟨aboveOff, belowOff⟩ := (assignable_iff h.wide).mp assignable
      have nearer := Rotation.stepsTo_advance below aboveOff belowOff away
      refine ih h.following assignable free ?_
      dsimp only
      rw [toNat_following h]
      omega
    · rw [if_neg h.ne_broadcast]
      rfl

/-- `Allocate` fails and changes no lease, or it leases one free offset. -/
theorem allocate_cases (text : IPText) (a : IPAM) :
    (∃ next, a.allocate text = (none, { a with next })) ∨
    ∃ off next, off ∉ a.used ∧
      a.allocate text =
        (some (text.format (a.base + off)), { a with next, used := insert off a.used }) := by
  unfold allocate
  rcases scan_cases (a.size - 2).toNat a with ⟨next, scanned⟩ | ⟨off, next, free, scanned⟩
  · exact .inl ⟨next, by rw [scanned]; rfl⟩
  · exact .inr ⟨off, next, free, by rw [scanned]; rfl⟩

/-- With the pointer in range, `Allocate` fails only when every client address is
taken, and what it leases is a client address. -/
theorem allocate_spec (text : IPText) (h : a.InRange) :
    (∃ next, a.allocate text = (none, { a with next }) ∧ InRange { a with next } ∧
      ∀ off, a.Assignable off → off ∈ a.used) ∨
    ∃ off next, off ∉ a.used ∧ a.Assignable off ∧
      InRange { a with next, used := insert off a.used } ∧
      a.allocate text =
        (some (text.format (a.base + off)), { a with next, used := insert off a.used }) := by
  have scanned := scan_inRange h (a.size - 2).toNat
  unfold allocate
  rcases scan_cases (a.size - 2).toNat a with ⟨next, outcome⟩ | ⟨off, next, free, outcome⟩
  · rw [outcome] at scanned
    refine .inl ⟨next, by rw [outcome]; rfl, scanned.1, fun off assignable => ?_⟩
    by_contra free
    have wide : 8 ≤ a.size.toNat := UInt32.le_iff_toNat_le.mp h.wide
    have budget : (a.size - 2).toNat = a.size.toNat - 2 :=
      UInt32.toNat_sub_of_le _ _ (UInt32.le_trans (by decide) h.wide)
    obtain ⟨above, below⟩ := (assignable_iff h.wide).mp h.pointer
    obtain ⟨aboveOff, belowOff⟩ := (assignable_iff h.wide).mp assignable
    have turn := Rotation.stepsTo_le above below aboveOff belowOff
    have found := scan_complete h assignable free (a.size - 2).toNat (by omega)
    rw [outcome] at found
    cases found
  · rw [outcome] at scanned
    exact .inr ⟨off, next, free, scanned.2 off rfl, scanned.1, by rw [outcome]; rfl⟩

section inRange

theorem inRange_newIPAM {ip mask : UInt32} (made : newIPAM text ip mask = some a) : a.InRange := by
  unfold newIPAM at made
  dsimp only at made
  split at made
  · cases made
  · next wide =>
    obtain rfl := Option.some.inj made
    have eight : 8 ≤ ~~~mask + 1 := UInt32.not_lt.mp wide
    have number : 8 ≤ (~~~mask + 1).toNat := UInt32.le_iff_toNat_le.mp eight
    have two : (2 : UInt32).toNat = 2 := rfl
    refine ⟨eight, (assignable_iff eight).mpr ⟨Nat.le_refl 2, ?_⟩⟩
    dsimp only
    omega

theorem InRange.allocate (h : a.InRange) : (a.allocate text).2.InRange := by
  rcases allocate_spec text h with ⟨next, failed, inRange, _⟩ | ⟨off, next, _, _, inRange, leased⟩
  · rw [failed]
    exact inRange
  · rw [leased]
    exact inRange

theorem InRange.release (h : a.InRange) (ip : String) : (a.release text ip).InRange := by
  unfold IPAM.release
  split
  · exact h
  · exact ⟨h.wide, h.pointer⟩

theorem InRange.reserve (h : a.InRange) (ip : String) : (a.reserve text ip).InRange := by
  unfold IPAM.reserve
  split
  · exact h
  · split
    · exact h
    · exact ⟨h.wide, h.pointer⟩

end inRange

@[simp] theorem release_base (ip : String) : (a.release text ip).base = a.base := by
  unfold release
  split <;> rfl

theorem mem_release {ip : String} :
    off ∈ (a.release text ip).used ↔ off ∈ a.used ∧ offset text a.base ip ≠ some off := by
  unfold release
  split
  · next none => simp [none]
  · next returned found =>
    rw [found, Finset.mem_erase, and_comm, ne_comm]
    simp

theorem release_allocated {off next : UInt32} (free : off ∉ a.used) :
    (release text { a with next, used := insert off a.used } (text.format (a.base + off))) =
      { a with next } := by
  simp [release, Finset.erase_insert free]

theorem foldl_release_base (ips : List String) (a : IPAM) :
    (ips.foldl (release text) a).base = a.base := by
  induction ips generalizing a with
  | nil => rfl
  | cons ip rest ih => rw [List.foldl_cons, ih, release_base]

theorem mem_foldl_release {ips : List String} :
    off ∈ (ips.foldl (release text) a).used ↔
      off ∈ a.used ∧ ∀ ip ∈ ips, offset text a.base ip ≠ some off := by
  induction ips generalizing a with
  | nil => simp
  | cons ip rest ih =>
    rw [List.foldl_cons, ih, mem_release, release_base, List.forall_mem_cons, and_assoc]

end IPAM

end VeilNet.Source.Nodes
