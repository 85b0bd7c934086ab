import VeilNet.Source.Nodes.Ipam
import VeilNet.Lib.Run
import Mathlib.Data.Set.Card
import Mathlib.Order.Interval.Finset.Nat

/-!
# The address pool

For every range that `NewIPAM` accepts and every run, with any texts: `Allocate` hands out a free
client address and fails only when there is none. Its scan goes the whole turn, wherever it
starts.
-/
namespace VeilNet.Guarantees.AddressPool
open Lib Source.Nodes

inductive Op where
  | allocate
  | release (ip : String)
  | reserve (ip : String)

def step (text : IPText) (a : IPAM) : Op → IPAM
  | .allocate => (a.allocate text).2
  | .release ip => a.release text ip
  | .reserve ip => a.reserve text ip

/-- The pool over the range `ip`/`mask` in a state where it works as it should.
The bounds on an address are bounds on numbers: the range does not wrap. -/
structure Correct (text : IPText) (ip mask : UInt32) (a : IPAM) : Prop where
  range : a.base = ip &&& mask ∧ a.size = ~~~mask + 1
  pointer : 2 ≤ a.next ∧ a.next ≤ a.size - 2
  fresh : ∀ given after, a.allocate text = (some given, after) →
    ∃ addr, text.parse given = some addr ∧
      a.base.toNat + 1 < addr.toNat ∧ addr.toNat < a.base.toNat + a.size.toNat - 1 ∧
      addr - a.base ∉ a.used ∧ addr - a.base ∈ after.used
  assignable : { off | a.Assignable off }.ncard = a.size.toNat - 3
  exhausted_iff : (a.allocate text).1 = none ↔ ∀ off, a.Assignable off → off ∈ a.used

/-- The invariant of the pool: its range is the configured one and does not wrap,
and the pointer is at a client address. -/
structure Sound (ip mask : UInt32) (a : IPAM) : Prop where
  base : a.base = ip &&& mask
  size : a.size = ~~~mask + 1
  fits : a.base.toNat + a.size.toNat ≤ 2 ^ 32
  inRange : a.InRange

section counting

theorem ncard_assignable {a : IPAM} (wide : 8 ≤ a.size) :
    { off | a.Assignable off }.ncard = a.size.toNat - 3 := by
  have bound := a.size.toNat_lt
  have image : UInt32.toNat '' { off | a.Assignable off } =
      (Finset.Icc 2 (a.size.toNat - 2) : Finset ℕ) := by
    ext n
    simp only [Set.mem_image, Set.mem_ofPred_eq, IPAM.assignable_iff wide, Finset.coe_Icc,
      Set.mem_Icc]
    constructor
    · rintro ⟨off, inside, rfl⟩
      exact inside
    · intro inside
      have value : (UInt32.ofNat n).toNat = n :=
        UInt32.toNat_ofNat_of_lt' (by simp only [UInt32.size]; omega)
      exact ⟨UInt32.ofNat n, by rwa [value], value⟩
  rw [← Set.ncard_image_of_injective _ fun _ _ => UInt32.toNat_inj.mp, image, Set.ncard_coe_finset,
    Nat.card_Icc]
  omega

end counting

section invariant
variable {text : IPText} {ip mask : UInt32} {a : IPAM}

/-- A pool starts at its first client address; the base is at most the mask, so
the range ends within the address space. -/
theorem sound_start (accepted : IPAM.newIPAM text ip mask = some a) : Sound ip mask a := by
  have inRange := IPAM.inRange_newIPAM accepted
  unfold IPAM.newIPAM at accepted
  dsimp only at accepted
  split at accepted
  · cases accepted
  · next wide =>
    obtain rfl := Option.some.inj accepted
    have number : 8 ≤ (~~~mask + 1).toNat := UInt32.le_iff_toNat_le.mp inRange.wide
    have size : (~~~mask + 1).toNat = (2 ^ 32 - 1 - mask.toNat + 1) % 2 ^ 32 := by
      rw [UInt32.toNat_add, UInt32.toNat_not]
      rfl
    have base : (ip &&& mask).toNat ≤ mask.toNat := by
      rw [UInt32.toNat_and]
      exact Nat.and_le_right
    have bound := mask.toNat_lt
    refine ⟨rfl, rfl, ?_, inRange⟩
    dsimp only
    omega

theorem sound_step (h : Sound ip mask a) (op : Op) : Sound ip mask (step text a op) := by
  cases op with
  | allocate =>
    rw [step]
    rcases IPAM.allocate_spec text h.inRange with
      ⟨next, failed, inRange, _⟩ | ⟨off, next, _, _, inRange, leased⟩
    · rw [failed]
      exact ⟨h.base, h.size, h.fits, inRange⟩
    · rw [leased]
      exact ⟨h.base, h.size, h.fits, inRange⟩
  | release given =>
    rw [step, IPAM.release]
    split
    · exact h
    · exact ⟨h.base, h.size, h.fits, h.inRange.wide, h.inRange.pointer⟩
  | reserve given =>
    rw [step, IPAM.reserve]
    split
    · exact h
    · split
      · exact h
      · exact ⟨h.base, h.size, h.fits, h.inRange.wide, h.inRange.pointer⟩

/-- A client address is the base plus its offset, without wrapping. -/
theorem Sound.toNat_address (h : Sound ip mask a) {off : UInt32} (assignable : a.Assignable off) :
    a.base.toNat + 1 < (a.base + off).toNat ∧
      (a.base + off).toNat < a.base.toNat + a.size.toNat - 1 := by
  have wide : 8 ≤ a.size.toNat := UInt32.le_iff_toNat_le.mp h.inRange.wide
  have fits := h.fits
  obtain ⟨above, below⟩ := (IPAM.assignable_iff h.inRange.wide).mp assignable
  have sum : (a.base + off).toNat = a.base.toNat + off.toNat := by
    rw [UInt32.toNat_add]
    exact Nat.mod_eq_of_lt (by omega)
  omega

theorem Sound.correct (h : Sound ip mask a) : Correct text ip mask a := by
  refine ⟨⟨h.base, h.size⟩, h.inRange.pointer, ?_, ncard_assignable h.inRange.wide, ?_⟩
  · intro given after allocated
    rcases IPAM.allocate_spec text h.inRange with
      ⟨next, failed, _⟩ | ⟨off, next, free, assignable, _, leased⟩
    · rw [failed] at allocated
      cases allocated
    · rw [leased] at allocated
      cases allocated
      have offset : a.base + off - a.base = off := by
        rw [UInt32.add_comm, UInt32.add_sub_cancel]
      obtain ⟨above, below⟩ := h.toNat_address assignable
      exact ⟨a.base + off, text.parse_format _, above, below, by rwa [offset], by simp [offset]⟩
  · rcases IPAM.allocate_spec text h.inRange with
      ⟨next, failed, _, full⟩ | ⟨off, next, free, assignable, _, leased⟩
    · rw [failed]
      exact iff_of_true rfl full
    · rw [leased]
      exact iff_of_false (by simp) fun full => free (full off assignable)

end invariant

/-- The pool works as it should in every state of every run. -/
theorem pool_correct (text : IPText) (ip mask : UInt32) (a : IPAM)
    (accepted : IPAM.newIPAM text ip mask = some a) (ops : List Op) :
    Run.Throughout (step text) (Correct text ip mask) a ops := by
  have sound : Run.Throughout (step text) (Sound ip mask) a ops :=
    Run.throughout_of_step (sound_start accepted) fun a op h => sound_step h op
  exact sound.mono fun a h => h.correct

/-- The pool over 10.0.0.0/29, with five client addresses. -/
def smallPool : IPAM := ⟨0x0A000000, 8, 2, ∅, "10.0.0.1"⟩

/-- A run over the smallest range, with addresses of another network. -/
theorem smallPool_correct :
    IPAM.newIPAM IPText.dottedQuad 0x0A000000 0xFFFFFFF8 = some smallPool ∧
    Run.Throughout (step IPText.dottedQuad) (Correct IPText.dottedQuad 0x0A000000 0xFFFFFFF8)
      smallPool
      [ .allocate, .reserve "10.0.0.4", .release "192.168.0.1", .reserve "9.255.255.255", .allocate,
        .release "10.0.0.2", .allocate, .allocate, .allocate ] :=
  have accepted : IPAM.newIPAM IPText.dottedQuad 0x0A000000 0xFFFFFFF8 = some smallPool := by
    decide
  ⟨accepted, pool_correct IPText.dottedQuad 0x0A000000 0xFFFFFFF8 smallPool accepted _⟩

example : ((Run.run (step IPText.dottedQuad) smallPool (List.replicate 5 .allocate)).allocate
    IPText.dottedQuad).1 = none := by decide

end VeilNet.Guarantees.AddressPool
