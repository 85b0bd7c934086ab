import VeilNet.Source.Nodes.Settings

/-!
# No setting crashes the node

`Validate` accepts every CIDR text, and `NewIPAM` takes each address that has an IPv4 form. If it
comes in IPv6 form, its mask has 16 bytes; unless the first twelve are ones, the mask does not
apply, and reading the missing result panics. Nothing else does.
-/
namespace VeilNet.Guarantees.ConfigSafety
open Lib Lib.GoIP Source.Nodes

/-- An IPv4 address in IPv6 form has at least 96 ones in its mask. -/
def MappedFrom96 (net : NetText) (cidr : String) : Prop :=
  ∀ bytes ones, readCIDR net.parseAddr cidr = some (.v6 bytes, ones) → Mapped bytes.toList →
    96 ≤ ones

variable {text : IPText} {net : NetText} {cidr : String}

/-- An IPv6 range: an error without IPv4 form, and otherwise a panic below `/96`. -/
theorem newIPAM_v6_returns_iff {bytes : Vector UInt8 16} {ones : ℕ}
    (range : readCIDR net.parseAddr cidr = some (.v6 bytes, ones)) :
    (∃ outcome, newIPAM text net cidr = .ok outcome) ↔ (Mapped bytes.toList → 96 ≤ ones) := by
  have sixteen : bytes.toList.length = 16 := by simp
  have parsed : parseCIDR net.parseAddr cidr = some (bytes.toList, cidrMask ones 128) := by
    rw [parseCIDR, range]
    rfl
  unfold newIPAM
  rw [parsed]
  dsimp only
  by_cases mapped : Mapped bytes.toList
  · have ip4 : to4 bytes.toList = bytes.toList.drop 12 := by simp [to4, mapped]
    have four : (bytes.toList.drop 12).length = 4 := by simp
    have some : bytes.toList.drop 12 ≠ [] := List.ne_nil_of_length_pos (by omega)
    obtain ⟨mask, ofMask⟩ := uint32_ok_iff.mpr
      (show 4 ≤ (cidrMask ones 128).length by rw [length_cidrMask]; decide)
    have based : (∃ base, uint32 (applyMask (bytes.toList.drop 12) (cidrMask ones 128)) =
        .ok base) ↔ 96 ≤ ones := by
      rw [uint32_ok_iff, length_applyMask four]
      split <;> simp_all
    rw [ip4, if_neg some, ofMask, forall_prop_of_true mapped, ← based]
    constructor
    · intro returns
      obtain ⟨outcome, returned⟩ := returns
      obtain ⟨_, _, returned⟩ := Outcome.of_bind_ok returned
      obtain ⟨base, ofBase, _⟩ := Outcome.of_bind_ok returned
      exact ⟨base, ofBase⟩
    · intro hasBase
      obtain ⟨base, ofBase⟩ := hasBase
      rw [ofBase]
      exact ⟨_, rfl⟩
  · have none : to4 bytes.toList = [] := by simp [to4, mapped]
    rw [if_pos none]
    exact iff_of_true ⟨_, rfl⟩ fun isMapped => absurd isMapped mapped

/-- For settings that `Validate` accepts, `NewIPAM` returns (a pool or an error)
exactly when an IPv4 address in IPv6 form has at least 96 ones in its mask. -/
theorem newIPAM_returns_iff (text : IPText) (net : NetText) (c : Settings)
    (accepted : c.validate net = .ok ()) :
    (∃ outcome, newIPAM text net c.cgnat = .ok outcome) ↔ MappedFrom96 net c.cgnat := by
  obtain ⟨addr, ones, range⟩ := Settings.validate_ok accepted
  unfold MappedFrom96
  cases addr with
  | v4 a =>
    obtain ⟨mask, _, returned⟩ := newIPAM_v4 text range
    refine iff_of_true ⟨_, returned⟩ fun bytes ones' other => ?_
    rw [range] at other
    cases other
  | v6 bytes =>
    rw [newIPAM_v6_returns_iff range]
    constructor
    · intro long bytes' ones' other mapped
      rw [range] at other
      cases other
      exact long mapped
    · intro all mapped
      exact all bytes ones range mapped

section sample

/-- Dotted quads, and the same behind `::ffff:`. -/
def quads (s : String) : Option Addr :=
  match IPText.parseQuad s with
  | some a => some (.v4 a)
  | none =>
    if "::ffff:".toList.isPrefixOf s.toList then
      (IPText.parseQuad (String.ofList (s.toList.drop 7))).map fun a =>
        let (p, q, r, s) := IPText.octets a
        .v6 #v[0, 0, 0, 0, 0, 0, 0, 0, 0, 0, 0xff, 0xff, p, q, r, s]
    else none

def sampleNet : NetText :=
  ⟨quads, fun s => ((GoText.cut s ':').map Except.ok).getD (.error "missing port")⟩

def settings (cgnat : String) : Settings :=
  ⟨"EXIT", 100, cgnat, "100.64.0.1", "127.0.0.1:9090", false, 0, 0, 0⟩

/-- The default range is accepted and gives a pool. -/
theorem defaultRange_returns :
    (settings "100.64.0.0/10").validate sampleNet = .ok () ∧
      ∃ outcome, newIPAM .dottedQuad sampleNet "100.64.0.0/10" = .ok outcome := by
  have accepted : (settings "100.64.0.0/10").validate sampleNet = .ok () := by decide
  refine ⟨accepted, (newIPAM_returns_iff .dottedQuad sampleNet
    (settings "100.64.0.0/10") accepted).mpr ?_⟩
  intro bytes ones other
  have plain : readCIDR sampleNet.parseAddr "100.64.0.0/10" = some (.v4 0x64400000, 10) := by
    decide
  rw [show (settings "100.64.0.0/10").cgnat = "100.64.0.0/10" from rfl, plain] at other
  cases other

/-- The same range in IPv6 form is accepted too, and crashes the node. -/
theorem mappedRange_panics :
    (settings "::ffff:100.64.0.0/10").validate sampleNet = .ok () ∧
      newIPAM .dottedQuad sampleNet "::ffff:100.64.0.0/10" = .error .indexOutOfRange := by
  constructor
  · decide
  · rfl

end sample

end VeilNet.Guarantees.ConfigSafety
