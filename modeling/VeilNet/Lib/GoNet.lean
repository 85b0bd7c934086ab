import VeilNet.Lib.GoText

/-!
The text of IPv4 addresses. Code that prints addresses with `net.IP.String` and reads them with
`net.ParseIP(s).To4()` takes an `IPText`, which reads back what was printed and is left open
elsewhere, as IPv6 forms are read too. Dotted quads are one such text.
-/
namespace VeilNet.Lib

structure IPText where
  format : UInt32 → String
  parse : String → Option UInt32
  parse_format : ∀ a, parse (format a) = some a

namespace IPText

def octetText (b : UInt8) : String := toString b.toNat

/-- A decimal field of a dotted quad: at most three digits, no leading zero, at most 255. -/
def parseOctet (s : String) : Option UInt8 :=
  let digits := s.toList
  let value := digits.foldl (fun acc c => 10 * acc + (c.toNat - 48)) 0
  if digits ≠ [] ∧ digits.length ≤ 3 ∧ digits.all Char.isDigit ∧
      (digits.head? = some '0' → digits.length = 1) ∧ value ≤ 255 then
    some (UInt8.ofNat value)
  else none

/-- The four octets, the most significant first. -/
def octets (a : UInt32) : UInt8 × UInt8 × UInt8 × UInt8 :=
  (UInt8.ofNat (a.toNat / 2 ^ 24), UInt8.ofNat (a.toNat / 2 ^ 16), UInt8.ofNat (a.toNat / 2 ^ 8),
    UInt8.ofNat a.toNat)

def ofOctets (a b c d : UInt8) : UInt32 :=
  UInt32.ofNat (a.toNat * 2 ^ 24 + b.toNat * 2 ^ 16 + c.toNat * 2 ^ 8 + d.toNat)

def formatQuad (addr : UInt32) : String :=
  let (a, b, c, d) := octets addr
  octetText a ++ "." ++ (octetText b ++ "." ++ (octetText c ++ "." ++ octetText d))

def parseQuad (s : String) : Option UInt32 := do
  let (a, rest) ← GoText.cut s '.'
  let (b, rest) ← GoText.cut rest '.'
  let (c, d) ← GoText.cut rest '.'
  return ofOctets (← parseOctet a) (← parseOctet b) (← parseOctet c) (← parseOctet d)

theorem octet_roundTrip (b : UInt8) :
    parseOctet (octetText b) = some b ∧ '.' ∉ (octetText b).toList := by
  have all : ∀ n : Fin 256, parseOctet (octetText (UInt8.ofNat n)) = some (UInt8.ofNat n) ∧
      '.' ∉ (octetText (UInt8.ofNat n)).toList := by decide +kernel
  simpa using all ⟨b.toNat, b.toNat_lt⟩

theorem ofOctets_octets (addr : UInt32) :
    ofOctets (octets addr).1 (octets addr).2.1 (octets addr).2.2.1 (octets addr).2.2.2 = addr := by
  apply UInt32.toNat_inj.mp
  have bound := addr.toNat_lt
  simp only [ofOctets, octets, UInt8.toNat_ofNat', UInt32.toNat_ofNat']
  omega

/-- The word as its octets one after the other. -/
theorem ofOctets_eq_append (a b c d : UInt8) :
    (ofOctets a b c d).toBitVec = a.toBitVec ++ b.toBitVec ++ c.toBitVec ++ d.toBitVec := by
  apply BitVec.eq_of_toNat_eq
  have ha := a.toNat_lt
  have hb := b.toNat_lt
  have hc := c.toNat_lt
  have hd := d.toNat_lt
  simp only [BitVec.toNat_append, UInt32.toNat_toBitVec, UInt8.toNat_toBitVec, ofOctets,
    UInt32.toNat_ofNat']
  rw [← Nat.shiftLeft_add_eq_or_of_lt hb, ← Nat.shiftLeft_add_eq_or_of_lt hc,
    ← Nat.shiftLeft_add_eq_or_of_lt hd]
  simp only [Nat.shiftLeft_eq]
  omega

/-- Octets are masked one by one. -/
theorem ofOctets_and (a b c d a' b' c' d' : UInt8) :
    ofOctets a b c d &&& ofOctets a' b' c' d' =
      ofOctets (a &&& a') (b &&& b') (c &&& c') (d &&& d') := by
  apply UInt32.toBitVec_inj.mp
  simp only [UInt32.toBitVec_and, ofOctets_eq_append, UInt8.toBitVec_and]
  refine BitVec.and_append.trans ?_
  rw [BitVec.and_append, BitVec.and_append]

theorem parseQuad_formatQuad (addr : UInt32) : parseQuad (formatQuad addr) = some addr := by
  have cutOctet : ∀ (b : UInt8) (rest : String),
      GoText.cut (octetText b ++ "." ++ rest) '.' = some (octetText b, rest) := fun b _ =>
    GoText.cut_iff.mpr ⟨rfl, (octet_roundTrip b).2⟩
  simp [parseQuad, formatQuad, cutOctet, (octet_roundTrip _).1, ofOctets_octets]

theorem digit_of_parseOctet {s : String} {b : UInt8} (parsed : parseOctet s = some b) :
    ∀ c ∈ s.toList, c.isDigit = true := by
  simp only [parseOctet, Option.ite_none_right_eq_some] at parsed
  exact List.all_eq_true.mp parsed.1.2.2.1

/-- A dotted quad is made of digits and dots. -/
theorem plain_of_parseQuad {s : String} {addr : UInt32} (parsed : parseQuad s = some addr) :
    ∀ c ∈ s.toList, c.isDigit = true ∨ c = '.' := by
  simp only [parseQuad, Option.bind_eq_bind, Option.bind_eq_some_iff, Prod.exists] at parsed
  obtain ⟨a, rest, cutA, b, rest', cutB, c, d, cutC, _, octetA, _, octetB, _, octetC, _, octetD,
      _⟩ :=
    parsed
  obtain ⟨rfl, _⟩ := GoText.cut_iff.mp cutA
  obtain ⟨rfl, _⟩ := GoText.cut_iff.mp cutB
  obtain ⟨rfl, _⟩ := GoText.cut_iff.mp cutC
  have digits : ∀ {s : String} {o : UInt8}, parseOctet s = some o →
      ∀ c ∈ s.toList, c.isDigit = true ∨ c = '.' :=
    fun octet c member => .inl (digit_of_parseOctet octet c member)
  intro ch member
  simp only [String.toList_append, String.toList_singleton, List.mem_append,
    List.mem_singleton] at member
  rcases member with (inA | dot) | (inB | dot) | (inC | dot) | inD
  · exact digits octetA ch inA
  · exact .inr dot
  · exact digits octetB ch inB
  · exact .inr dot
  · exact digits octetC ch inC
  · exact .inr dot
  · exact digits octetD ch inD

/-- Dotted decimal. -/
def dottedQuad : IPText := ⟨formatQuad, parseQuad, parseQuad_formatQuad⟩

example : dottedQuad.format 0x64400002 = "100.64.0.2" := by decide

end IPText

end VeilNet.Lib
