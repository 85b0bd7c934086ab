import VeilNet.Lib.GoAddr
import VeilNet.Lib.GoHostPort

/-!
Texts that the Go library turns into values: decimal numbers, padded base64 and address prefixes.
An address that is read has none of the characters that mean something in a configuration file.
-/
namespace VeilNet.Lib.GoDecode
open Lib.GoIP Lib.GoAddr

section numbers

/-- `strconv.ParseUint(s, 10, 64)`. -/
def parseUint (s : String) : Option UInt64 := do
  let n ← dtoi s
  if n < 2 ^ 64 then some (UInt64.ofNat n) else none

def parsePositive (digits : List Char) : Option Int64 := do
  let n ← dtoi (String.ofList digits)
  if n < 2 ^ 63 then some (Int64.ofInt n) else none

def parseNegative (digits : List Char) : Option Int64 := do
  let n ← dtoi (String.ofList digits)
  if n ≤ 2 ^ 63 then some (Int64.ofInt (-n)) else none

/-- `strconv.ParseInt(s, 10, 64)`, and `strconv.Atoi` where an int has 64 bits. -/
def parseInt (s : String) : Option Int64 :=
  match s.toList with
  | '-' :: digits => parseNegative digits
  | '+' :: digits => parsePositive digits
  | digits => parsePositive digits

theorem digit_of_dtoi {s : String} {n : ℕ} (read : dtoi s = some n) :
    s.toList ≠ [] ∧ ∀ c ∈ s.toList, c.isDigit = true := by
  simp only [dtoi, Option.ite_none_right_eq_some] at read
  exact ⟨read.1.1, List.all_eq_true.mp read.1.2⟩

theorem dtoi_toString (n : ℕ) : dtoi (toString n) = some n := by
  have digits : (toString n).toList = Nat.toDigits 10 n := by
    rw [show toString n = n.repr from rfl, Nat.repr_eq_ofList_toDigits, String.toList_ofList]
  have all : (Nat.toDigits 10 n).all Char.isDigit = true := by
    rw [List.all_eq_true]
    exact fun c member => Nat.isDigit_of_mem_toDigits (by decide) (Nat.le_refl 10) member
  simp only [dtoi, digits]
  rw [if_pos ⟨Nat.toDigits_ne_nil, all⟩]
  exact congrArg some Nat.ofDigitChars_ten_toDigits

/-- The digits of a number are no sign. -/
theorem parseInt_of_dtoi {s : String} {n : ℕ} (read : dtoi s = some n) :
    parseInt s = parsePositive s.toList := by
  obtain ⟨some, digits⟩ := digit_of_dtoi read
  obtain ⟨c, rest, chars⟩ := List.exists_cons_of_ne_nil some
  have digit := digits c (chars ▸ List.mem_cons_self)
  rw [parseInt]
  split
  · rename_i more minus
    cases chars.symm.trans minus
    cases digit
  · rename_i more plus
    cases chars.symm.trans plus
    cases digit
  · rfl

/-- A positive number is read from its text. -/
theorem parseInt_toString {n : Int64} (positive : 0 < n) :
    parseInt (toString n.toInt) = some n := by
  have above : 0 ≤ n.toInt := Int.le_of_lt (Int64.lt_iff_toInt_lt.mp positive)
  have below := Int64.toInt_lt n
  have value : ((n.toInt.toNat : ℕ) : ℤ) = n.toInt := Int.toNat_of_nonneg above
  have read := dtoi_toString n.toInt.toNat
  have text : toString n.toInt = toString n.toInt.toNat := by
    rw [← value]
    rfl
  rw [text, parseInt_of_dtoi read, parsePositive, String.ofList_toList, read]
  simp only [Option.bind_eq_bind, Option.bind_some]
  rw [if_pos (by omega), value, Int64.ofInt_toInt]

/-- A number is read from digits, after a sign at most. -/
theorem mem_of_parseInt {s : String} {n : Int64} (read : parseInt s = some n) :
    s.toList ≠ [] ∧ ∀ c ∈ s.toList, c.isDigit = true ∨ c = '-' ∨ c = '+' := by
  have positive : ∀ {digits : List Char}, parsePositive digits = some n →
      digits ≠ [] ∧ ∀ c ∈ digits, c.isDigit = true := by
    intro digits read
    obtain ⟨m, number, _⟩ := Option.bind_eq_some_iff.mp read
    simpa using digit_of_dtoi number
  rw [parseInt] at read
  split at read
  · rename_i digits chars
    obtain ⟨m, number, _⟩ := Option.bind_eq_some_iff.mp read
    have all := digit_of_dtoi number
    rw [String.toList_ofList] at all
    simpa [chars] using fun c member => .inl (all.2 c member)
  · rename_i digits chars
    have all := positive read
    simpa [chars] using fun c member => .inl (all.2 c member)
  · have all := positive read
    exact ⟨all.1, fun c member => .inl (all.2 c member)⟩

end numbers

section base64

/-- The value of a digit of the standard alphabet. -/
def sextet (c : Char) : Option ℕ :=
  if 'A' ≤ c ∧ c ≤ 'Z' then some (c.toNat - 'A'.toNat)
  else if 'a' ≤ c ∧ c ≤ 'z' then some (c.toNat - 'a'.toNat + 26)
  else if '0' ≤ c ∧ c ≤ '9' then some (c.toNat - '0'.toNat + 52)
  else if c = '+' then some 62
  else if c = '/' then some 63
  else none

/-- The bytes of four digits. -/
def threeBytes (a b c d : ℕ) : List UInt8 :=
  let value := a * 2 ^ 18 + b * 2 ^ 12 + c * 2 ^ 6 + d
  [UInt8.ofNat (value / 2 ^ 16), UInt8.ofNat (value / 2 ^ 8), UInt8.ofNat value]

/-- Four digits at a time; only the last four may be padded, and the bits that the padding
cuts off are not looked at. -/
def decodeQuanta : List Char → Option (List UInt8)
  | [] => some []
  | a :: b :: c :: d :: rest =>
    if d ≠ '=' then do
      let first := threeBytes (← sextet a) (← sextet b) (← sextet c) (← sextet d)
      return first ++ (← decodeQuanta rest)
    else if rest ≠ [] then none
    else if c ≠ '=' then do
      return (threeBytes (← sextet a) (← sextet b) (← sextet c) 0).take 2
    else do
      return (threeBytes (← sextet a) (← sextet b) 0 0).take 1
  | _ => none

/-- `base64.StdEncoding.DecodeString`, which skips line ends anywhere. -/
def decodeString (s : String) : Option (List UInt8) :=
  decodeQuanta (s.toList.filter fun c => c ≠ '\r' ∧ c ≠ '\n')

end base64

section addresses

/-- The number of bits after the slash; no sign and no leading zero. -/
def prefixBits (text : List Char) : Option Int64 :=
  if 1 < text.length ∧ text.head?.any (fun c => c < '1' || '9' < c) then none
  else parseInt (String.ofList text)

/-- `netip.ParsePrefix`: an address without a zone, and a number of bits that it has. -/
def parsePrefix (s : String) : Option (Addr × ℕ) := do
  let (addrText, bitsText) ← GoHostPort.cutLast '/' s.toList
  let ip ← parseIP (String.ofList addrText)
  let bits ← prefixBits bitsText
  if bits < 0 ∨ ip.bitLen < bits.toInt then none else some (ip, bits.toInt.toNat)

/-- The characters of addresses and numbers. -/
def isPlain (c : Char) : Bool := isHex c || ['.', ':', '/', '-', '+'].contains c

theorem plain_of_isHex {c : Char} (digit : isHex c = true) : isPlain c = true := by
  simp [isPlain, digit]

theorem plain_of_isDigit {c : Char} (digit : c.isDigit = true) : isPlain c = true :=
  plain_of_isHex (isHex_of_isDigit digit)

theorem plain_of_parseQuad {s : String} {a : UInt32} (parsed : IPText.parseQuad s = some a) :
    ∀ c ∈ s.toList, isPlain c = true := by
  intro c member
  obtain digit | rfl := IPText.plain_of_parseQuad parsed c member
  · exact plain_of_isDigit digit
  · rfl

theorem plain_of_parseGroups {room : ℕ} {ellipsis : Option ℕ} {done : List UInt16} {s : List Char}
    {groups : List UInt16 × Option ℕ} (parsed : parseGroups room ellipsis done s = some groups) :
    ∀ c ∈ s, isPlain c = true := by
  induction room generalizing ellipsis done s with
  | zero => cases parsed
  | succ room ih =>
    have front : ∀ c ∈ s.takeWhile isHex, isPlain c = true :=
      fun c member => plain_of_isHex (List.mem_takeWhile_imp member)
    suffices back : ∀ c ∈ s.dropWhile isHex, isPlain c = true by
      intro c member
      rw [← List.takeWhile_append_dropWhile (p := isHex) (l := s)] at member
      exact (List.mem_append.mp member).elim (front c) (back c)
    have colon : isPlain ':' = true := rfl
    rw [parseGroups] at parsed
    split at parsed
    · cases parsed
    split at parsed
    · rename_i stop
      simp [stop]
    · -- an IPv4 address to the end
      split at parsed
      · cases parsed
      split at parsed
      · cases parsed
      obtain ⟨a, quad, _⟩ := Option.map_eq_some_iff.mp parsed
      have all := plain_of_parseQuad quad
      rw [String.toList_ofList] at all
      exact fun c member => all c ((List.dropWhile_suffix isHex).subset member)
    · cases parsed
    · rename_i rest stop
      split at parsed
      · cases parsed
      split at parsed
      · rename_i _ last
        simp [stop, last, colon]
      · have more := ih parsed
        simpa [stop, colon] using more
    · rename_i rest _ _ stop
      have more := ih parsed
      simpa [stop, colon] using more
    · cases parsed

theorem plain_of_parse6 {s : List Char} {groups : List UInt16} (parsed : parse6 s = some groups) :
    ∀ c ∈ s, isPlain c = true := by
  have colon : isPlain ':' = true := rfl
  unfold parse6 at parsed
  split at parsed
  · simp [colon]
  · obtain ⟨found, read, _⟩ := Option.bind_eq_some_iff.mp parsed
    have more := plain_of_parseGroups read
    simpa [colon] using more
  · obtain ⟨found, read, _⟩ := Option.bind_eq_some_iff.mp parsed
    exact plain_of_parseGroups read

/-- An address is not the empty text and has plain characters. -/
theorem plain_of_parseIP {s : String} {a : Addr} (parsed : parseIP s = some a) :
    s.toList ≠ [] ∧ ∀ c ∈ s.toList, isPlain c = true := by
  rw [parseIP] at parsed
  split at parsed
  · rename_i found
    obtain ⟨word, quad, _⟩ := Option.map_eq_some_iff.mp parsed
    exact ⟨List.ne_nil_of_mem (List.mem_of_find?_eq_some found), plain_of_parseQuad quad⟩
  · rename_i found
    split at parsed
    · cases parsed
    obtain ⟨groups, read, _⟩ := Option.bind_eq_some_iff.mp parsed
    exact ⟨List.ne_nil_of_mem (List.mem_of_find?_eq_some found), plain_of_parse6 read⟩
  · cases parsed

theorem plain_of_parsePrefix {s : String} {net : Addr × ℕ} (parsed : parsePrefix s = some net) :
    s.toList ≠ [] ∧ ∀ c ∈ s.toList, isPlain c = true := by
  simp only [parsePrefix, Option.bind_eq_bind, Option.bind_eq_some_iff, Prod.exists] at parsed
  obtain ⟨addrText, bitsText, halves, ip, address, bits, number, _⟩ := parsed
  obtain ⟨whole, _⟩ := GoHostPort.cutLast_iff.mp halves
  have front := (plain_of_parseIP address).2
  rw [prefixBits] at number
  split at number
  · cases number
  have back := (mem_of_parseInt number).2
  rw [String.toList_ofList] at front back
  rw [whole]
  refine ⟨by simp, ?_⟩
  intro c member
  obtain inAddr | rfl | inBits : c ∈ addrText ∨ c = '/' ∨ c ∈ bitsText := by simpa using member
  · exact front c inAddr
  · rfl
  · obtain digit | rfl | rfl := back c inBits
    · exact plain_of_isDigit digit
    · rfl
    · rfl

/-- Plain characters have no meaning in a list of words or of lines. -/
theorem visible_of_plain {c : Char} (plain : isPlain c = true) :
    GoText.isSpace c = false ∧ c ≠ ',' := by
  simp only [isPlain, Bool.or_eq_true] at plain
  obtain digit | mark := plain
  · have bounds : '0'.toNat ≤ c.toNat ∧ c.toNat ≤ 'f'.toNat := by
      have place : ∀ {a b : Char}, a ≤ b ↔ a.toNat ≤ b.toNat := Iff.rfl
      simp only [isHex, hexValue, place] at digit
      have zero : '0'.toNat ≤ 'a'.toNat ∧ '0'.toNat ≤ 'A'.toNat := by decide
      have letters : '9'.toNat ≤ 'f'.toNat ∧ 'F'.toNat ≤ 'f'.toNat := by decide
      split at digit
      · omega
      split at digit
      · omega
      split at digit
      · omega
      · cases digit
    have visible : 0x20 < '0'.toNat ∧ 'f'.toNat < 0x7F := by decide
    refine ⟨GoText.isSpace_of_visible (by omega) (by omega), ?_⟩
    rintro rfl
    exact absurd bounds (by decide)
  · simp only [List.contains_eq_mem, List.mem_cons, List.not_mem_nil, or_false,
      decide_eq_true_eq] at mark
    obtain rfl | rfl | rfl | rfl | rfl := mark
    all_goals decide

end addresses

end VeilNet.Lib.GoDecode
