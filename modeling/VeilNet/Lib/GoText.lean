import VeilNet.Lib.Separator

/-!
The few functions on strings that the modelled packages use, with hex and unpadded base64url
encoding.
-/
namespace VeilNet.Lib.GoText

/-- The characters before and after the first separator. -/
def cutChars (sep : Char) : List Char → Option (List Char × List Char)
  | [] => none
  | c :: rest =>
    if c = sep then some ([], rest)
    else (cutChars sep rest).map fun (before, after) => (c :: before, after)

/-- `strings.Cut(s, sep)` for a one-character separator; none when it is absent. -/
def cut (s : String) (sep : Char) : Option (String × String) :=
  (cutChars sep s.toList).map fun (before, after) => (String.ofList before, String.ofList after)

variable {sep : Char}

theorem cutChars_iff {s a b : List Char} :
    cutChars sep s = some (a, b) ↔ s = a ++ sep :: b ∧ sep ∉ a := by
  induction s generalizing a with
  | nil => simp [cutChars]
  | cons c rest ih =>
    by_cases isSep : c = sep
    · subst isSep
      cases a <;> simp [cutChars]
      rintro rfl _ absent
      exact absurd rfl absent
    · simp only [cutChars, if_neg isSep, Option.map_eq_some_iff, Prod.exists, Prod.mk.injEq]
      cases a with
      | nil => simp [isSep]
      | cons d a =>
        constructor
        · rintro ⟨before, after, found, head, rfl⟩
          obtain ⟨rfl, rfl⟩ := List.cons.inj head
          obtain ⟨rfl, free⟩ := ih.mp found
          exact ⟨rfl, by simp [Ne.symm isSep, free]⟩
        · rintro ⟨eq, free⟩
          obtain ⟨rfl, rfl⟩ := List.cons.inj eq
          exact ⟨a, b, ih.mpr ⟨rfl, fun m => free (List.mem_cons_of_mem _ m)⟩, rfl, rfl⟩

/-- `Cut` inverts the join, for a first part without the separator. -/
theorem cut_iff {s a b : String} :
    cut s sep = some (a, b) ↔ s = a ++ String.singleton sep ++ b ∧ sep ∉ a.toList := by
  have chars : s = a ++ String.singleton sep ++ b ↔ s.toList = a.toList ++ sep :: b.toList := by
    rw [← String.toList_inj]
    simp
  rw [chars, ← cutChars_iff]
  simp only [cut, Option.map_eq_some_iff, Prod.exists, Prod.mk.injEq]
  constructor
  · rintro ⟨before, after, found, rfl, rfl⟩
    simpa using found
  · intro found
    exact ⟨_, _, found, by simp, by simp⟩

/-- `unicode.IsSpace`, by code point. -/
def isSpace (c : Char) : Bool :=
  c.toNat ∈ [0x9, 0xA, 0xB, 0xC, 0xD, 0x20, 0x85, 0xA0, 0x1680, 0x2028, 0x2029, 0x202F, 0x205F,
    0x3000] || (0x2000 ≤ c.toNat && c.toNat ≤ 0x200A)

/-- No visible ASCII character is a space. -/
theorem isSpace_of_visible {c : Char} (above : 0x20 < c.toNat) (below : c.toNat < 0x7F) :
    isSpace c = false := by
  have early : c.toNat ∉ [0x9, 0xA, 0xB, 0xC, 0xD, 0x20, 0x85, 0xA0, 0x1680, 0x2028, 0x2029, 0x202F,
      0x205F, 0x3000] := by
    simp only [List.mem_cons, List.not_mem_nil, or_false]
    omega
  have late : ¬ 0x2000 ≤ c.toNat := by omega
  simp only [isSpace, decide_eq_false early, decide_eq_false late, Bool.false_and, Bool.or_self]

/-- `strings.TrimSpace(s) == ""`. -/
def blank (s : String) : Bool := s.toList.all isSpace

/-- `strings.TrimSpace`. -/
def trimSpace (s : String) : String :=
  String.ofList (((s.toList.dropWhile isSpace).reverse.dropWhile isSpace).reverse)

/-- `strings.Split`, for a separator of one character. -/
def split (s : String) (sep : Char) : List String := (s.toList.splitOn sep).map String.ofList

/-- `strings.Fields`. -/
def fields (s : String) : List String :=
  ((s.toList.splitOnP isSpace).filter (· ≠ [])).map String.ofList

/-- `strings.ToLower`, for ASCII text. -/
def toLower (s : String) : String := String.ofList (s.toList.map Char.toLower)

/-- `strings.Contains`. -/
def contains (s sub : String) : Bool := s.toList.tails.any sub.toList.isPrefixOf

/-- `Split` finds the lines that were joined. -/
theorem split_intercalate {lines : List String} (sep : Char) (some : lines ≠ [])
    (free : ∀ line ∈ lines, sep ∉ line.toList) :
    split ((String.singleton sep).intercalate lines) sep = lines := by
  have joined : ((String.singleton sep).intercalate lines).toList =
      [sep].intercalate (lines.map String.toList) := by
    simp
  rw [split, joined, List.splitOn_intercalate]
  · simp
  · simpa using free
  · simpa using some

theorem split_append (a b : String) (sep : Char) :
    split (a ++ String.singleton sep ++ b) sep = split a sep ++ split b sep := by
  simp [split, List.splitOn_append_cons_self]

/-- `Fields` of two words with a blank between them; there is nothing to trim. -/
theorem fields_pair {a b : String} (someA : a.toList ≠ []) (someB : b.toList ≠ [])
    (wordA : ∀ c ∈ a.toList, isSpace c = false) (wordB : ∀ c ∈ b.toList, isSpace c = false) :
    fields (trimSpace (a ++ " " ++ b)) = [a, b] := by
  have chars : (a ++ " " ++ b).toList = a.toList ++ ' ' :: b.toList := by simp
  have front : (a.toList ++ ' ' :: b.toList).dropWhile isSpace = a.toList ++ ' ' :: b.toList := by
    obtain ⟨c, rest, eq⟩ := List.exists_cons_of_ne_nil someA
    rw [eq, List.cons_append, List.dropWhile_cons_of_neg]
    simp [wordA c (eq ▸ List.mem_cons_self)]
  have back : (a.toList ++ ' ' :: b.toList).reverse.dropWhile isSpace =
      (a.toList ++ ' ' :: b.toList).reverse := by
    obtain ⟨c, rest, eq⟩ := List.exists_cons_of_ne_nil (List.reverse_ne_nil_iff.mpr someB)
    have last : c ∈ b.toList := List.mem_reverse.mp (eq ▸ List.mem_cons_self)
    rw [List.reverse_append, List.reverse_cons, eq, List.append_assoc, List.cons_append,
      List.dropWhile_cons_of_neg]
    simp [wordB c last]
  have whole : ∀ {s : String}, (∀ c ∈ s.toList, isSpace c = false) →
      s.toList.splitOnP isSpace = [s.toList] :=
    fun word => List.splitOnP_eq_singleton word
  rw [trimSpace, chars, front, back, List.reverse_reverse, fields, String.toList_ofList,
    List.splitOnP_append_cons _ _ (by decide), whole wordA, whole wordB]
  simp [someA, someB]

def hexDigit (n : Fin 16) : Char :=
  "0123456789abcdef".toList.get (n.cast (by decide))

/-- `hex.EncodeToString`. -/
def hexEncode (bytes : List UInt8) : String :=
  String.ofList (bytes.flatMap fun b =>
    [hexDigit (Fin.ofNat 16 (b.toNat / 16)), hexDigit (Fin.ofNat 16 b.toNat)])

def base64urlDigit (n : Fin 64) : Char :=
  "ABCDEFGHIJKLMNOPQRSTUVWXYZabcdefghijklmnopqrstuvwxyz0123456789-_".toList.get (n.cast (by decide))

/-- The digits of `base64.RawURLEncoding`: three bytes to four digits, and one
or two bytes left over to two or three, without padding. -/
def base64urlDigits : List UInt8 → List (Fin 64)
  | [] => []
  | [a] => [Fin.ofNat 64 (a.toNat / 4), Fin.ofNat 64 (a.toNat * 16)]
  | [a, b] =>
    [Fin.ofNat 64 (a.toNat / 4), Fin.ofNat 64 (a.toNat * 16 + b.toNat / 16),
      Fin.ofNat 64 (b.toNat * 4)]
  | a :: b :: c :: rest =>
    Fin.ofNat 64 (a.toNat / 4) :: Fin.ofNat 64 (a.toNat * 16 + b.toNat / 16) ::
      Fin.ofNat 64 (b.toNat * 4 + c.toNat / 64) :: Fin.ofNat 64 c.toNat :: base64urlDigits rest

/-- `base64.RawURLEncoding.EncodeToString`. -/
def base64urlEncode (bytes : List UInt8) : String :=
  String.ofList ((base64urlDigits bytes).map base64urlDigit)

theorem hexDigit_ne_dot (n : Fin 16) : hexDigit n ≠ '.' := by
  revert n
  decide

theorem dot_notMem_hexEncode (bytes : List UInt8) : '.' ∉ (hexEncode bytes).toList := by
  simp only [hexEncode, String.toList_ofList, List.mem_flatMap, List.mem_cons, List.not_mem_nil,
    or_false, not_exists, not_and, not_or]
  intro b _
  exact ⟨(hexDigit_ne_dot _).symm, (hexDigit_ne_dot _).symm⟩

theorem hexEncode_ne_empty {bytes : List UInt8} (nonempty : bytes ≠ []) : hexEncode bytes ≠ "" := by
  cases bytes with
  | nil => exact absurd rfl nonempty
  | cons b rest =>
    intro h
    have chars := congrArg String.toList h
    simp [hexEncode] at chars

theorem hexDigit_injective : Function.Injective hexDigit := by
  have all : ∀ n m : Fin 16, hexDigit n = hexDigit m → n = m := by decide
  exact fun n m => all n m

/-- Two digits a byte, so the text determines the bytes. -/
theorem hexEncode_injective : Function.Injective hexEncode := by
  intro bytes bytes' same
  have digits := String.ofList_inj.mp same
  clear same
  induction bytes generalizing bytes' with
  | nil =>
    cases bytes' with
    | nil => rfl
    | cons b' rest' => simp at digits
  | cons b rest ih =>
    cases bytes' with
    | nil => simp at digits
    | cons b' rest' =>
      simp only [List.flatMap_cons, List.cons_append, List.nil_append, List.cons.injEq] at digits
      obtain ⟨high, low, later⟩ := digits
      have highValue := congrArg Fin.val (hexDigit_injective high)
      have lowValue := congrArg Fin.val (hexDigit_injective low)
      simp only [Fin.val_ofNat] at highValue lowValue
      have bound := b.toNat_lt
      have bound' := b'.toNat_lt
      have value : b.toNat = b'.toNat := by omega
      rw [UInt8.toNat_inj.mp value, ih later]

theorem base64urlEncode_ne_empty {bytes : List UInt8} (nonempty : bytes ≠ []) :
    base64urlEncode bytes ≠ "" := by
  intro h
  have chars := congrArg String.toList h
  simp only [base64urlEncode, String.toList_ofList, String.toList_empty,
    List.map_eq_nil_iff] at chars
  match bytes with
  | [] => exact nonempty rfl
  | [_] | [_, _] | _ :: _ :: _ :: _ => simp [base64urlDigits] at chars

/-- A number is printed in digits, with a sign when it is negative. -/
theorem count_toString_nat {c : Char} (noDigit : c.isDigit = false) (n : ℕ) :
    (toString n).toList.count c = 0 := by
  rw [List.count_eq_zero, show toString n = n.repr from rfl, Nat.repr_eq_ofList_toDigits,
    String.toList_ofList]
  intro member
  rw [Nat.isDigit_of_mem_toDigits (by decide) (Nat.le_refl 10) member] at noDigit
  cases noDigit

theorem count_toString_int {c : Char} (noDigit : c.isDigit = false) (noSign : c ≠ '-') (k : ℤ) :
    (toString k).toList.count c = 0 := by
  cases k with
  | ofNat n => exact count_toString_nat noDigit n
  | negSucc n =>
    have digits := count_toString_nat noDigit (n + 1)
    rw [show toString (Int.negSucc n) = "-" ++ toString (n + 1) from rfl, String.toList_append,
      List.count_append, digits]
    simp [noSign.symm]

/-- A number is read from its text. -/
theorem toString_int_eq_iff (n : ℕ) (k : ℤ) : toString k = toString n ↔ (n : ℤ) = k := by
  constructor
  · intro same
    have digits : (toString n).toList = Nat.toDigits 10 n := by
      rw [show toString n = n.repr from rfl, Nat.repr_eq_ofList_toDigits, String.toList_ofList]
    cases k with
    | ofNat m =>
      have text : (toString m).toList = Nat.toDigits 10 m := by
        rw [show toString m = m.repr from rfl, Nat.repr_eq_ofList_toDigits, String.toList_ofList]
      have chars : Nat.toDigits 10 m = Nat.toDigits 10 n := by
        rw [← text, ← digits]
        exact congrArg String.toList same
      have value := congrArg (Nat.ofDigitChars 10 · 0) chars
      simp only [Nat.ofDigitChars_toDigits (show 1 < 10 by decide) (Nat.le_refl 10)] at value
      rw [value]
      rfl
    | negSucc m =>
      have sign : '-' ∈ (toString n).toList := by
        rw [← same, show toString (Int.negSucc m) = "-" ++ (m + 1).repr from rfl]
        simp
      rw [digits] at sign
      exact absurd (Nat.isDigit_of_mem_toDigits (by decide) (Nat.le_refl 10) sign) (by decide)
  · rintro rfl
    rfl

/-- `[]byte(s)`. -/
def utf8 (s : String) : List UInt8 := s.toByteArray.data.toList

theorem utf8_injective : Function.Injective utf8 := fun _ _ same =>
  String.toByteArray_inj.mp (ByteArray.ext (Array.toList_inj.mp same))

theorem utf8_append (s t : String) : utf8 (s ++ t) = utf8 s ++ utf8 t := by
  simp [utf8]

theorem utf8_eq_flatMap (s : String) : utf8 s = s.toList.flatMap String.utf8EncodeChar := by
  conv_lhs => rw [← @String.ofList_toList s]
  rw [utf8, String.toByteArray_ofList, List.utf8Encode, List.data_toByteArray]

/-- An ASCII character is one byte, which is no part of another character. -/
theorem count_utf8EncodeChar (ascii : sep.val.toNat < 128) (c : Char) :
    (String.utf8EncodeChar c).count (UInt8.ofNat sep.val.toNat) = if c = sep then 1 else 0 := by
  have value : ∀ {n : ℕ}, n < 256 → UInt8.ofNat n = UInt8.ofNat sep.val.toNat →
      n = sep.val.toNat := by
    intro n small same
    have values := congrArg UInt8.toNat same
    simp only [UInt8.toNat_ofNat'] at values
    omega
  unfold String.utf8EncodeChar
  dsimp only
  split
  · next small =>
    rw [List.count_singleton]
    refine if_congr (beq_iff_eq.trans ⟨fun same => ?_, fun same => by rw [same]⟩) rfl rfl
    exact Char.ext (UInt32.toNat_inj.mp (value (by omega) same))
  · next large =>
    have other : c ≠ sep := by
      intro same
      rw [same] at large
      omega
    rw [if_neg other, List.count_eq_zero]
    -- every byte of a longer encoding is at least 128
    intro member
    split at member
    · simp only [List.mem_cons, List.not_mem_nil, or_false] at member
      rcases member with same | same <;> have := value (by omega) same.symm <;> omega
    · split at member
      · simp only [List.mem_cons, List.not_mem_nil, or_false] at member
        rcases member with same | same | same <;> have := value (by omega) same.symm <;> omega
      · simp only [List.mem_cons, List.not_mem_nil, or_false] at member
        rcases member with same | same | same | same <;> have :=
          value (by omega) same.symm <;> omega

theorem count_utf8 (ascii : sep.val.toNat < 128) (s : String) :
    (utf8 s).count (UInt8.ofNat sep.val.toNat) = s.toList.count sep := by
  rw [utf8_eq_flatMap]
  induction s.toList with
  | nil => rfl
  | cons c rest ih =>
    rw [List.flatMap_cons, List.count_append, ih, count_utf8EncodeChar ascii, List.count_cons,
      Nat.add_comm]
    simp

def bars (s : String) : ℕ := s.toList.count '|'

end VeilNet.Lib.GoText
