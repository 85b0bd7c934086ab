import Mathlib.Data.List.DropRight
import VeilNet.Lib.GoText

/-!
Go strings, which are any bytes: characters, and stray bytes that belong to none and are read as
`utf8.RuneError`. The functions here cut strings at ASCII characters only, so no two stray bytes
of different strings ever meet.
-/
namespace VeilNet.Lib

inductive Sym where
  | char (c : Char)
  | byte (stray : UInt8)
  deriving DecidableEq

/-- What `range` yields. -/
def Sym.rune : Sym → Char
  | .char c => c
  | .byte _ => '�'

abbrev GoString := List Sym

namespace GoString

def ofString (s : String) : GoString := s.toList.map .char

/-- The characters of a string. -/
def runes (s : GoString) : String := String.ofList (s.map Sym.rune)

def isSpace (x : Sym) : Bool := GoText.isSpace x.rune

/-- `strings.TrimSpace`. -/
def trimSpace (s : GoString) : GoString := (s.dropWhile isSpace).rdropWhile isSpace

/-- `strings.Trim`, for a set of one character. -/
def trim (s : GoString) (c : Char) : GoString :=
  (s.dropWhile (· = .char c)).rdropWhile (· = .char c)

/-- `strings.Split`, for a separator of one character. -/
def split (s : GoString) (sep : Char) : List GoString := s.splitOn (.char sep)

/-- `strings.Cut`, for a separator of one character; none when it is absent. -/
def cut (s : GoString) (sep : Char) : Option (GoString × GoString) :=
  if .char sep ∈ s then
    some (s.takeWhile (· ≠ .char sep), (s.dropWhile (· ≠ .char sep)).tail)
  else none

/-- `strings.Join`. -/
def join (words : List GoString) (sep : String) : GoString := (ofString sep).intercalate words

/-- The text with these lines. -/
def unlines (lines : List GoString) : GoString := lines.flatMap (· ++ [.char '\n'])

theorem unlines_append (lines more : List GoString) :
    unlines (lines ++ more) = unlines lines ++ unlines more := List.flatMap_append

theorem unlines_singleton (line : GoString) : unlines [line] = line ++ ofString "\n" := by
  simp [unlines, ofString]

section characters

@[simp] theorem runes_ofString (s : String) : runes (ofString s) = s := by
  have inverse : Sym.rune ∘ Sym.char = id := rfl
  rw [runes, ofString, List.map_map, inverse, List.map_id, String.ofList_toList]

@[simp] theorem ofString_append (s t : String) : ofString (s ++ t) = ofString s ++ ofString t := by
  simp [ofString]

theorem mem_ofString {s : String} {c : Char} : .char c ∈ ofString s ↔ c ∈ s.toList := by
  simp [ofString]

/-- No stray bytes. -/
def IsText (s : GoString) : Prop := ∀ x ∈ s, Sym.char x.rune = x

variable {s : GoString}

theorem IsText.ofString_runes (text : IsText s) : ofString (runes s) = s := by
  rw [ofString, runes, String.toList_ofList, List.map_map]
  exact (List.map_congr_left text).trans (List.map_id s)

theorem rune_mem_runes {x : Sym} (member : x ∈ s) : x.rune ∈ (runes s).toList := by
  simpa [runes] using ⟨x, member, rfl⟩

theorem runes_eq_empty_iff : runes s = "" ↔ s = [] := by
  rw [← String.toList_inj]
  simp [runes]

end characters

section trimming

variable {s : GoString} {x : Sym}

theorem mem_of_mem_trimSpace (member : x ∈ trimSpace s) : x ∈ s := by
  have front := (List.rdropWhile_prefix isSpace (s.dropWhile isSpace)).subset member
  exact (List.dropWhile_suffix isSpace).subset front

/-- A string is as trimmed when it neither starts nor ends with a blank. -/
theorem trimSpace_eq_self (front : ∀ x ∈ s.head?, isSpace x = false)
    (back : ∀ x ∈ s.getLast?, isSpace x = false) : trimSpace s = s := by
  have kept : s.dropWhile isSpace = s := by
    cases s with
    | nil => rfl
    | cons x rest => exact List.dropWhile_cons_of_neg (by simp [front x rfl])
  rw [trimSpace, kept, List.rdropWhile_eq_self_iff]
  intro some
  simp [back _ (List.getLast?_eq_some_getLast some)]

theorem trimSpace_of_visible (visible : ∀ x ∈ s, isSpace x = false) : trimSpace s = s :=
  trimSpace_eq_self (fun x head => visible x (List.mem_of_mem_head? head))
    fun x last => visible x (List.mem_of_mem_getLast? last)

theorem head_trimSpace (s : GoString) : ∀ x ∈ (trimSpace s).head?, isSpace x = false := by
  intro x head
  obtain ⟨rest, trimmed⟩ := List.head?_eq_some_iff.mp head
  obtain ⟨cut, whole⟩ := List.rdropWhile_prefix isSpace (s.dropWhile isSpace)
  have front := List.head?_dropWhile_not isSpace s
  rw [← whole, show (s.dropWhile isSpace).rdropWhile isSpace = x :: rest from trimmed] at front
  simpa using front

theorem getLast_trimSpace (s : GoString) : ∀ x ∈ (trimSpace s).getLast?, isSpace x = false := by
  intro x last
  obtain ⟨front, trimmed⟩ := List.getLast?_eq_some_iff.mp last
  have some : (s.dropWhile isSpace).rdropWhile isSpace ≠ [] := by
    rw [show (s.dropWhile isSpace).rdropWhile isSpace = front ++ [x] from trimmed]
    simp
  have back := List.rdropWhile_last_not isSpace (s.dropWhile isSpace) some
  simp only [show (s.dropWhile isSpace).rdropWhile isSpace = front ++ [x] from trimmed,
    List.getLast_append_singleton] at back
  simpa using back

@[simp] theorem trimSpace_trimSpace (s : GoString) : trimSpace (trimSpace s) = trimSpace s :=
  trimSpace_eq_self (head_trimSpace s) (getLast_trimSpace s)

theorem trimSpace_cons_space (space : isSpace x = true) (s : GoString) :
    trimSpace (x :: s) = trimSpace s := by
  rw [trimSpace, List.dropWhile_cons_of_pos space, trimSpace]

theorem trimSpace_concat_space (space : isSpace x = true) (s : GoString) :
    trimSpace (s ++ [x]) = trimSpace s := by
  rw [trimSpace, List.dropWhile_append, trimSpace]
  split
  · next empty => simp [List.isEmpty_iff.mp empty, space]
  · exact List.rdropWhile_concat_pos isSpace _ x space

/-- Nothing is trimmed where a trimmed string follows one that starts with no blank. -/
theorem trimSpace_append {t : GoString} (front : x ∈ s.head?)
    (visible : isSpace x = false) (some : t ≠ []) (trimmed : trimSpace t = t) :
    trimSpace (s ++ t) = s ++ t := by
  apply trimSpace_eq_self
  · intro y head
    obtain ⟨rest, rfl⟩ := List.head?_eq_some_iff.mp front
    cases head
    exact visible
  · intro y last
    rw [List.getLast?_append_of_ne_nil _ some, ← trimmed] at last
    exact getLast_trimSpace t y last

theorem trim_quoted {s : GoString} {c : Char} (free : .char c ∉ s) :
    trim (.char c :: (s ++ [.char c])) c = s := by
  have kept : ∀ x ∈ s, decide (x = .char c) = false := by
    intro x member
    exact decide_eq_false fun same => free (same ▸ member)
  rw [trim, List.dropWhile_cons_of_pos (by simp)]
  cases s with
  | nil => simp
  | cons x rest =>
    have first := kept x List.mem_cons_self
    rw [List.cons_append, List.dropWhile_cons_of_neg (by simp [first]), ← List.cons_append,
      List.rdropWhile_concat_pos _ _ _ (by simp), List.rdropWhile_eq_self_iff]
    intro some
    simp [kept _ (List.getLast_mem some)]

theorem runes_trimSpace (s : GoString) : runes (trimSpace s) = GoText.trimSpace (runes s) := by
  have same : GoText.isSpace ∘ Sym.rune = isSpace := rfl
  rw [runes, GoText.trimSpace, runes, String.toList_ofList, List.dropWhile_map, same,
    ← List.map_reverse, List.dropWhile_map, same, ← List.map_reverse]
  rfl

end trimming

section cutting
variable {sep : Char}

theorem cut_append {a : GoString} (free : .char sep ∉ a) (b : GoString) :
    cut (a ++ .char sep :: b) sep = some (a, b) := by
  have before : ∀ x ∈ a, decide (x ≠ .char sep) = true := by
    intro x member
    exact decide_eq_true fun same => free (same ▸ member)
  have here : decide (Sym.char sep ≠ .char sep) = false := by simp
  rw [cut, if_pos (by simp), List.takeWhile_append_of_pos before,
    List.dropWhile_append_of_pos before]
  simp

theorem mem_of_cut {s a b : GoString} (found : cut s sep = some (a, b)) {x : Sym}
    (member : x ∈ a ∨ x ∈ b) : x ∈ s := by
  rw [cut] at found
  split at found
  · cases found
    obtain before | after := member
    · exact (List.takeWhile_prefix _).subset before
    · exact (List.dropWhile_suffix _).subset (List.mem_of_mem_tail after)
  · cases found

/-- A symbol that does not separate goes to the first piece. -/
theorem split_cons {x : Sym} (other : x ≠ .char sep) (s : GoString) :
    ∃ first rest, split s sep = first :: rest ∧ split (x :: s) sep = (x :: first) :: rest := by
  obtain ⟨first, rest, pieces⟩ := List.exists_cons_of_ne_nil (List.splitOn_ne_nil (.char sep) s)
  refine ⟨first, rest, pieces, ?_⟩
  rw [split, List.splitOn_cons_eq_if_modifyHead, if_neg (by simpa using other), pieces]
  rfl

theorem notMem_of_mem_split {s piece : GoString} (member : piece ∈ split s sep) :
    .char sep ∉ piece := by
  induction s generalizing piece with
  | nil =>
    cases List.mem_singleton.mp member
    simp
  | cons x rest ih =>
    by_cases separates : x = .char sep
    · rw [split, List.splitOn_cons_eq_if_modifyHead, if_pos (by simpa using separates)] at member
      obtain rfl | later := List.mem_cons.mp member
      · simp
      · exact ih later
    · obtain ⟨first, others, pieces, grown⟩ := split_cons separates rest
      rw [grown] at member
      rw [pieces] at ih
      obtain rfl | later := List.mem_cons.mp member
      · have free := ih List.mem_cons_self
        simp [Ne.symm separates, free]
      · exact ih (List.mem_cons_of_mem first later)

/-- `Split` finds the lines of a text, and nothing after the last. -/
theorem split_unlines {lines : List GoString} (free : ∀ line ∈ lines, .char '\n' ∉ line) :
    split (unlines lines) '\n' = lines ++ [[]] := by
  induction lines with
  | nil => rfl
  | cons line rest ih =>
    have first := free line List.mem_cons_self
    have more := ih fun other member => free other (List.mem_cons_of_mem line member)
    rw [unlines, List.flatMap_cons, List.append_assoc, List.singleton_append, split,
      List.splitOn_append_cons_self_of_not_mem first]
    rw [split, unlines] at more
    rw [more, List.cons_append]

end cutting

section words

/-- A string that is one item of a list of items and stays as it is when trimmed. -/
structure Word (s : GoString) : Prop where
  nonempty : s ≠ []
  visible : ∀ x ∈ s, isSpace x = false
  single : .char ',' ∉ s

theorem Word.trimmed {s : GoString} (word : Word s) : trimSpace s = s :=
  trimSpace_of_visible word.visible

theorem newline_notMem_of_visible {s : GoString} (visible : ∀ x ∈ s, isSpace x = false) :
    .char '\n' ∉ s := by
  intro member
  cases visible _ member

end words

section entries

def isKeyword (key : String) : Bool :=
  !key.toList.isEmpty &&
    key.toList.all fun c => 'A' ≤ c && c ≤ 'Z' || 'a' ≤ c && c ≤ 'z' || c == '_'

variable {key : String}

variable (keyword : isKeyword key = true)
include keyword

theorem exists_cons_of_isKeyword :
    ∃ c rest, key.toList = c :: rest := by
  apply List.exists_cons_of_ne_nil
  rintro empty
  simp [isKeyword, empty] at keyword

theorem char_of_isKeyword {c : Char} (member : c ∈ key.toList) :
    65 ≤ c.toNat ∧ c.toNat ≤ 90 ∨ 95 ≤ c.toNat ∧ c.toNat ≤ 122 := by
  simp only [isKeyword, Bool.and_eq_true, List.all_eq_true] at keyword
  have letter := keyword.2 c member
  simp only [Bool.or_eq_true, Bool.and_eq_true, decide_eq_true_eq, beq_iff_eq] at letter
  obtain (upper | lower) | rfl := letter
  · exact .inl upper
  · exact .inr ⟨Nat.le_trans (by decide) lower.1, lower.2⟩
  · exact .inr (by decide)

theorem isSpace_of_isKeyword :
    ∀ x ∈ ofString key, isSpace x = false := by
  intro x member
  obtain ⟨c, inKey, rfl⟩ := List.mem_map.mp member
  have range := char_of_isKeyword keyword inKey
  exact GoText.isSpace_of_visible (c := c) (by omega) (by omega)

/-- A line with a key and a value is as trimmed, and is cut into the two. -/
theorem cut_entry {gap : String} (blank : gap = "" ∨ gap = " ")
    {value : GoString} (nonempty : value ≠ []) (trimmed : trimSpace value = value) :
    trimSpace (ofString (key ++ gap ++ "=" ++ gap) ++ value) =
      ofString (key ++ gap ++ "=" ++ gap) ++ value ∧
      ∃ k v, cut (ofString (key ++ gap ++ "=" ++ gap) ++ value) '=' = some (k, v) ∧
        trimSpace k = ofString key ∧ trimSpace v = value := by
  obtain ⟨c, rest, chars⟩ := exists_cons_of_isKeyword keyword
  have visible := isSpace_of_isKeyword keyword
  have first : .char c ∈ ofString key := mem_ofString.mpr (chars ▸ List.mem_cons_self)
  have whole : ofString (key ++ gap ++ "=" ++ gap) ++ value =
      (ofString key ++ ofString gap) ++ .char '=' :: (ofString gap ++ value) := by
    simp [ofString]
  have free : .char '=' ∉ ofString key ++ ofString gap := by
    intro member
    obtain inKey | inGap := List.mem_append.mp member
    · have range := char_of_isKeyword keyword (mem_ofString.mp inKey)
      exact absurd range (by decide)
    · obtain rfl | rfl := blank
      all_goals exact absurd inGap (by decide)
  constructor
  · apply trimSpace_append (x := .char c) _ (visible _ first) nonempty trimmed
    simp [ofString, chars]
  · refine ⟨_, _, whole ▸ cut_append free _, ?_⟩
    constructor
    · obtain rfl | rfl := blank
      · rw [show ofString "" = [] from rfl, List.append_nil, trimSpace_of_visible visible]
      · rw [show ofString " " = [.char ' '] from rfl, trimSpace_concat_space rfl,
          trimSpace_of_visible visible]
    · obtain rfl | rfl := blank
      · exact trimmed
      · exact (trimSpace_cons_space rfl value).trans trimmed

theorem newline_notMem_entry {gap : String}
    (blank : gap = "" ∨ gap = " ") {value : GoString} (free : .char '\n' ∉ value) :
    .char '\n' ∉ ofString (key ++ gap ++ "=" ++ gap) ++ value := by
  have start : .char '\n' ∉ ofString key := newline_notMem_of_visible (isSpace_of_isKeyword keyword)
  have space : .char '\n' ∉ ofString gap := by
    obtain rfl | rfl := blank
    all_goals decide
  have sign : .char '\n' ∉ ofString "=" := by decide
  simp only [ofString_append, List.mem_append, not_or]
  exact ⟨⟨⟨⟨start, space⟩, sign⟩, space⟩, free⟩

end entries

end GoString

end VeilNet.Lib
