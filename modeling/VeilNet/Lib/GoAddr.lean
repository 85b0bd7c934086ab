import VeilNet.Lib.GoIP

/-!
The text of addresses: `net.ParseIP`, which reads an address without a zone, and
`net.IP.String`, which prints an IPv4 address with dots also when it is in IPv6 form.
What is printed is read back.
-/
namespace VeilNet.Lib.GoAddr
open Lib.GoIP

section hex

def hexValue (c : Char) : Option ℕ :=
  if '0' ≤ c ∧ c ≤ '9' then some (c.toNat - '0'.toNat)
  else if 'a' ≤ c ∧ c ≤ 'f' then some (c.toNat - 'a'.toNat + 10)
  else if 'A' ≤ c ∧ c ≤ 'F' then some (c.toNat - 'A'.toNat + 10)
  else none

def isHex (c : Char) : Bool := (hexValue c).isSome

def readHex (digits : List Char) : ℕ :=
  digits.foldl (fun acc c => 16 * acc + (hexValue c).getD 0) 0

/-- The digit of `x` at the place of the given weight. -/
def hexPlace (x weight : ℕ) : Char := GoText.hexDigit ⟨x / weight % 16, Nat.mod_lt _ (by decide)⟩

/-- Hexadecimal without leading zeros. -/
def groupText (g : UInt16) : List Char :=
  let x := g.toNat
  (if 0x1000 ≤ x then [hexPlace x 0x1000] else []) ++
    ((if 0x100 ≤ x then [hexPlace x 0x100] else []) ++
      ((if 0x10 ≤ x then [hexPlace x 0x10] else []) ++ [hexPlace x 1]))

theorem hexValue_hexDigit (d : Fin 16) : hexValue (GoText.hexDigit d) = some d.val := by
  revert d
  decide

theorem isHex_hexPlace (x weight : ℕ) : isHex (hexPlace x weight) = true := by
  rw [isHex, hexPlace, hexValue_hexDigit]
  rfl

theorem isHex_groupText (g : UInt16) : ∀ c ∈ groupText g, isHex c = true := by
  intro c member
  simp only [groupText, List.mem_append, List.mem_ite_nil_right, List.mem_singleton] at member
  rcases member with ⟨_, rfl⟩ | ⟨_, rfl⟩ | ⟨_, rfl⟩ | rfl
  all_goals exact isHex_hexPlace _ _

theorem length_groupText (g : UInt16) : 0 < (groupText g).length ∧ (groupText g).length ≤ 4 := by
  simp only [groupText]
  split <;> split <;> split <;> simp

theorem readHex_groupText (g : UInt16) : readHex (groupText g) = g.toNat := by
  have bound := g.toNat_lt
  have place : ∀ weight, (hexValue (hexPlace g.toNat weight)).getD 0 = g.toNat / weight % 16 := by
    intro weight
    rw [hexPlace, hexValue_hexDigit]
    rfl
  simp only [groupText]
  split <;> split <;> split <;>
    simp only [readHex, List.nil_append, List.cons_append, List.foldl_cons, List.foldl_nil, place]
      <;>
    omega

end hex

section parsing

/-- The two groups of an IPv4 address. -/
def quadGroups (a : UInt32) : List UInt16 :=
  [UInt16.ofNat (a.toNat / 0x10000), UInt16.ofNat a.toNat]

/-- The groups up to the end of the text, and where the `::` was, if there was one. `room`
groups can still come; the last two may be an IPv4 address. -/
def parseGroups : (room : ℕ) → (ellipsis : Option ℕ) → (done : List UInt16) → List Char →
    Option (List UInt16 × Option ℕ)
  | 0, _, _, _ => none
  | room + 1, ellipsis, done, s =>
    let digits := s.takeWhile isHex
    let next := done ++ [UInt16.ofNat (readHex digits)]
    if digits = [] ∨ 4 < digits.length then none
    else match s.dropWhile isHex with
      | [] => some (next, ellipsis)
      | '.' :: _ =>
        if ellipsis = none ∧ done.length ≠ 6 then none
        else if 8 < done.length + 2 then none
        else (IPText.parseQuad (String.ofList s)).map fun a => (done ++ quadGroups a, ellipsis)
      | [':'] => none
      | ':' :: ':' :: rest =>
        if ellipsis.isSome then none
        else if rest = [] then some (next, some next.length)
        else parseGroups room (some next.length) next rest
      | ':' :: rest => parseGroups room ellipsis next rest
      | _ => none

/-- Put zeros in the place of the `::`, which stands for one group at least. -/
def expand : List UInt16 × Option ℕ → Option (List UInt16)
  | (groups, none) => if groups.length < 8 then none else some groups
  | (groups, some position) =>
    if groups.length < 8 then
      some (groups.take position ++ List.replicate (8 - groups.length) 0 ++ groups.drop position)
    else none

def parse6 : List Char → Option (List UInt16)
  | [':', ':'] => some (List.replicate 8 0)
  | ':' :: ':' :: rest => (parseGroups 8 (some 0) [] rest).bind expand
  | s => (parseGroups 8 none [] s).bind expand

def groupBytes (groups : List UInt16) : List UInt8 :=
  groups.flatMap fun g => [UInt8.ofNat (g.toNat / 0x100), UInt8.ofNat g.toNat]

def ofGroups (groups : List UInt16) : Option Addr :=
  if sixteen : (groupBytes groups).length = 16 then
    some (.v6 ⟨(groupBytes groups).toArray, by simpa using sixteen⟩)
  else none

/-- `ParseIP`: the first dot or colon tells the kind of address; a zone is refused. -/
def parseIP (s : String) : Option Addr :=
  match s.toList.find? [ '.', ':', '%' ].contains with
  | some '.' => (IPText.parseQuad s).map .v4
  | some ':' => if '%' ∈ s.toList then none else (parse6 s.toList).bind ofGroups
  | _ => none

end parsing

section printing

/-- The first of the longest runs of two or more zeros, from its start to its end. -/
def zeroRun (groups : List UInt16) : Option (ℕ × ℕ) :=
  (List.range 8).foldl (fun best i =>
    let length := ((groups.drop i).takeWhile (· = 0)).length
    if 2 ≤ length ∧ (best.elim 0 fun run => run.2 - run.1) < length then some (i, i + length)
    else best) none

def joined (groups : List UInt16) : List Char := [':'].intercalate (groups.map groupText)

def print6 (groups : List UInt16) : List Char :=
  match zeroRun groups with
  | none => joined groups
  | some (first, after) => joined (groups.take first) ++ ':' :: ':' :: joined (groups.drop after)

def byteGroups : List UInt8 → List UInt16
  | hi :: lo :: rest => UInt16.ofNat (hi.toNat * 0x100 + lo.toNat) :: byteGroups rest
  | _ => []

/-- `IP.String`. -/
def ipString (a : Addr) : String :=
  match to4 a.as16 with
  | [a, b, c, d] => IPText.formatQuad (IPText.ofOctets a b c d)
  | _ => String.ofList (print6 (byteGroups a.as16))

end printing

section roundTrip

theorem span_groupText (g : UInt16) (rest : List Char) (stop : rest.takeWhile isHex = []) :
    (groupText g ++ rest).takeWhile isHex = groupText g ∧
      (groupText g ++ rest).dropWhile isHex = rest := by
  have all := isHex_groupText g
  have split := @List.takeWhile_append_dropWhile _ isHex rest
  rw [stop, List.nil_append] at split
  rw [List.takeWhile_append_of_pos all, List.dropWhile_append_of_pos all, stop, split,
    List.append_nil]
  exact ⟨rfl, rfl⟩

theorem groupText_accepted (g : UInt16) :
    ¬ (groupText g = [] ∨ 4 < (groupText g).length) := by
  obtain ⟨some, short⟩ := length_groupText g
  rintro (none | long)
  · simp [none] at some
  · omega

variable {room : ℕ} {ellipsis : Option ℕ} {done : List UInt16} (g : UInt16)

theorem parseGroups_last :
    parseGroups (room + 1) ellipsis done (groupText g) = some (done ++ [g], ellipsis) := by
  obtain ⟨digits, after⟩ := span_groupText g [] rfl
  rw [List.append_nil] at digits after
  simp [parseGroups, digits, after, if_neg (groupText_accepted g), readHex_groupText]

variable {c : Char}

theorem parseGroups_colon (rest : List Char) (single : c ≠ ':') :
    parseGroups (room + 1) ellipsis done (groupText g ++ ':' :: c :: rest) =
      parseGroups room ellipsis (done ++ [g]) (c :: rest) := by
  obtain ⟨digits, after⟩ := span_groupText g (':' :: c :: rest) rfl
  simp only [parseGroups, digits, after, if_neg (groupText_accepted g), readHex_groupText,
    UInt16.ofNat_toNat]
  split
  · next impossible => cases impossible
  · next dot => cases dot
  · next only => cases only
  · next double => exact absurd (List.cons.inj (List.cons.inj double).2).1 single
  · next more _ colon => rw [(List.cons.inj colon).2]
  · next other => exact absurd rfl (other _)

theorem parseGroups_ellipsis (rest : List Char) :
    parseGroups (room + 1) none done (groupText g ++ ':' :: ':' :: rest) =
      if rest = [] then some (done ++ [g], some (done ++ [g]).length)
      else parseGroups room (some (done ++ [g]).length) (done ++ [g]) rest := by
  obtain ⟨digits, after⟩ := span_groupText g (':' :: ':' :: rest) rfl
  simp only [parseGroups, digits, after, if_neg (groupText_accepted g), readHex_groupText,
    UInt16.ofNat_toNat]
  rfl

theorem joined_cons_cons (g' : UInt16) (rest : List UInt16) :
    joined (g :: g' :: rest) = groupText g ++ ':' :: joined (g' :: rest) := by
  simp [joined, List.intercalate_cons_cons]

/-- A list of groups starts with a digit. -/
theorem joined_cons (rest : List UInt16) :
    ∃ c more, joined (g :: rest) = c :: more ∧ isHex c = true := by
  obtain ⟨some, _⟩ := length_groupText g
  obtain ⟨c, more, text⟩ := List.exists_cons_of_length_pos some
  have digit : isHex c = true := isHex_groupText g c (text ▸ List.mem_cons_self)
  cases rest with
  | nil => exact ⟨c, more, by simpa [joined] using text, digit⟩
  | cons g' rest =>
    exact ⟨c, more ++ ':' :: joined (g' :: rest), by simp [joined_cons_cons, text], digit⟩

theorem ne_colon_of_isHex (digit : isHex c = true) : c ≠ ':' := by
  rintro rfl
  revert digit
  decide

theorem parseGroups_joined (groups : List UInt16) (fits : groups.length < room) :
    parseGroups room ellipsis done (joined (g :: groups)) =
      some (done ++ g :: groups, ellipsis) := by
  induction groups generalizing g room done with
  | nil =>
    obtain ⟨room, rfl⟩ := Nat.exists_eq_add_of_lt fits
    simpa [joined] using @parseGroups_last _ ellipsis done g
  | cons g' rest ih =>
    obtain ⟨room, rfl⟩ : ∃ n, room = n + 1 := ⟨room - 1, by omega⟩
    obtain ⟨c, more, text, digit⟩ := joined_cons g' rest
    have later := @ih room (done ++ [g]) g' (by simpa using fits)
    rw [joined_cons_cons, text, parseGroups_colon g more (ne_colon_of_isHex digit), ← text, later]
    simp

/-- Groups on both sides of a `::`. -/
theorem parseGroups_gap (front back : List UInt16) (fits : front.length + back.length < room) :
    parseGroups room none done (joined (g :: front) ++ ':' :: ':' :: joined back) =
      some (done ++ g :: front ++ back, some (done.length + (front.length + 1))) := by
  induction front generalizing g room done with
  | nil =>
    obtain ⟨room, rfl⟩ : ∃ n, room = n + 1 := ⟨room - 1, by omega⟩
    have start : joined [g] = groupText g := by simp [joined]
    rw [start, parseGroups_ellipsis]
    cases back with
    | nil => simp [joined]
    | cons b back =>
      obtain ⟨c, more, text, _⟩ := joined_cons b back
      rw [if_neg (by simp [text]), parseGroups_joined b back (by simpa using fits)]
      simp
  | cons g' front ih =>
    obtain ⟨room, rfl⟩ : ∃ n, room = n + 1 := ⟨room - 1, by omega⟩
    obtain ⟨c, more, text, digit⟩ := joined_cons g' front
    have later := @ih room (done ++ [g]) g' (by simp at fits ⊢; omega)
    rw [joined_cons_cons, text, List.append_assoc, List.cons_append, List.cons_append,
      parseGroups_colon g _ (ne_colon_of_isHex digit), ← List.cons_append, ← text, later]
    simp
    omega

/-- Two or more zeros, from a position to another. -/
def IsRun (groups : List UInt16) (run : ℕ × ℕ) : Prop :=
  run.1 + 2 ≤ run.2 ∧
    groups = groups.take run.1 ++ (List.replicate (run.2 - run.1) 0 ++ groups.drop run.2)

theorem isRun_takeWhile (groups : List UInt16) (i : ℕ)
    (long : 2 ≤ ((groups.drop i).takeWhile (· = 0)).length) :
    IsRun groups (i, i + ((groups.drop i).takeWhile (· = 0)).length) := by
  have zeros : (groups.drop i).takeWhile (· = 0) =
      List.replicate ((groups.drop i).takeWhile (· = 0)).length 0 :=
    List.eq_replicate_of_mem fun g member => by simpa using List.mem_takeWhile_imp member
  have parts := @List.takeWhile_append_dropWhile _ (fun g => decide (g = 0)) (groups.drop i)
  have after : groups.drop (i + ((groups.drop i).takeWhile (· = 0)).length) =
      (groups.drop i).dropWhile (· = 0) := by
    rw [← List.drop_drop]
    nth_rewrite 2 [← parts]
    exact List.drop_left
  refine ⟨by simpa using long, ?_⟩
  calc groups = groups.take i ++ groups.drop i := (List.take_append_drop i groups).symm
    _ = groups.take i ++ ((groups.drop i).takeWhile (· = 0) ++
      (groups.drop i).dropWhile (· = 0)) := by
      rw [parts]
    _ = _ := by
      rw [after, Nat.add_sub_cancel_left, ← zeros]

variable {groups : List UInt16}

/-- A run that is found is one. -/
theorem isRun_of_zeroRun {run : ℕ × ℕ} (found : zeroRun groups = some run) : IsRun groups run := by
  have all : ∀ run ∈ zeroRun groups, IsRun groups run := by
    unfold zeroRun
    refine List.foldlRecOn (motive := fun best => ∀ run ∈ best, IsRun groups run) _ _ ?_ ?_
    · intro run none
      cases none
    · intro best runs i _ run chosen
      dsimp only at chosen
      split at chosen
      · next longer =>
        obtain rfl := Option.some.inj chosen
        exact isRun_takeWhile groups i longer.1
      · exact runs run chosen
  exact all run found

theorem parse6_of_ne_colon {more : List Char} (start : c ≠ ':') :
    parse6 (c :: more) = (parseGroups 8 none [] (c :: more)).bind expand := by
  unfold parse6
  split
  · next impossible => exact absurd (List.cons.inj impossible).1 start
  · next impossible => exact absurd (List.cons.inj impossible).1 start
  · rfl

/-- What stands on both sides of a `::` is read with zeros between. -/
theorem parse6_gap (front back : List UInt16) (short : front.length + back.length < 8) :
    parse6 (joined front ++ ':' :: ':' :: joined back) =
      some (front ++ (List.replicate (8 - (front.length + back.length)) 0 ++ back)) := by
  cases front with
  | nil =>
    cases back with
    | nil => rfl
    | cons b back =>
      obtain ⟨c, more, text, _⟩ := joined_cons b back
      have fits : back.length < 8 := by simp at short; omega
      have read := @parseGroups_joined 8 (some 0) [] b back fits
      rw [text] at read
      have split : parse6 (joined [] ++ ':' :: ':' :: joined (b :: back)) =
          (parseGroups 8 (some 0) [] (c :: more)).bind expand := by
        rw [text]
        rfl
      rw [split, read]
      simp [expand] at short ⊢
      omega
  | cons g front =>
    obtain ⟨c, more, text, digit⟩ := joined_cons g front
    have fits : front.length + back.length < 8 := by simp at short; omega
    have read := @parseGroups_gap 8 [] g front back fits
    rw [text, List.cons_append] at read ⊢
    rw [parse6_of_ne_colon (ne_colon_of_isHex digit), read]
    simp [expand] at short ⊢
    omega

theorem parse6_joined (groups : List UInt16) (eight : groups.length = 8) :
    parse6 (joined groups) = some groups := by
  obtain ⟨g, rest, rfl⟩ := List.exists_cons_of_length_pos (by omega : 0 < groups.length)
  obtain ⟨c, more, text, digit⟩ := joined_cons g rest
  have fits : rest.length < 8 := by simp at eight; omega
  have read := @parseGroups_joined 8 none [] g rest fits
  rw [text] at read ⊢
  rw [parse6_of_ne_colon (ne_colon_of_isHex digit), read]
  simp [expand] at eight ⊢
  omega

theorem parse6_print6 (groups : List UInt16) (eight : groups.length = 8) :
    parse6 (print6 groups) = some groups := by
  unfold print6
  split
  · exact parse6_joined groups eight
  · next first after found =>
    obtain ⟨long, parts⟩ := isRun_of_zeroRun found
    have lengths := congrArg List.length parts
    simp only [List.length_append, List.length_replicate] at lengths
    rw [parse6_gap _ _ (by omega)]
    have gap : 8 - ((groups.take first).length + (groups.drop after).length) = after - first := by
      omega
    rw [gap, ← parts]

/-- An even number of bytes, taken in pairs and apart again. -/
theorem groupBytes_byteGroups {bytes : List UInt8} {n : ℕ} (even : bytes.length = 2 * n) :
    groupBytes (byteGroups bytes) = bytes ∧ (byteGroups bytes).length = n := by
  induction n generalizing bytes with
  | zero =>
    obtain rfl := List.length_eq_zero_iff.mp even
    exact ⟨rfl, rfl⟩
  | succ n ih =>
    obtain ⟨hi, tail, rfl⟩ := List.exists_cons_of_length_pos (by omega : 0 < bytes.length)
    obtain ⟨lo, rest, rfl⟩ := List.exists_cons_of_length_pos
        (by simp at even; omega : 0 < tail.length)
    obtain ⟨again, length⟩ := @ih rest (by simp at even; omega)
    have hiBound := hi.toNat_lt
    have loBound := lo.toNat_lt
    have high : UInt8.ofNat ((UInt16.ofNat (hi.toNat * 0x100 + lo.toNat)).toNat / 0x100) = hi := by
      apply UInt8.toNat_inj.mp
      simp only [UInt8.toNat_ofNat', UInt16.toNat_ofNat']
      omega
    have low : UInt8.ofNat (UInt16.ofNat (hi.toNat * 0x100 + lo.toNat)).toNat = lo := by
      apply UInt8.toNat_inj.mp
      simp only [UInt8.toNat_ofNat', UInt16.toNat_ofNat']
      omega
    constructor
    · change UInt8.ofNat _ :: UInt8.ofNat _ :: groupBytes (byteGroups rest) = hi :: lo :: rest
      rw [again, high, low]
    · simp [byteGroups, length]

theorem mem_joined (member : c ∈ joined groups) : isHex c = true ∨ c = ':' := by
  induction groups with
  | nil => cases member
  | cons g rest ih =>
    cases rest with
    | nil =>
      refine .inl (isHex_groupText g c ?_)
      simpa [joined] using member
    | cons g' rest =>
      rw [joined_cons_cons, List.mem_append, List.mem_cons] at member
      rcases member with digit | colon | later
      · exact .inl (isHex_groupText g c digit)
      · exact .inr colon
      · exact ih later

theorem mem_print6 (member : c ∈ print6 groups) : isHex c = true ∨ c = ':' := by
  unfold print6 at member
  split at member
  · exact mem_joined member
  · simp only [List.mem_append, List.mem_cons] at member
    rcases member with front | colon | colon | back
    · exact mem_joined front
    · exact .inr colon
    · exact .inr colon
    · exact mem_joined back

theorem notMem_print6 (other : isHex c = false) (single : c ≠ ':') : c ∉ print6 groups := by
  intro member
  rcases mem_print6 member with digit | colon
  · rw [other] at digit
    cases digit
  · exact single colon

/-- An IPv6 address is printed with two colons at least. -/
theorem two_le_count_print6 (eight : groups.length = 8) : 2 ≤ (print6 groups).count ':' := by
  unfold print6
  split
  · have none : ∀ g, (groupText g).count ':' = 0 := fun g =>
      List.count_eq_zero.mpr fun colon => ne_colon_of_isHex (isHex_groupText g _ colon) rfl
    rw [joined, Separator.count_intercalate]
    simp [eight]
  · simp only [List.count_append, List.count_cons_self]
    omega

/-- The only separator of a text is the one that is found. -/
theorem find_separator {s : List Char} (sep : Char)
    (separates : ['.', ':', '%'].contains sep = true)
    (present : sep ∈ s) (only : ∀ c ∈ s, ['.', ':', '%'].contains c = true → c = sep) :
    s.find? ['.', ':', '%'].contains = some sep := by
  cases found : s.find? ['.', ':', '%'].contains with
  | none => exact absurd separates (List.find?_eq_none.mp found sep present)
  | some c => rw [only c (List.mem_of_find?_eq_some found) (List.find?_some found)]

theorem not_separator_of_isHex (digit : isHex c = true) : ¬ ['.', ':', '%'].contains c = true := by
  intro separator
  simp only [List.contains_eq_mem, List.mem_cons, List.not_mem_nil, or_false,
    decide_eq_true_eq] at separator
  rcases separator with rfl | rfl | rfl
  all_goals
    revert digit
    decide

theorem isHex_of_isDigit (digit : c.isDigit = true) : isHex c = true := by
  have bounds : '0' ≤ c ∧ c ≤ '9' := by
    simpa [Char.isDigit, Char.le_def] using digit
  rw [isHex, hexValue, if_pos bounds]
  rfl

theorem parseIP_formatQuad (a : UInt32) : parseIP (IPText.formatQuad a) = some (.v4 a) := by
  have parsed := IPText.parseQuad_formatQuad a
  have dot : '.' ∈ (IPText.formatQuad a).toList := by
    simp [IPText.formatQuad]
  have first := find_separator '.' (by decide) dot fun c member separator => by
    rcases IPText.plain_of_parseQuad parsed c member with digit | dot
    · exact absurd separator (not_separator_of_isHex (isHex_of_isDigit digit))
    · exact dot
  rw [parseIP, first, parsed]
  rfl

theorem parseIP_print6 {bytes : List UInt8} (sixteen : bytes.length = 16) :
    parseIP (String.ofList (print6 (byteGroups bytes))) =
      some (.v6 ⟨bytes.toArray, by simpa using sixteen⟩) := by
  obtain ⟨again, eight⟩ := groupBytes_byteGroups (n := 8) sixteen
  have colon : ':' ∈ print6 (byteGroups bytes) := by
    have two := two_le_count_print6 eight
    exact List.count_pos_iff.mp (by omega)
  have first := find_separator ':' (by decide) colon fun c member separator => by
    rcases mem_print6 member with digit | colon
    · exact absurd separator (not_separator_of_isHex digit)
    · exact colon
  have plain : '%' ∉ print6 (byteGroups bytes) := notMem_print6 rfl (by decide)
  simp only [parseIP, String.toList_ofList, first, if_neg plain, parse6_print6 _ eight,
    Option.bind_some, ofGroups, again, sixteen, dite_true]

theorem ipString_v4 (a : UInt32) : ipString (.v4 a) = IPText.formatQuad a := by
  have octets : to4 (Addr.v4 a).as16 = octetList a := to4_as16_v4 a
  simp only [ipString, octets, octetList, IPText.ofOctets_octets]

/-- An address is printed as a dotted quad, or as the groups of its bytes. -/
theorem ipString_cases (a : Addr) : (∃ w, ipString a = IPText.formatQuad w) ∨
    ∃ bytes, a = .v6 bytes ∧ ipString a = String.ofList (print6 (byteGroups bytes.toList)) := by
  cases a with
  | v4 w => exact .inl ⟨w, ipString_v4 w⟩
  | v6 bytes =>
    unfold ipString
    split
    · exact .inl ⟨_, rfl⟩
    · exact .inr ⟨bytes, rfl, rfl⟩

/-- What is printed is read as an address that is printed in the same way. -/
theorem parseIP_ipString (a : Addr) :
    ∃ b, parseIP (ipString a) = some b ∧ ipString b = ipString a := by
  rcases ipString_cases a with ⟨w, text⟩ | ⟨bytes, rfl, text⟩
  · rw [text]
    exact ⟨.v4 w, parseIP_formatQuad w, ipString_v4 w⟩
  · have same : bytes.toList.toArray = bytes.toArray := Array.toArray_toList
    refine ⟨.v6 bytes, ?_, rfl⟩
    rw [text, parseIP_print6 Vector.length_toList]
    simp only [same]

/-- An address is printed without a bracket, and not with a single colon. -/
theorem ipString_plain (a : Addr) :
    (ipString a).toList.count ':' ≠ 1 ∧ '[' ∉ (ipString a).toList := by
  rcases ipString_cases a with ⟨w, text⟩ | ⟨bytes, rfl, text⟩
  · have plain := IPText.plain_of_parseQuad (IPText.parseQuad_formatQuad w)
    have absent : ∀ c, c.isDigit = false → c ≠ '.' → c ∉ (IPText.formatQuad w).toList := by
      intro c other notDot member
      rcases plain c member with digit | dot
      · rw [other] at digit
        cases digit
      · exact notDot dot
    rw [text, List.count_eq_zero.mpr (absent ':' rfl (by decide))]
    exact ⟨by decide, absent '[' rfl (by decide)⟩
  · have sixteen : bytes.toList.length = 2 * 8 := Vector.length_toList
    obtain ⟨_, eight⟩ := groupBytes_byteGroups sixteen
    have two := two_le_count_print6 eight
    rw [text, String.toList_ofList]
    exact ⟨by omega, notMem_print6 rfl (by decide)⟩

end roundTrip

example : parseIP "::ffff:10.0.0.1" = parseIP "0:0:0:0:0:FFFF:0a00:1" := by decide

example : (parseIP "2001:DB8:0:0:1:0:0:1").map ipString = some "2001:db8::1:0:0:1" := by
  decide

end VeilNet.Lib.GoAddr
