import VeilNet.Source.Auth

/-!
# Challenges are read back

`parseChallenge` inverts the rendering of a challenge: whatever commas, equals signs and spaces
stand in the quoted values, the parts that `splitAuthParams` finds are the parameters.
-/
namespace VeilNet.Guarantees.Challenges
open Lib GoString Source.Auth

/-- A parameter in a header, with the spaces in front of it. Any token of HTTP may be its name. -/
structure Param where
  spaces : ℕ
  name : String
  value : String
  visible : ∀ x ∈ ofString name, isSpace x = false
  separate : ∀ c ∈ [',', '=', '"'], c ∉ name.toList
  unquoted : '"' ∉ value.toList

namespace Param
variable (p : Param)

/-- What stands before the equals sign. -/
def front : String := String.ofList (List.replicate p.spaces ' ') ++ p.name

def quoted : GoString := .char '"' :: (ofString p.value ++ [.char '"'])

def text : GoString := ofString p.front ++ .char '=' :: p.quoted

end Param

def render (scheme : String) (params : List Param) : GoString :=
  ofString scheme ++ .char ' ' :: join (params.map Param.text) ","

section splitting

theorem read_char {s : Splitter} {c : Char} (quote : c ≠ '"') (comma : s.inQuote = true ∨ c ≠ ',') :
    s.read (.char c) = s.write c := by
  have kept : ¬ (c = ',' ∧ s.inQuote = false) := by
    rintro ⟨rfl, closed⟩
    simp [closed] at comma
  exact (if_neg quote).trans (if_neg kept)

/-- Text without quotes is copied, commas only inside quotes. -/
theorem read_text {text : String} {s : Splitter} (quote : '"' ∉ text.toList)
    (comma : s.inQuote = true ∨ ',' ∉ text.toList) :
    (ofString text).foldl Splitter.read s = { s with cur := s.cur ++ ofString text } := by
  unfold ofString
  generalize text.toList = cs at quote comma ⊢
  induction cs generalizing s with
  | nil => simp
  | cons c rest ih =>
    simp only [List.mem_cons, not_or] at quote comma
    have first := read_char (Ne.symm quote.1) (comma.imp_right fun free => Ne.symm free.1)
    rw [List.map_cons, List.foldl_cons, first,
      ih (s := s.write c) quote.2 (comma.imp_right And.right)]
    simp [Splitter.write]

variable (p : Param)

theorem front_free {c : Char} (separator : c ∈ [',', '=', '"']) : c ∉ p.front.toList := by
  rw [Param.front, String.toList_append, String.toList_ofList, List.mem_append, not_or]
  constructor
  · intro space
    rw [List.eq_of_mem_replicate space] at separator
    exact absurd separator (by decide)
  · exact p.separate c separator

/-- A parameter is copied as it is, and its quotes are closed behind it. -/
theorem read_param (out : List GoString) :
    p.text.foldl Splitter.read ⟨out, [], false⟩ = ⟨out, p.text, false⟩ := by
  have quote : '"' ∉ p.front.toList := front_free p (by decide)
  have comma : ',' ∉ p.front.toList := front_free p (by decide)
  rw [Param.text, List.foldl_append, read_text quote (.inr comma), List.foldl_cons,
    read_char (by decide) (.inr (by decide)), Param.quoted, List.foldl_cons, List.foldl_append]
  simp only [Splitter.read, Splitter.write, Sym.rune, if_true, Bool.not_false]
  rw [read_text p.unquoted (.inl rfl)]
  simp [Splitter.read, Splitter.write, Sym.rune]

theorem finish_params (params : List Param) (out : List GoString) :
    ((join (params.map Param.text) ",").foldl Splitter.read ⟨out, [], false⟩).finish =
      out ++ params.map Param.text := by
  have some (p : Param) : p.text ≠ [] := by simp [Param.text]
  induction params generalizing out with
  | nil => simp [join, Splitter.finish]
  | cons p rest ih =>
    cases rest with
    | nil =>
      rw [List.map_singleton, join, List.intercalate_singleton, read_param]
      simp [Splitter.finish, some]
    | cons q more =>
      -- The comma behind a parameter finds the quotes closed, so it ends the part.
      have comma : (ofString ",").foldl Splitter.read ⟨out, p.text, false⟩ =
        ⟨out ++ [p.text], [], false⟩ := rfl
      rw [List.map_cons, List.map_cons, join, List.intercalate_cons_cons, List.foldl_append,
        List.foldl_append, read_param, comma]
      exact (ih (out ++ [p.text])).trans (by simp)

theorem splitAuthParams_join (params : List Param) :
    splitAuthParams (join (params.map Param.text) ",") = params.map Param.text :=
  finish_params params []

end splitting

section entering

theorem trimSpace_front (p : Param) : trimSpace (ofString p.front) = ofString p.name := by
  rw [Param.front, ofString_append]
  induction p.spaces with
  | zero => exact trimSpace_of_visible p.visible
  | succ n ih =>
    have longer : ofString (String.ofList (List.replicate (n + 1) ' ')) =
        .char ' ' :: ofString (String.ofList (List.replicate n ' ')) := by
      simp [ofString, List.replicate_succ]
    rw [longer, List.cons_append, trimSpace_cons_space rfl, ih]

theorem trimSpace_quoted (p : Param) : trimSpace p.quoted = p.quoted := by
  apply trimSpace_eq_self
  · intro x head
    cases head
    rfl
  · intro x last
    rw [Param.quoted, ← List.cons_append, List.getLast?_concat] at last
    cases last
    rfl

variable (toLower : String → String)

/-- The entry of the map that a parameter stands for. -/
def entry (p : Param) : Σ _ : String, GoString := ⟨toLower p.name, ofString p.value⟩

theorem enter_param (ch : Challenge) (p : Param) : ch.enter toLower p.text =
    { ch with params := ch.params.insert (entry toLower p).1 (entry toLower p).2 } := by
  have equals : .char '=' ∉ ofString p.front := mt mem_ofString.mp (front_free p (by decide))
  have quote : .char '"' ∉ ofString p.value := mt mem_ofString.mp p.unquoted
  rw [Challenge.enter, Param.text, cut_append equals]
  simp only [trimSpace_front, trimSpace_quoted, runes_ofString, entry]
  rw [Param.quoted, trim_quoted quote]

theorem foldl_enter (params : List Param) (ch : Challenge) :
    (params.map Param.text).foldl (Challenge.enter toLower) ch =
      { ch with
        params := (params.map (entry toLower)).foldl (fun m e => m.insert e.1 e.2) ch.params } := by
  induction params generalizing ch with
  | nil => rfl
  | cons p rest ih =>
    rw [List.map_cons, List.foldl_cons, enter_param, ih]
    rfl

end entering

section heads

theorem getLast_join (p : Param) (rest : List Param) :
    (join ((p :: rest).map Param.text) ",").getLast? = some (.char '"') := by
  induction rest generalizing p with
  | nil => simp [join, Param.text, Param.quoted, List.getLast?_cons]
  | cons q more ih =>
    have later := ih q
    rw [List.map_cons, List.map_cons, join, List.intercalate_cons_cons, List.getLast?_append]
    rw [List.map_cons, join] at later
    rw [later]
    rfl

variable {scheme : String} (nonempty : ofString scheme ≠ [])
  (visible : ∀ x ∈ ofString scheme, isSpace x = false)
include nonempty visible

/-- A header without parameters loses its space; any other is as trimmed. -/
theorem trimSpace_render (params : List Param) :
    trimSpace (render scheme params) = if params = [] then ofString scheme
      else render scheme params := by
  cases params with
  | nil => exact (trimSpace_concat_space rfl _).trans (trimSpace_of_visible visible)
  | cons p rest =>
    apply trimSpace_eq_self
    · intro x head
      rw [render, List.head?_append_of_ne_nil _ nonempty] at head
      exact visible x (List.mem_of_mem_head? head)
    · intro x last
      rw [render, List.getLast?_append, List.getLast?_cons, getLast_join] at last
      cases last
      rfl

/-- `parseChallenge` finds the scheme and the parameters. -/
theorem parseChallenge_eq (toLower : String → String) (params : List Param) :
    parseChallenge toLower (render scheme params) =
      (params.map Param.text).foldl (Challenge.enter toLower) ⟨toLower scheme, ∅⟩ := by
  have free : .char ' ' ∉ ofString scheme := fun member => by cases visible _ member
  rw [parseChallenge, trimSpace_render nonempty visible]
  cases params with
  | nil =>
    simp only [if_true, if_neg nonempty, cut, if_neg free, runes_ofString]
    rfl
  | cons p rest =>
    have whole : render scheme (p :: rest) ≠ [] := by simp [render]
    simp only [List.cons_ne_nil, if_false, if_neg whole]
    rw [render, cut_append free]
    simp only [splitAuthParams_join, runes_ofString]

end heads

/-- A challenge is read back: the lower-cased scheme, and under each lower-cased name its value
and nothing else. -/
theorem parseChallenge_render (toLower : String → String) (scheme : String) (params : List Param)
    (nonempty : scheme ≠ "") (visible : ∀ x ∈ ofString scheme, isSpace x = false)
    (distinct : (params.map fun p => toLower p.name).Nodup) :
    (parseChallenge toLower (render scheme params)).scheme = toLower scheme ∧
      ∀ name value, (parseChallenge toLower (render scheme params)).params.lookup name =
        some value ↔ ∃ p ∈ params, toLower p.name = name ∧ ofString p.value = value := by
  have keys : (params.map (entry toLower)).NodupKeys := by
    rw [List.NodupKeys, List.keys, List.map_map]
    exact distinct
  rw [parseChallenge_eq (by simpa [ofString] using nonempty) visible, foldl_enter]
  refine ⟨rfl, fun name value => ?_⟩
  rw [GoMap.lookup_foldl_insert_entries keys, AList.lookup_empty, Option.or_none, ← Option.mem_def,
    List.mem_dlookup_iff keys, List.mem_map]
  simp [entry]

/-- Commas and equals signs inside quotes, an empty value, and spaces behind the comma. -/
def someParams : List Param :=
  [⟨0, "realm", "a, b=\\c", by decide, by simp, by decide⟩,
    ⟨2, "NONCE", "", by decide, by simp, by decide⟩]

theorem someParams_render :
    (parseChallenge GoText.toLower (render "Digest" someParams)).scheme = "digest" ∧
      (parseChallenge GoText.toLower (render "Digest" someParams)).params.lookup "realm" =
        some (ofString "a, b=\\c") := by
  have distinct : (someParams.map fun p => GoText.toLower p.name).Nodup := by decide
  obtain ⟨scheme, params⟩ := parseChallenge_render GoText.toLower "Digest" someParams (by decide)
    (by decide) distinct
  refine ⟨scheme.trans (by decide), (params _ _).mpr ⟨_, List.mem_cons_self, ?_, rfl⟩⟩
  decide

end VeilNet.Guarantees.Challenges
