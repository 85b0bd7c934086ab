import VeilNet.Lib.GoMap
import VeilNet.Lib.GoString

/-!
The challenge of a 401 response, `internal/dero/auth.go`: `parseChallenge` and `splitAuthParams`.
`strings.ToLower` is a parameter.
-/
namespace VeilNet.Source.Auth
open Lib GoString

structure Challenge where
  scheme : String
  params : GoMap String GoString

/-- The loop of `splitAuthParams`: the finished parts, the part being read, and whether it is
inside quotes. -/
structure Splitter where
  out : List GoString
  cur : GoString
  inQuote : Bool

namespace Splitter
variable (s : Splitter)

/-- `WriteRune` puts a replacement character where `range` met a stray byte. -/
def write (r : Char) : Splitter := { s with cur := s.cur ++ [.char r] }

def read (x : Sym) : Splitter :=
  if x.rune = '"' then { s.write x.rune with inQuote := !s.inQuote }
  else if x.rune = ',' ∧ s.inQuote = false then { s with out := s.out ++ [s.cur], cur := [] }
  else s.write x.rune

def finish : List GoString := if s.cur = [] then s.out else s.out ++ [s.cur]

end Splitter

def splitAuthParams (s : GoString) : List GoString :=
  (s.foldl Splitter.read ⟨[], [], false⟩).finish

def Challenge.enter (toLower : String → String) (ch : Challenge) (part : GoString) : Challenge :=
  match cut part '=' with
  | none => ch
  | some (k, v) =>
    { ch with params := ch.params.insert (toLower (runes (trimSpace k))) (trim (trimSpace v) '"') }

def parseChallenge (toLower : String → String) (header : GoString) : Challenge :=
  let header := trimSpace header
  if header = [] then ⟨"", ∅⟩
  else
    match cut header ' ' with
    | none => ⟨toLower (runes header), ∅⟩
    | some (scheme, params) =>
      (splitAuthParams params).foldl (Challenge.enter toLower) ⟨toLower (runes scheme), ∅⟩

end VeilNet.Source.Auth
