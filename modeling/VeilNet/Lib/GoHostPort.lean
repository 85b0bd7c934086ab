import VeilNet.Lib.GoText

/-!
`net.SplitHostPort`: the port starts after the last colon, and a host with colons is in
square brackets.
-/
namespace VeilNet.Lib.GoHostPort

/-- The characters before and after the last separator. -/
def cutLast (sep : Char) (s : List Char) : Option (List Char × List Char) :=
  (GoText.cutChars sep s.reverse).map fun (back, front) => (front.reverse, back.reverse)

theorem cutLast_iff {sep : Char} {s front back : List Char} :
    cutLast sep s = some (front, back) ↔ s = front ++ sep :: back ∧ sep ∉ back := by
  simp only [cutLast, Option.map_eq_some_iff, Prod.exists, GoText.cutChars_iff, Prod.mk.injEq]
  constructor
  · rintro ⟨a, b, ⟨reversed, free⟩, rfl, rfl⟩
    refine ⟨?_, by simpa using free⟩
    simpa using congrArg List.reverse reversed
  · rintro ⟨rfl, free⟩
    exact ⟨back.reverse, front.reverse, ⟨by simp, by simpa using free⟩, by simp, by simp⟩

/-- The text of an `AddrError`. -/
def addrError (addr why : String) : String :=
  if addr = "" then why else "address " ++ addr ++ ": " ++ why

def missingPort : String := "missing port in address"

def tooManyColons : String := "too many colons in address"

/-- The host of a text that starts with a bracket, and what stands after the first closing
one, which is expected just before the last colon. -/
def bracketed (s beforePort : List Char) : Except String (List Char × List Char) :=
  match GoText.cutChars ']' s with
  | none => .error "missing ']' in address"
  | some (inside, after) =>
    if after = [] then .error missingPort
    else if inside.length + 1 = beforePort.length then .ok (inside.drop 1, after)
    else if after.head? = some ':' then .error tooManyColons
    else .error missingPort

/-- The host, and the parts of the text that may hold no opening and no closing bracket. -/
def splitHost (s beforePort : List Char) : Except String (List Char × List Char × List Char) :=
  if s.head? = some '[' then
    (bracketed s beforePort).map fun (host, after) => (host, s.drop 1, after)
  else if ':' ∈ beforePort then .error tooManyColons
  else .ok (beforePort, s, s)

def splitChars (s : List Char) : Except String (List Char × List Char) :=
  match cutLast ':' s with
  | none => .error missingPort
  | some (beforePort, port) =>
    match splitHost s beforePort with
    | .error why => .error why
    | .ok (host, opening, closing) =>
      if '[' ∈ opening then .error "unexpected '[' in address"
      else if ']' ∈ closing then .error "unexpected ']' in address"
      else .ok (host, port)

/-- `SplitHostPort`. -/
def splitHostPort (hostport : String) : Except String (String × String) :=
  match splitChars hostport.toList with
  | .error why => .error (addrError hostport why)
  | .ok (host, port) => .ok (String.ofList host, String.ofList port)

theorem splitHost_plain {s beforePort host opening closing : List Char} (plain : s.head? ≠ some '[')
    (split : splitHost s beforePort = .ok (host, opening, closing)) :
    host = beforePort ∧ ':' ∉ beforePort := by
  rw [splitHost, if_neg plain] at split
  split at split
  · cases split
  · next free =>
    cases split
    exact ⟨rfl, free⟩

theorem splitChars_plain {s host port : List Char} (plain : s.head? ≠ some '[')
    (split : splitChars s = .ok (host, port)) :
    s = host ++ ':' :: port ∧ ':' ∉ host ∧ ':' ∉ port := by
  unfold splitChars at split
  cases last : cutLast ':' s with
  | none =>
    rw [last] at split
    cases split
  | some parts =>
    obtain ⟨beforePort, after⟩ := parts
    obtain ⟨text, portFree⟩ := cutLast_iff.mp last
    rw [last] at split
    dsimp only at split
    cases found : splitHost s beforePort with
    | error why =>
      rw [found] at split
      cases split
    | ok parts =>
      obtain ⟨before, opening, closing⟩ := parts
      obtain ⟨rfl, hostFree⟩ := splitHost_plain plain found
      rw [found] at split
      dsimp only at split
      split at split
      · cases split
      · split at split
        · cases split
        · cases split
          exact ⟨text, hostFree, portFree⟩

/-- Without a bracket at the start, the text is split at its only colon. -/
theorem splitHostPort_plain {hostport host port : String} (plain : hostport.toList.head? ≠ some '[')
    (split : splitHostPort hostport = .ok (host, port)) :
    hostport.toList = host.toList ++ ':' :: port.toList ∧ ':' ∉ host.toList ∧
      ':' ∉ port.toList := by
  unfold splitHostPort at split
  cases found : splitChars hostport.toList with
  | error why =>
    rw [found] at split
    cases split
  | ok parts =>
    rw [found] at split
    cases split
    simpa using splitChars_plain plain found

example : splitHostPort "[::1]:443" = .ok ("::1", "443") := by decide

example : splitHostPort "::1" = .error "address ::1: too many colons in address" := by
  decide

end VeilNet.Lib.GoHostPort
