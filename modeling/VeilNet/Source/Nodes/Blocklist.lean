import VeilNet.Source.Nodes.RateLimit
import VeilNet.Lib.GoAddr
import VeilNet.Lib.GoHostPort

/-!
The operator's blocklist of `internal/nodes/abuse.go`, with addresses read and printed by the
`net` package. The JSON encoding is a parameter. Each change is written at once, with success.
-/
namespace VeilNet.Source.Nodes
open Lib

/-- The functions of the `net` package. -/
def goNet : NetNames where
  parseAddr := GoAddr.parseIP
  splitHostPort := GoHostPort.splitHostPort
  print := GoAddr.ipString

structure Blocklist where
  ips : GoMap String Bool
  pubkeys : GoMap String Bool
  path : String

/-- The content of the file. -/
structure SavedBlocklist where
  ips : List String
  pubkeys : List String

inductive BlockError where
  | emptyIP | emptyPubkey
  | corrupt (path err : String)
  | unreadable (err : String)

/-- How reading a file may end. -/
inductive FileRead (Data : Type) where
  | found (data : Data)
  | notExist
  | failed (err : String)

/-- An empty path stands for the file under the default directory. -/
def blocklistPath (defaultPath path : String) : String := if path = "" then defaultPath else path

section load
variable {Data : Type} (unmarshal : Data → Except String SavedBlocklist)

/-- The loops over the saved entries. -/
def SavedBlocklist.entered (saved : SavedBlocklist) (path : String) : Blocklist where
  ips := saved.ips.foldl (fun m ip => m.insert (normalizeIP goNet ip) true) ∅
  pubkeys := saved.pubkeys.foldl (fun m k => m.insert k true) ∅
  path := path

/-- `read` tells how the file at a path is read. -/
def newBlocklist (defaultPath path : String) (read : String → FileRead Data) :
    Except BlockError Blocklist :=
  let path := blocklistPath defaultPath path
  match read path with
  | .found data =>
    match unmarshal data with
    | .error err => .error (.corrupt path err)
    | .ok saved => .ok (saved.entered path)
  | .notExist => .ok ⟨∅, ∅, path⟩
  | .failed err => .error (.unreadable err)

end load

namespace Blocklist

variable (b : Blocklist)

/-- What `saveLocked` writes; each of its two loops visits a map in some order. -/
def saved (order order' : RangeOrder) : SavedBlocklist where
  ips := (order.visit b.ips.entries).map (·.1)
  pubkeys := (order'.visit b.pubkeys.entries).map (·.1)

def blockIP (ip : String) : Except BlockError Blocklist :=
  if ip = "" then .error .emptyIP
  else .ok { b with ips := b.ips.insert (normalizeIP goNet ip) true }

def unblockIP (ip : String) : Blocklist :=
  { b with ips := b.ips.erase (normalizeIP goNet ip) }

def blockPubkey (pubkey : String) : Except BlockError Blocklist :=
  if pubkey = "" then .error .emptyPubkey
  else .ok { b with pubkeys := b.pubkeys.insert pubkey true }

def unblockPubkey (pubkey : String) : Blocklist :=
  { b with pubkeys := b.pubkeys.erase pubkey }

def isBlockedIP (ip : String) : Bool :=
  (b.ips.lookup (normalizeIP goNet ip)).getD false

/-- The comparison takes constant time, over bytes. -/
def isBlockedPubkey (pubkey : String) : Bool :=
  b.pubkeys.keys.any fun k => GoText.utf8 k == GoText.utf8 pubkey

end Blocklist

section normalize

/-- The part of the text that is read as an address. -/
def hostText (ip : String) : String :=
  match GoHostPort.splitHostPort ip with
  | .ok (host, _) => host
  | .error _ => ip

theorem normalizeIP_eq {ip : String} (some : ip ≠ "") : normalizeIP goNet ip =
    match GoAddr.parseIP (hostText ip) with
    | Option.some parsed => GoAddr.ipString parsed
    | none => "invalid:" ++ hostText ip :=
  if_neg some

theorem normalizeIP_ipString (a : GoIP.Addr) :
    normalizeIP goNet (GoAddr.ipString a) = GoAddr.ipString a := by
  obtain ⟨b, parsed, same⟩ := GoAddr.parseIP_ipString a
  have nonempty : GoAddr.ipString a ≠ "" := by
    intro empty
    rw [empty] at parsed
    cases parsed
  have whole : hostText (GoAddr.ipString a) = GoAddr.ipString a := by
    obtain ⟨colons, bracket⟩ := GoAddr.ipString_plain a
    unfold hostText
    split
    · next host port split =>
      have plain : (GoAddr.ipString a).toList.head? ≠ some '[' := fun head =>
        bracket (List.mem_of_mem_head? head)
      obtain ⟨text, hostFree, portFree⟩ := GoHostPort.splitHostPort_plain plain split
      rw [text, List.count_append, List.count_cons_self, List.count_eq_zero.mpr hostFree,
        List.count_eq_zero.mpr portFree] at colons
      exact absurd rfl colons
    · rfl
  rw [normalizeIP_eq nonempty, whole, parsed]
  exact same

theorem toList_invalid (host : String) :
    ("invalid:" ++ host).toList = 'i' :: 'n' :: 'v' :: 'a' :: 'l' :: 'i' :: 'd' :: ':' ::
      host.toList :=
  String.toList_append

theorem parseIP_invalid (host : String) : GoAddr.parseIP ("invalid:" ++ host) = none := by
  have separator : ("invalid:" ++ host).toList.find? ['.', ':', '%'].contains = some ':' := by
    rw [toList_invalid]
    rfl
  have letters : GoAddr.parse6 ("invalid:" ++ host).toList = none := by
    rw [toList_invalid]
    rfl
  simp only [GoAddr.parseIP, separator, letters, Option.bind_none, ite_self]

/-- The key of a text that is no address is read as a host and port, or taken whole. -/
theorem hostText_invalid (host : String) :
    hostText ("invalid:" ++ host) = "invalid" ∨
      hostText ("invalid:" ++ host) = "invalid:" ++ host ∧ host ≠ "invalid" := by
  unfold hostText
  split
  · next front port split =>
    left
    have plain : ("invalid:" ++ host).toList.head? ≠ some '[' := by
      rw [toList_invalid]
      simp
    obtain ⟨text, free, _⟩ := GoHostPort.splitHostPort_plain plain split
    rw [toList_invalid] at text
    have same : "invalid".toList = front.toList :=
      (Separator.first_separator (by decide) free text).1
    exact (String.toList_inj.mp same).symm
  · next why refused =>
    right
    refine ⟨rfl, ?_⟩
    rintro rfl
    have accepted : GoHostPort.splitHostPort "invalid:invalid" = .ok ("invalid", "invalid") := by
      decide
    cases accepted.symm.trans refused

theorem normalizeIP_invalid (host : String) :
    normalizeIP goNet ("invalid:" ++ host) = "invalid:" ++ host ↔ host = "invalid" := by
  have nonempty : "invalid:" ++ host ≠ "" := by
    rw [Ne, ← String.toList_inj, toList_invalid]
    simp
  rw [normalizeIP_eq nonempty]
  rcases hostText_invalid host with short | ⟨whole, other⟩
  · have unread : GoAddr.parseIP "invalid" = none := rfl
    rw [short, unread, String.append_right_inj, eq_comm]
  · rw [whole, parseIP_invalid]
    refine iff_of_false (fun same => ?_) other
    have lengths := congrArg String.length same
    simp at lengths

/-- A key is read back as itself exactly if it is an address, or the key of the text
`invalid`. -/
theorem normalizeIP_fixed_iff {ip : String} (some : ip ≠ "") :
    normalizeIP goNet (normalizeIP goNet ip) = normalizeIP goNet ip ↔
      (GoAddr.parseIP (hostText ip)).isSome ∨ hostText ip = "invalid" := by
  rw [normalizeIP_eq some]
  cases parsed : GoAddr.parseIP (hostText ip) with
  | some a => exact iff_of_true (normalizeIP_ipString a) (.inl rfl)
  | none =>
    rw [normalizeIP_invalid]
    simp

end normalize

end VeilNet.Source.Nodes
