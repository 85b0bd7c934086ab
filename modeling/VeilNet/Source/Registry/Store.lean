import VeilNet.Lib.GoFloat
import VeilNet.Lib.GoMap
import VeilNet.Lib.GoText
import VeilNet.Lib.Outcome

/-!
The node registry of `internal/registry/registry.go`. Base64, `net.SplitHostPort`, ed25519 and
JSON are in `Codec`; how the file calls and the mirror of one call end is in its `Outcomes`. A
writing call is the part up to the unlock, then `save`, then the mirror.
-/
namespace VeilNet.Source.Registry
open Lib

def statusActive : String := "active"

def statusDisabled : String := "disabled"

/-- A status may be any string until `Validate` has looked at it. -/
structure Node (F : Type) where
  nodeID : String
  wgPubKey : String
  region : String
  country : String
  city : String
  endpoint : String
  pricePerHourDERO : F
  capacityMaxClients : ℤ
  protocolVersion : ℤ
  bondDERO : F
  status : String
  version : String
  deriving DecidableEq

structure Announcement where
  payload : List UInt8
  signature : List UInt8
  operatorKey : List UInt8

inductive Error (F : Type) where
  | emptyNodeID | badNodeID
  | wgPubKeyNotBase64 (err : String)
  | wgPubKeyLength (got : ℕ)
  | endpoint (err : Option String)
  | negativePricePerHour | capacity | protocolVersion
  | bondBelow (bond minimum : F)
  | unknownStatus (status : String)
  | operatorKeySize | signatureSize | signature
  | payload (err : String)
  | keyChanged
  | alreadyRegistered (nodeID : String)
  | unknownToUpdate (nodeID : String)
  | unknownNode (nodeID : String)
  | negativePrice
  | file (err : String)
  | mirror (op err : String)

/-- The messages; `decimal` is `%.4f` and `quote` is `%q`. A missing cause of a bad
endpoint prints as Go prints a nil error under `%w`. -/
def Error.text {F : Type} (decimal : F → String) (quote : String → String) : Error F → String
  | .emptyNodeID => "registry: empty node_id"
  | .badNodeID => "registry: node_id must not contain whitespace or slashes"
  | .wgPubKeyNotBase64 err => "registry: wg_pubkey not base64: " ++ err
  | .wgPubKeyLength got => "registry: wg_pubkey must decode to 32 bytes, got " ++ toString got
  | .endpoint err => "registry: endpoint must be host:port: " ++ err.getD "%!w(<nil>)"
  | .negativePricePerHour => "registry: negative price_per_hour_dero"
  | .capacity => "registry: capacity_max_clients must be > 0"
  | .protocolVersion => "registry: protocol_version must be > 0"
  | .bondBelow bond minimum =>
    "registry: bond_dero " ++ decimal bond ++ " below minimum " ++ decimal minimum
  | .unknownStatus status => "registry: unknown status " ++ quote status
  | .operatorKeySize => "registry: bad operator key size"
  | .signatureSize => "registry: bad signature size"
  | .signature => "registry: signature verification failed"
  | .payload err => "registry: bad payload: " ++ err
  | .keyChanged => "registry: operator key changed for known node_id " ++
      "(re-registration with fresh bond required)"
  | .alreadyRegistered nodeID => "registry: " ++ nodeID ++ " already registered (use Update)"
  | .unknownToUpdate nodeID => "registry: unknown node " ++ nodeID ++ " (use Register)"
  | .unknownNode nodeID => "registry: unknown node " ++ nodeID
  | .negativePrice => "registry: negative price"
  | .file err => err
  | .mirror op err => "registry: SC mirror " ++ op ++ ": " ++ err

/-- The library functions that the registry calls. -/
structure Codec (F : Type) where
  decodeStd : String → Except String (List UInt8)
  decodeRawURL : String → Except String (List UInt8)
  splitHostPort : String → Except String (String × String)
  ed25519Verify : List UInt8 → List UInt8 → List UInt8 → Bool
  unmarshalNode : List UInt8 → Except String (Node F)
  marshalNodes : GoMap String (Node F) → Except String (List UInt8)

section checks
variable {F : Type} (codec : Codec F)

/-- The announced node and the key that signed it. -/
def Codec.verify (a : Announcement) : Except (Error F) (Node F × List UInt8) := do
  Outcome.refuseIf (a.operatorKey.length ≠ 32) .operatorKeySize
  Outcome.refuseIf (a.signature.length ≠ 64) .signatureSize
  Outcome.refuseIf (codec.ed25519Verify a.operatorKey a.payload a.signature = false) .signature
  match codec.unmarshalNode a.payload with
  | .error err => .error (.payload err)
  | .ok n => .ok (n, a.operatorKey)

/-- Standard base64, then unpadded base64url. -/
def Codec.decodeKey (wgPubKey : String) : Except (Error F) (List UInt8) :=
  match codec.decodeStd wgPubKey with
  | .ok raw => .ok raw
  | .error _ =>
    match codec.decodeRawURL wgPubKey with
    | .ok raw => .ok raw
    | .error err => .error (.wgPubKeyNotBase64 err)

def Codec.checkEndpoint (endpoint : String) : Except (Error F) Unit :=
  match codec.splitHostPort endpoint with
  | .error err => .error (.endpoint (some err))
  | .ok (host, port) => Outcome.refuseIf (host = "" ∨ port = "") (.endpoint none)

variable [GoFloat F]

/-- `MinBondDERO` in place of a minimum that is not positive. -/
def effectiveMinBond (minBond : F) : F :=
  if GoFloat.le minBond (GoFloat.ofInt 0) then GoFloat.ofInt 10 else minBond

def Codec.validate (n : Node F) (minBond : F) : Except (Error F) Unit := do
  Outcome.refuseIf (GoText.blank n.nodeID = true) .emptyNodeID
  Outcome.refuseIf (n.nodeID.toList.any [' ', '\t', '\n', '/'].contains = true) .badNodeID
  let raw ← codec.decodeKey n.wgPubKey
  Outcome.refuseIf (raw.length ≠ 32) (.wgPubKeyLength raw.length)
  codec.checkEndpoint n.endpoint
  Outcome.refuseIf (GoFloat.lt n.pricePerHourDERO (GoFloat.ofInt 0) = true) .negativePricePerHour
  Outcome.refuseIf (n.capacityMaxClients ≤ 0) .capacity
  Outcome.refuseIf (n.protocolVersion ≤ 0) .protocolVersion
  Outcome.refuseIf (GoFloat.lt n.bondDERO (effectiveMinBond minBond) = true)
    (.bondBelow n.bondDERO (effectiveMinBond minBond))
  Outcome.refuseIf (n.status ≠ statusActive ∧ n.status ≠ statusDisabled) (.unknownStatus n.status)

end checks

/-- `mirror` says whether there is one; `path` is `""` when there is no file. -/
structure Store (F : Type) where
  nodes : GoMap String (Node F)
  opKeys : GoMap String (List UInt8)
  mirror : Bool
  path : String
  minBond : F

def newStore {F : Type} [GoFloat F] (path : String) (mirror : Bool) (minBond : F) : Store F :=
  ⟨∅, ∅, mirror, path, effectiveMinBond minBond⟩

/-- The writing calls, with their arguments. -/
inductive Call (F : Type) where
  | register (a : Announcement)
  | update (a : Announcement)
  | disable (nodeID : String)
  | setPrice (nodeID : String) (price : F)

/-- The operation that the mirror is told. -/
def Call.op {F : Type} : Call F → String
  | .register _ => "RegisterNode"
  | .update _ => "UpdateNode"
  | .disable _ => "DisableNode"
  | .setPrice .. => "SetPrice"

namespace Store
variable {F : Type}

def checkKeyContinuity (s : Store F) (n : Node F) (op : List UInt8) : Except (Error F) Unit :=
  match s.opKeys.lookup n.nodeID with
  | some pinned => Outcome.refuseIf (pinned ≠ op) .keyChanged
  | none => .ok ()

def put (s : Store F) (n : Node F) (op : List UInt8) : Store F :=
  { s with
    nodes := s.nodes.insert n.nodeID n
    opKeys := if (s.opKeys.lookup n.nodeID).isSome then s.opKeys else s.opKeys.insert n.nodeID op }

def disable (s : Store F) (nodeID : String) : Except (Error F) (Node F × Store F) :=
  match s.nodes.lookup nodeID with
  | none => .error (.unknownNode nodeID)
  | some n =>
    let n := { n with status := statusDisabled }
    .ok (n, { s with nodes := s.nodes.insert nodeID n })

variable [GoFloat F] (codec : Codec F)

def register (s : Store F) (a : Announcement) : Except (Error F) (Node F × Store F) := do
  let (n, op) ← codec.verify a
  codec.validate n s.minBond
  match s.nodes.lookup n.nodeID with
  | some _ =>
    s.checkKeyContinuity n op
    .error (.alreadyRegistered n.nodeID)
  | none => .ok (n, s.put n op)

def update (s : Store F) (a : Announcement) : Except (Error F) (Node F × Store F) := do
  let (n, op) ← codec.verify a
  codec.validate n s.minBond
  match s.nodes.lookup n.nodeID with
  | none => .error (.unknownToUpdate n.nodeID)
  | some _ =>
    s.checkKeyContinuity n op
    .ok (n, s.put n op)

def setPrice (s : Store F) (nodeID : String) (price : F) : Except (Error F) (Node F × Store F) :=
  if GoFloat.lt price (GoFloat.ofInt 0) then .error .negativePrice
  else match s.nodes.lookup nodeID with
    | none => .error (.unknownNode nodeID)
    | some n =>
      let n := { n with pricePerHourDERO := price }
      .ok (n, { s with nodes := s.nodes.insert nodeID n })

/-- The part of a call up to the unlock: what it changes, and the node it mirrors. -/
def locked (s : Store F) : Call F → Except (Error F) (Node F × Store F)
  | .register a => s.register codec a
  | .update a => s.update codec a
  | .disable nodeID => s.disable nodeID
  | .setPrice nodeID price => s.setPrice nodeID price

end Store

/-- How the file calls and the mirror end. A failed write may leave something in the
temporary file. -/
structure Outcomes where
  mkdirAll : Except String Unit
  write : Except (String × Option (List UInt8)) Unit
  rename : Except String Unit
  mirror : Except String Unit

/-- The registry file and its temporary file, `path + ".tmp"`. -/
structure Disk where
  file : Option (List UInt8)
  tmp : Option (List UInt8)

section save
variable {F : Type}

def writeTmp (out : Outcomes) (d : Disk) (data : List UInt8) : Option (Error F) × Disk :=
  match out.mkdirAll with
  | .error err => (some (.file err), d)
  | .ok () =>
    match out.write with
    | .error (err, left) => (some (.file err), { d with tmp := left })
    | .ok () => (none, { d with tmp := some data })

/-- There must be a temporary file to rename. -/
def renameTmp (out : Outcomes) (d : Disk) : Option (Error F) × Disk :=
  match out.rename, d.tmp with
  | .error err, _ => (some (.file err), d)
  | .ok (), none => (some (.file "no such file or directory"), d)
  | .ok (), some data => (none, ⟨some data, none⟩)

def save (codec : Codec F) (out : Outcomes) (s : Store F) (d : Disk) : Option (Error F) × Disk :=
  if s.path = "" then (none, d)
  else match codec.marshalNodes s.nodes with
    | .error err => (some (.file err), d)
    | .ok data =>
      match writeTmp out d data with
      | (some e, d) => (some e, d)
      | (none, d) => renameTmp out d

def callMirror (out : Outcomes) (s : Store F) (op : String) : Option (Error F) :=
  if s.mirror then
    match out.mirror with
    | .error err => some (.mirror op err)
    | .ok () => none
  else none

/-- A whole call. The maps stay changed when saving or mirroring fails. -/
def perform [GoFloat F] (codec : Codec F) (out : Outcomes) (s : Store F) (d : Disk)
    (call : Call F) : Option (Error F) × Store F × Disk :=
  match s.locked codec call with
  | .error e => (some e, s, d)
  | .ok (_, s) =>
    match save codec out s d with
    | (some e, d) => (some e, s, d)
    | (none, d) => (callMirror out s call.op, s, d)

end save

section specs
variable {F : Type} {codec : Codec F}

variable {n : Node F}

/-- An announcement is taken only with the signature of the key that it names. -/
theorem verify_ok {a : Announcement} {op : List UInt8} (accepted : codec.verify a = .ok (n, op)) :
    op = a.operatorKey ∧ codec.ed25519Verify a.operatorKey a.payload a.signature = true ∧
      codec.unmarshalNode a.payload = .ok n := by
  obtain ⟨_, _, accepted⟩ := Outcome.of_bind_ok accepted
  obtain ⟨_, _, accepted⟩ := Outcome.of_bind_ok accepted
  obtain ⟨_, signed, accepted⟩ := Outcome.of_bind_ok accepted
  have verified := Outcome.of_refuseIf_ok signed
  split at accepted
  · cases accepted
  · next n' decoded =>
    cases accepted
    exact ⟨rfl, by simpa using verified, decoded⟩

variable {out : Outcomes} {d : Disk} {data : List UInt8}

theorem writeTmp_ok {d' : Disk}
    (done : writeTmp (F := F) out d data = (none, d')) : d'.tmp = some data := by
  unfold writeTmp at done
  split at done
  · cases done
  · split at done
    · cases done
    · cases done
      rfl

theorem renameTmp_ok {d' : Disk}
    (done : renameTmp (F := F) out d = (none, d')) : d'.file = d.tmp := by
  unfold renameTmp at done
  split at done
  · cases done
  · cases done
  · next data _ held =>
    cases done
    exact held.symm

/-- When there is a file, the nodes can be encoded and the file calls succeed. -/
def Outcomes.Saves (codec : Codec F) (out : Outcomes) (s : Store F) : Prop :=
  s.path = "" ∨ ((codec.marshalNodes s.nodes).isOk = true ∧ out.mkdirAll = .ok () ∧
    out.write = .ok () ∧ out.rename = .ok ())

/-- The mirror succeeds, when there is one. -/
def Outcomes.Mirrors (out : Outcomes) (s : Store F) : Prop := s.mirror = false ∨ out.mirror = .ok ()

variable {s : Store F}

/-- Saving succeeds exactly if the map can be encoded and no file call fails. -/
theorem save_eq_none_iff : (save codec out s d).1 = none ↔ out.Saves codec s := by
  unfold save Outcomes.Saves
  by_cases memory : s.path = ""
  · simp [memory]
  · simp only [memory, if_false, false_or]
    cases codec.marshalNodes s.nodes with
    | error err => simp [Except.isOk, Except.toBool]
    | ok data =>
      unfold writeTmp
      cases out.mkdirAll with
      | error err => simp
      | ok _ =>
        cases out.write with
        | error failure => simp
        | ok _ =>
          cases renamed : out.rename with
          | error err => simp [renameTmp, renamed]
          | ok _ => simp [renameTmp, renamed, Except.isOk, Except.toBool]

/-- After a save that succeeds the file holds the nodes. -/
theorem file_of_save (onDisk : s.path ≠ "") (saved : (save codec out s d).1 = none) :
    ∃ data, codec.marshalNodes s.nodes = .ok data ∧ (save codec out s d).2.file = some data := by
  unfold save at saved ⊢
  rw [if_neg onDisk] at saved ⊢
  split at saved
  · cases saved
  · next data encoded =>
    refine ⟨data, encoded, ?_⟩
    split at saved
    · cases saved
    · next d' written =>
      rw [renameTmp_ok (Prod.ext saved rfl), writeTmp_ok written]

theorem callMirror_eq_none_iff {op : String} : callMirror out s op = none ↔ out.Mirrors s := by
  unfold callMirror Outcomes.Mirrors
  cases s.mirror with
  | false => simp
  | true =>
    cases out.mirror with
    | error err => simp
    | ok _ => simp

variable [GoFloat F]

/-- What `Validate` asks of a node. -/
structure Valid (codec : Codec F) (n : Node F) (minBond : F) : Prop where
  nodeID : GoText.blank n.nodeID = false
  nodeIDChars : ∀ c ∈ n.nodeID.toList, c ∉ [' ', '\t', '\n', '/']
  wgPubKey : ∃ raw, codec.decodeKey n.wgPubKey = .ok raw ∧ raw.length = 32
  endpoint : codec.checkEndpoint n.endpoint = .ok ()
  price : GoFloat.lt n.pricePerHourDERO (GoFloat.ofInt 0) = false
  capacity : 0 < n.capacityMaxClients
  protocolVersion : 0 < n.protocolVersion
  bond : GoFloat.lt n.bondDERO (effectiveMinBond minBond) = false
  status : n.status = statusActive ∨ n.status = statusDisabled

theorem Valid.disabled (h : Valid codec n minBond) :
    Valid codec { n with status := statusDisabled } minBond :=
  { h with status := .inr rfl }

variable {minBond : F}

theorem Valid.priced {price : F} (h : Valid codec n minBond)
    (nonnegative : GoFloat.lt price (GoFloat.ofInt 0) = false) :
    Valid codec { n with pricePerHourDERO := price } minBond :=
  { h with price := nonnegative }

theorem validate_ok_iff : codec.validate n minBond = .ok () ↔ Valid codec n minBond := by
  simp only [Codec.validate, Outcome.bind_ok_iff, Outcome.refuseIf_ok_iff]
  constructor
  · rintro ⟨_, named, _, chars, raw, decoded, _, long, _, reachable, _, priced, _, roomy, _,
      versioned, _, bonded, known⟩
    exact
      { nodeID := by simpa using named
        nodeIDChars := by simpa using chars
        wgPubKey := ⟨raw, decoded, by simpa using long⟩
        endpoint := reachable
        price := by simpa using priced
        capacity := by omega
        protocolVersion := by omega
        bond := by simpa using bonded
        status := by simpa [or_iff_not_imp_left] using known }
  · intro h
    obtain ⟨raw, decoded, long⟩ := h.wgPubKey
    have chars := h.nodeIDChars
    have roomy := h.capacity
    have versioned := h.protocolVersion
    refine ⟨(), by simp [h.nodeID], (), by simpa using chars, raw, decoded, (), by simp [long], (),
      h.endpoint, (), by simp [h.price], (), by omega, (), by omega, (), by simp [h.bond], ?_⟩
    rintro ⟨notActive, notDisabled⟩
    exact h.status.elim notActive notDisabled

variable {s' : Store F} {call : Call F}

variable (done : s.locked codec call = .ok (n, s'))
include done

/-- What a call does to the maps when it gets as far as the unlock. -/
theorem locked_cases :
    (∃ a op, (call = .register a ∨ call = .update a) ∧ codec.verify a = .ok (n, op) ∧
      Valid codec n s.minBond ∧ s' = s.put n op ∧
      ((s.nodes.lookup n.nodeID).isSome → s.checkKeyContinuity n op = .ok ())) ∨
    (∃ nodeID old, s.nodes.lookup nodeID = some old ∧
      s' = { s with nodes := s.nodes.insert nodeID n } ∧
      (n = { old with status := statusDisabled } ∨
        ∃ price, GoFloat.lt price (GoFloat.ofInt 0) = false ∧
          n = { old with pricePerHourDERO := price })) := by
  cases call with
  | register a =>
    obtain ⟨⟨n', op⟩, verified, done⟩ := Outcome.of_bind_ok done
    obtain ⟨_, valid, done⟩ := Outcome.of_bind_ok done
    split at done
    · obtain ⟨_, _, done⟩ := Outcome.of_bind_ok done
      cases done
    · next absent =>
      cases done
      refine .inl ⟨a, op, .inl rfl, verified, validate_ok_iff.mp valid, rfl, fun present => ?_⟩
      rw [absent] at present
      cases present
  | update a =>
    obtain ⟨⟨n', op⟩, verified, done⟩ := Outcome.of_bind_ok done
    obtain ⟨_, valid, done⟩ := Outcome.of_bind_ok done
    split at done
    · cases done
    · obtain ⟨_, continues, done⟩ := Outcome.of_bind_ok done
      cases done
      exact .inl ⟨a, op, .inr rfl, verified, validate_ok_iff.mp valid, rfl, fun _ => continues⟩
  | disable nodeID =>
    rw [Store.locked, Store.disable] at done
    split at done
    · cases done
    · next old found =>
      cases done
      exact .inr ⟨nodeID, old, found, rfl, .inl rfl⟩
  | setPrice nodeID price =>
    rw [Store.locked, Store.setPrice] at done
    split at done
    · cases done
    · next priced =>
      split at done
      · cases done
      · next old found =>
        cases done
        exact .inr ⟨nodeID, old, found, rfl, .inr ⟨price, by simpa using priced, rfl⟩⟩

theorem locked_path : s'.path = s.path := by
  rcases locked_cases done with ⟨a, op, _, _, _, rfl, _⟩ | ⟨nodeID, old, _, rfl, _⟩
  · rfl
  · rfl

theorem locked_minBond : s'.minBond = s.minBond := by
  rcases locked_cases done with ⟨a, op, _, _, _, rfl, _⟩ | ⟨nodeID, old, _, rfl, _⟩
  · rfl
  · rfl

omit done in
/-- Whatever becomes of the file and the mirror, a call leaves the maps as the part up
to the unlock left them. -/
theorem perform_store (out : Outcomes) (s : Store F) (d : Disk) (call : Call F) :
    (∃ e, s.locked codec call = .error e ∧ (perform codec out s d call).2.1 = s) ∨
    ∃ n s', s.locked codec call = .ok (n, s') ∧ (perform codec out s d call).2.1 = s' := by
  unfold perform
  cases reached : s.locked codec call with
  | error e => exact .inl ⟨e, rfl, rfl⟩
  | ok changed =>
    refine .inr ⟨changed.1, changed.2, rfl, ?_⟩
    dsimp only
    split <;> rfl

/-- A call that the checks let through succeeds exactly when saving and mirroring do. -/
theorem perform_eq_none_iff :
    (perform codec out s d call).1 = none ↔ out.Saves codec s' ∧ out.Mirrors s' := by
  have saved : (save codec out s' d).1 = none ↔ out.Saves codec s' := save_eq_none_iff
  have mirrored : callMirror out s' call.op = none ↔ out.Mirrors s' := callMirror_eq_none_iff
  rw [← saved, ← mirrored]
  unfold perform
  rw [done]
  dsimp only
  split
  · next e d' failed => simp [failed]
  · next d' fine => simp [fine]

end specs

end VeilNet.Source.Registry
