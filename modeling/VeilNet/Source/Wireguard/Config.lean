import VeilNet.Lib.GoDecode
import VeilNet.Lib.GoString
import VeilNet.Source.Tunnel.Requests

/-!
`internal/wireguard/wgconf.go` at the level of its strings, with the readings of the Go library
spelled out. `Validate` looks at characters only, so it is the one of `Source.Tunnel` on them; a
stray byte is accepted only in the host of an endpoint, like any character.
-/
namespace VeilNet.Source.Wireguard
open Lib Lib.Outcome Lib.GoString
open Tunnel (ConfigError)

structure Peer where
  publicKey : GoString
  endpoint : GoString
  allowedIPs : List GoString
  keepalive : Int64
  deriving DecidableEq

structure Config where
  privateKey : GoString
  listenPort : Int64
  addresses : List GoString
  dns : List GoString
  peers : List Peer
  mtu : Int64
  deriving DecidableEq

/-- What is left open of the Go library: `strings.ToLower` outside ASCII, where some letters
become ASCII ones, and the text of the error for a string that is no prefix. -/
structure Library where
  toLower : String → String
  refusal : String → String
  toLower_ascii : ∀ s, (∀ c ∈ s.toList, c.toNat < 128) → toLower s = GoText.toLower s

theorem Library.toLower_keyword (lib : Library) {key : String} (keyword : isKeyword key = true) :
    lib.toLower key = GoText.toLower key := by
  apply lib.toLower_ascii
  intro c member
  have range := char_of_isKeyword keyword member
  omega

abbrev Key := Vector UInt8 32

/-- 32 bytes in base64. Both callers drop the reason of a failure. -/
def decodeKey (text : String) : Except String Key :=
  match GoDecode.decodeString text with
  | none => .error ""
  | some raw =>
    if length : raw.length = 32 then .ok ⟨raw.toArray, by simpa using length⟩ else .error ""

/-- The readings of the Go library. `Validate` asks neither the device nor a resolver. -/
def readers (lib : Library) : Tunnel.Parsers Key Empty (GoIP.Addr × ℕ) where
  decodeKey
  parsePrefix text :=
    match GoDecode.parsePrefix text with
    | none => .error (lib.refusal text)
    | some net => .ok net
  isIP text := (GoAddr.parseIP text).isSome
  splitHostPort text := (GoHostPort.splitHostPort text).toOption
  atoi text := (GoDecode.parseInt text).map Int64.toInt
  parseEndpoint _ := none
  resolveUDPAddr _ := .error ""

theorem readers_decodeKey (lib : Library) : (readers lib).decodeKey = decodeKey := rfl

section shown

def Peer.shown (p : Peer) : Tunnel.Peer :=
  ⟨runes p.publicKey, runes p.endpoint, p.allowedIPs.map runes, p.keepalive.toInt⟩

/-- The characters of a configuration. -/
def Config.shown (cfg : Config) : Tunnel.Config where
  privateKey := runes cfg.privateKey
  addresses := cfg.addresses.map runes
  dns := cfg.dns.map runes
  peers := cfg.peers.map Peer.shown
  listenPort := cfg.listenPort.toInt

end shown

section validate
variable (lib : Library)

def keyHex (key : Key) : GoString := ofString (GoText.hexEncode key.toList)

def privateKeyHex (priv : GoString) : Except ConfigError GoString :=
  (Tunnel.privateKeyHex (readers lib) (runes priv)).map keyHex

def publicKeyHex (position : ℕ) (pub : GoString) : Except ConfigError GoString :=
  (Tunnel.publicKeyHex (readers lib) position (runes pub)).map keyHex

def validate (cfg : Config) : Except ConfigError Unit := Tunnel.validate (readers lib) cfg.shown

end validate

section accepted

/-- The key that a text spells, in hexadecimal. -/
def hexOf (text : GoString) : GoString :=
  match decodeKey (runes (trimSpace text)) with
  | .ok key => keyHex key
  | .error _ => []

def SpellsKey (text : GoString) : Prop := ∃ key, decodeKey (runes (trimSpace text)) = .ok key

structure Peer.Accepted (p : Peer) : Prop where
  publicKey : SpellsKey p.publicKey
  allowedIPs : ∀ a ∈ p.allowedIPs, Word a
  keepalive : 0 ≤ p.keepalive

/-- What the texts depend on of what `Validate` has checked. -/
structure Config.Accepted (cfg : Config) : Prop where
  privateKey : SpellsKey cfg.privateKey
  listenPort : 0 ≤ cfg.listenPort
  addresses : ∀ a ∈ cfg.addresses, Word a
  dns : ∀ d ∈ cfg.dns, Word d
  peers : ∀ p ∈ cfg.peers, p.Accepted

variable {lib : Library}

variable {s : GoString}

theorem word_of_plain (nonempty : (runes s).toList ≠ [])
    (plain : ∀ c ∈ (runes s).toList, GoDecode.isPlain c = true) : Word s := by
  have visible : ∀ x ∈ s, GoText.isSpace x.rune = false ∧ x.rune ≠ ',' :=
    fun x member => GoDecode.visible_of_plain (plain _ (rune_mem_runes member))
  constructor
  · rintro rfl
    exact nonempty rfl
  · exact fun x member => (visible x member).1
  · exact fun comma => (visible _ comma).2 rfl

theorem word_of_parsePrefix {net : GoIP.Addr × ℕ}
    (read : (readers lib).parsePrefix (runes s) = .ok net) : Word s := by
  simp only [readers] at read
  split at read
  · cases read
  · next found =>
    obtain ⟨nonempty, plain⟩ := GoDecode.plain_of_parsePrefix found
    exact word_of_plain nonempty plain

theorem word_of_isIP (read : (readers lib).isIP (runes s) = true) : Word s := by
  obtain ⟨addr, found⟩ := Option.isSome_iff_exists.mp read
  obtain ⟨nonempty, plain⟩ := GoDecode.plain_of_parseIP found
  exact word_of_plain nonempty plain

variable {text : GoString}

variable (lib) in
theorem spellsKey_iff :
    SpellsKey text ↔ ∃ key, (readers lib).decodeKey (GoText.trimSpace (runes text)) = .ok key := by
  rw [← runes_trimSpace, readers_decodeKey, SpellsKey]

/-- What an accepted configuration is made of, at the level of its strings. -/
theorem accepted_of_validate {cfg : Config} (valid : validate lib cfg = .ok ()) : cfg.Accepted := by
  have passed := Tunnel.validated_of_validate valid
  have words : ∀ {items : List GoString}, (∀ text ∈ items.map runes, ∃ net,
      (readers lib).parsePrefix text = .ok net) → ∀ a ∈ items, Word a := by
    intro items readable a member
    obtain ⟨net, read⟩ := readable _ (List.mem_map_of_mem member)
    exact word_of_parsePrefix read
  constructor
  · obtain ⟨key, decoded⟩ := passed.privateKey
    exact (spellsKey_iff lib).mpr ⟨key, of_mapError_ok decoded⟩
  · have port : 0 ≤ cfg.listenPort.toInt := passed.listenPort.1
    rwa [Int64.le_iff_toInt_le]
  · exact words passed.addresses
  · exact fun d member => word_of_isIP (passed.dns _ (List.mem_map_of_mem member))
  · intro p member
    obtain ⟨spells, allowed, keepalive⟩ :=
      Tunnel.of_checkPeers passed.peers p.shown (List.mem_map_of_mem member)
    have seconds : 0 ≤ p.keepalive.toInt := keepalive
    exact ⟨(spellsKey_iff lib).mpr spells, words allowed, by rwa [Int64.le_iff_toInt_le]⟩

variable (spells : SpellsKey text)
include spells

theorem SpellsKey.nonempty : trimSpace text ≠ [] := by
  intro empty
  obtain ⟨key, decoded⟩ := spells
  rw [empty] at decoded
  cases decoded

variable (lib) in
theorem SpellsKey.decoded :
    ∃ key, (readers lib).decodeKey (GoText.trimSpace (runes text)) = .ok key ∧
      hexOf text = keyHex key := by
  obtain ⟨key, decoded⟩ := spells
  refine ⟨key, ?_, by rw [hexOf, decoded]⟩
  rw [← runes_trimSpace, readers_decodeKey, decoded]

theorem privateKeyHex_of_spells :
    privateKeyHex lib text = .ok (hexOf text) := by
  obtain ⟨key, decoded, hex⟩ := spells.decoded lib
  rw [privateKeyHex, Tunnel.privateKeyHex, decoded, hex]
  rfl

theorem publicKeyHex_of_spells (position : ℕ) :
    publicKeyHex lib position text = .ok (hexOf text) := by
  obtain ⟨key, decoded, hex⟩ := spells.decoded lib
  rw [publicKeyHex, Tunnel.publicKeyHex, decoded, hex]
  rfl

omit spells in
theorem isSpace_hexOf (text : GoString) : ∀ x ∈ hexOf text, isSpace x = false := by
  have digits : ∀ n : Fin 16, GoText.isSpace (GoText.hexDigit n) = false := by decide
  intro x member
  rw [hexOf] at member
  split at member
  · simp only [keyHex, ofString, GoText.hexEncode, String.toList_ofList, List.mem_map,
      List.mem_flatMap, List.mem_cons, List.not_mem_nil, or_false] at member
    obtain ⟨c, ⟨b, _, rfl | rfl⟩, rfl⟩ := member
    · exact digits _
    · exact digits _
  · exact (List.not_mem_nil member).elim

theorem hexOf_nonempty : hexOf text ≠ [] := by
  obtain ⟨key, decoded⟩ := spells
  have some : key.toList ≠ [] := by
    intro empty
    have length := key.length_toList
    rw [empty] at length
    cases length
  simp only [hexOf, decoded, keyHex]
  intro empty
  exact GoText.hexEncode_ne_empty some (by rw [← runes_ofString (GoText.hexEncode _), empty]; rfl)

end accepted

end VeilNet.Source.Wireguard
