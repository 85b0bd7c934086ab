import VeilNet.Source.Wireguard.Ini

/-!
# The texts of a configuration are read back

`ToIPC` and `GenerateINI` put one field on a line. `Validate` lets a line end through in the host
of an endpoint and in a key, where base64 skips it. What follows is then a line of its own, in the
text for the device even a whole peer that is not in the configuration. Without such line ends
both texts are read back as written.
-/
namespace VeilNet.Guarantees.ConfigTexts
open Lib Lib.Outcome Lib.GoString Source.Wireguard

variable {lib : Library} {cfg : Config}

section samples
open Source.Tunnel (checkEndpoint checkAddresses checkDNS checkAllowedIPs checkPeers)

/-- `strings.ToLower` on ASCII. -/
def asciiLibrary : Library := ⟨GoText.toLower, id, fun _ _ => rfl⟩

def zeroKey : GoString := List.replicate 43 (.char 'A') ++ [.char '=']

/-- The same key on two lines. -/
def foldedKey : GoString :=
  List.replicate 24 (.char 'A') ++ .char '\n' :: (List.replicate 19 (.char 'A') ++ [.char '='])

def oneHop (privateKey : GoString) (endpoint : String) : Config where
  privateKey := privateKey
  listenPort := 0
  addresses := [ofString "10.64.0.2/32"]
  dns := [ofString "10.64.0.1"]
  peers := [⟨zeroKey, ofString endpoint, [ofString "0.0.0.0/0"], 25⟩]
  mtu := 1420

theorem zeroKey_spells : SpellsKey zeroKey := by
  refine ⟨Vector.replicate 32 0, ?_⟩
  rw [decodeKey, GoDecode.decodeString, runes, String.toList_ofList]
  decide

theorem foldedKey_spells : SpellsKey foldedKey := by
  refine ⟨Vector.replicate 32 0, ?_⟩
  rw [decodeKey, GoDecode.decodeString, runes, String.toList_ofList]
  decide

theorem oneHop_valid {privateKey : GoString} {endpoint : String} (spells : SpellsKey privateKey)
    (reachable : checkEndpoint (readers asciiLibrary) 0 endpoint = .ok ()) :
    validate asciiLibrary (oneHop privateKey endpoint) = .ok () := by
  obtain ⟨_, private_, _⟩ := spells.decoded asciiLibrary
  obtain ⟨_, public_, _⟩ := zeroKey_spells.decoded asciiLibrary
  have addresses : checkAddresses (readers asciiLibrary) ["10.64.0.2/32"] = .ok () := by
    decide
  have dns : checkDNS (readers asciiLibrary) ["10.64.0.1"] = .ok () := by decide
  have allowed : checkAllowedIPs (readers asciiLibrary) 0 ["0.0.0.0/0"] = .ok () := by
    decide
  simp only [validate, Source.Tunnel.validate, Config.shown, Peer.shown, oneHop, List.map_cons,
    List.map_nil, runes_ofString, Source.Tunnel.privateKeyHex, private_,
    Source.Tunnel.publicKeyHex, public_, addresses, dns, checkPeers, reachable, allowed]
  rfl

theorem plain_valid : validate asciiLibrary (oneHop zeroKey " node.example:51820\n") = .ok () :=
  oneHop_valid zeroKey_spells (by decide)

end samples

section device

/-- Each peer is read back in its place with its key, endpoint, allowed IPs and keepalive, and
each line of the text comes from a field. -/
def ReadBack (lib : Library) (cfg : Config) (text : GoString) : Prop :=
  parseIPCDump lib text = cfg.peers.map Peer.stats ∧ split text '\n' = cfg.ipcLines ++ [[]]

theorem readBack_of_oneLined (accepted : cfg.Accepted)
    (oneLined : ∀ p ∈ cfg.peers, .char '\n' ∉ trimSpace p.endpoint) :
    ReadBack lib cfg (unlines cfg.ipcLines) := by
  have lines : split (unlines cfg.ipcLines) '\n' = cfg.ipcLines ++ [[]] :=
    split_unlines (newline_ipcLines accepted oneLined)
  constructor
  · rw [parseIPCDump, lines, List.foldl_append, List.foldl_cons, List.foldl_nil, Dump.line_empty,
      flush_foldl_ipcLines accepted]
  · exact lines

/-- A line that is read never holds an endpoint with a line end in it. -/
theorem oneLined_of_readBack {text : GoString} (read : ReadBack lib cfg text) :
    ∀ p ∈ cfg.peers, .char '\n' ∉ trimSpace p.endpoint := by
  intro p member
  have stats : p.stats ∈ parseIPCDump lib text := read.1 ▸ List.mem_map_of_mem member
  exact oneLined_parseIPCDump text p.stats stats

/-- The device gets what the configuration says exactly when no endpoint has a line end inside. -/
theorem deviceText_readBack_iff (valid : validate lib cfg = .ok ()) :
    ∃ text, toIPC lib cfg = .ok text ∧
      (ReadBack lib cfg text ↔ ∀ p ∈ cfg.peers, .char '\n' ∉ trimSpace p.endpoint) :=
  ⟨unlines cfg.ipcLines, toIPC_of_validate valid, oneLined_of_readBack,
    readBack_of_oneLined (accepted_of_validate valid)⟩

theorem plainEndpoint_readBack :
    validate asciiLibrary (oneHop zeroKey " node.example:51820\n") = .ok () ∧
      ∃ text, toIPC asciiLibrary (oneHop zeroKey " node.example:51820\n") = .ok text ∧
        ReadBack asciiLibrary (oneHop zeroKey " node.example:51820\n") text := by
  obtain ⟨text, written, holds⟩ := deviceText_readBack_iff plain_valid
  exact ⟨plain_valid, text, written, holds.mpr (by decide)⟩

theorem plainEndpoint_rendered :
    let cfg := oneHop zeroKey " node.example:51820\n"
    ∃ lines, Source.Tunnel.toIPC (readers asciiLibrary) cfg.shown = .ok lines ∧
      toIPC asciiLibrary cfg = .ok (unlines (lines.map render)) :=
  toIPC_eq_render plain_valid (by unfold IsText; decide)

/-- An endpoint with a peer of its own inside. -/
def forgedPeer : String := "a\npublic_key=ff\nallowed_ip=0.0.0.0/0\nendpoint=6.6.6.6:51820"

/-- The device is given a second peer, with the key and the endpoint that the first one brought. -/
theorem forgedPeer_added :
    validate asciiLibrary (oneHop zeroKey forgedPeer) = .ok () ∧
      ∃ text, toIPC asciiLibrary (oneHop zeroKey forgedPeer) = .ok text ∧
        ¬ ReadBack asciiLibrary (oneHop zeroKey forgedPeer) text ∧
        (parseIPCDump asciiLibrary text).map
            (fun stats => (runes stats.publicKeyHex, runes stats.endpoint)) =
          [(runes (hexOf zeroKey), "a"), ("ff", "6.6.6.6:51820")] := by
  have valid : validate asciiLibrary (oneHop zeroKey forgedPeer) = .ok () :=
    oneHop_valid zeroKey_spells (by decide)
  have sorted : sortStrings [ofString "0.0.0.0/0"] = [ofString "0.0.0.0/0"] :=
    List.mergeSort_singleton _
  refine ⟨valid, unlines (oneHop zeroKey forgedPeer).ipcLines, toIPC_of_validate valid, ?_, ?_⟩
  · intro read
    exact absurd (oneLined_of_readBack read) (by decide)
  · simp only [Config.ipcLines, oneHop, List.flatMap_cons, List.flatMap_nil, Peer.ipcLines, sorted]
    decide

end device

section file

theorem oneLined_normal_iff : cfg.normal.OneLined ↔ .char '\n' ∉ trimSpace cfg.privateKey ∧
    ∀ p ∈ cfg.peers, .char '\n' ∉ trimSpace p.publicKey ∧ .char '\n' ∉ trimSpace p.endpoint := by
  constructor
  · intro oneLined
    refine ⟨oneLined.privateKey, ?_⟩
    intro p member
    have peer := oneLined.peers p.normal (List.mem_map_of_mem member)
    exact ⟨peer.publicKey, peer.endpoint⟩
  · intro free
    refine ⟨free.1, ?_⟩
    intro q member
    obtain ⟨p, inPeers, rfl⟩ := List.mem_map.mp member
    exact ⟨(free.2 p inPeers).1, (free.2 p inPeers).2⟩

theorem parseINI_of_oneLined (accepted : cfg.Accepted) (oneLined : cfg.normal.OneLined) :
    parseINI lib (generateINI cfg) = .ok cfg.normal := by
  have key : trimSpace cfg.normal.privateKey ≠ [] := by
    rw [Config.normal, trimSpace_trimSpace]
    exact accepted.privateKey.nonempty
  obtain ⟨t, passed, closed⟩ := foldlM_iniLines lib accepted
  rw [generateINI_eq, parseINI, split_unlines (newline_iniLines accepted oneLined),
    foldlM_append_ok passed, List.foldlM_cons, Ini.line_empty]
  change (if trimSpace t.close.privateKey = [] then _ else Except.ok t.close) = _
  rw [closed, if_neg key]

/-- The file is read back, with its keys and endpoints trimmed and no negative MTU, exactly when no
key and no endpoint has a line end inside. -/
theorem iniFile_readBack_iff (valid : validate lib cfg = .ok ()) :
    parseINI lib (generateINI cfg) = .ok cfg.normal ↔ .char '\n' ∉ trimSpace cfg.privateKey ∧
      ∀ p ∈ cfg.peers, .char '\n' ∉ trimSpace p.publicKey ∧ .char '\n' ∉ trimSpace p.endpoint := by
  rw [← oneLined_normal_iff]
  constructor
  · exact oneLined_parseINI
  · exact parseINI_of_oneLined (accepted_of_validate valid)

theorem plainKey_readBack :
    validate asciiLibrary (oneHop zeroKey " node.example:51820\n") = .ok () ∧
      parseINI asciiLibrary (generateINI (oneHop zeroKey " node.example:51820\n")) =
        .ok (oneHop zeroKey "node.example:51820") := by
  exact ⟨plain_valid, (iniFile_readBack_iff plain_valid).mpr (by decide)⟩

/-- Only the first line of the key is read back. -/
theorem foldedKey_cut :
    validate asciiLibrary (oneHop foldedKey "node.example:51820") = .ok () ∧
      parseINI asciiLibrary (generateINI (oneHop foldedKey "node.example:51820")) =
        .ok (oneHop (List.replicate 24 (.char 'A')) "node.example:51820") ∧
      oneHop (List.replicate 24 (.char 'A')) "node.example:51820" ≠
        (oneHop foldedKey "node.example:51820").normal := by
  refine ⟨oneHop_valid foldedKey_spells (by decide), by decide, ?_⟩
  intro same
  exact absurd (congrArg (fun cfg => cfg.privateKey.length) same) (by decide)

end file

end VeilNet.Guarantees.ConfigTexts
