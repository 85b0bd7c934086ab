import VeilNet.Source.Wireguard.Config

/-!
The text for the device: `ToIPC`, and `ParseIPCDump`, which reads such a text line by line. The
lines that `ToIPC` means to write are those of the text when no endpoint has a line end, and they
are read back as the peers.
-/
namespace VeilNet.Source.Wireguard
open Lib Lib.Outcome Lib.GoString
open Tunnel (ConfigError)

def decimal (n : Int64) : GoString := ofString (toString n.toInt)

/-- `sort.Strings`. The strings are prefixes, so the order of bytes is that of characters. -/
def sortStrings (ips : List GoString) : List GoString :=
  ips.mergeSort fun a b => decide (runes a ≤ runes b)

section render
variable (lib : Library)

/-- The part of a peer below its key. -/
def Peer.body (p : Peer) : GoString :=
  (if trimSpace p.endpoint ≠ [] then
    ofString "endpoint=" ++ trimSpace p.endpoint ++ ofString "\n" else []) ++
    (sortStrings p.allowedIPs).flatMap (fun a =>
      ofString "allowed_ip=" ++ trimSpace a ++ ofString "\n") ++
    if 0 < p.keepalive then
      ofString "persistent_keepalive_interval=" ++ decimal p.keepalive ++ ofString "\n" else []

def peersIPC : ℕ → List Peer → Except ConfigError GoString
  | _, [] => .ok []
  | i, p :: rest => do
    let pk ← publicKeyHex lib i p.publicKey
    let more ← peersIPC (i + 1) rest
    pure (ofString "public_key=" ++ pk ++ ofString "\n" ++ p.body ++ more)

def toIPC (cfg : Config) : Except ConfigError GoString := do
  validate lib cfg
  let sk ← privateKeyHex lib cfg.privateKey
  let peers ← peersIPC lib 0 cfg.peers
  pure (ofString "private_key=" ++ sk ++ ofString "\n" ++
    (if 0 < cfg.listenPort then
      ofString "listen_port=" ++ decimal cfg.listenPort ++ ofString "\n" else []) ++ peers)

end render

section dump

/-- A time is its seconds; none is the zero time. -/
structure PeerStats where
  publicKeyHex : GoString
  rxBytes : UInt64
  txBytes : UInt64
  lastHandshake : Option Int64
  endpoint : GoString
  allowedIPs : List GoString
  keepaliveSecs : Int64

/-- A peer of which only the key is known. -/
def PeerStats.fresh (publicKeyHex : GoString) : PeerStats := ⟨publicKeyHex, 0, 0, none, [], [], 0⟩

/-- An entry below the key of a peer, with its value as trimmed. -/
def PeerStats.entry (cur : PeerStats) (key : String) (value : GoString) : PeerStats :=
  match key with
  | "rx_bytes" => { cur with rxBytes := (GoDecode.parseUint (runes value)).getD 0 }
  | "tx_bytes" => { cur with txBytes := (GoDecode.parseUint (runes value)).getD 0 }
  | "last_handshake_time_sec" =>
    match GoDecode.parseInt (runes value) with
    | some sec => if 0 < sec then { cur with lastHandshake := some sec } else cur
    | none => cur
  | "endpoint" => { cur with endpoint := value }
  | "allowed_ip" => { cur with allowedIPs := cur.allowedIPs ++ [value] }
  | "persistent_keepalive_interval" =>
    match GoDecode.parseInt (runes value) with
    | some n => { cur with keepaliveSecs := n }
    | none => cur
  | _ => cur

structure Dump where
  out : List PeerStats
  cur : Option PeerStats

def Dump.flush (d : Dump) : List PeerStats := d.out ++ d.cur.toList

def Dump.entry (d : Dump) (key : String) (value : GoString) : Dump :=
  if key = "public_key" then ⟨d.flush, some (.fresh value)⟩
  else { d with cur := d.cur.map (·.entry key value) }

variable (lib : Library)

def Dump.line (d : Dump) (line : GoString) : Dump :=
  let line := trimSpace line
  if line = [] then d
  else
    match cut line '=' with
    | none => d
    -- every case trims the value
    | some (k, v) => d.entry (lib.toLower (runes (trimSpace k))) (trimSpace v)

def parseIPCDump (dump : GoString) : List PeerStats :=
  ((split dump '\n').foldl (Dump.line lib) ⟨[], none⟩).flush

end dump

section lines

def ipcLine (key : String) (value : GoString) : GoString := ofString (key ++ "=") ++ value

/-- The lines of a peer, by its fields. -/
def Peer.ipcLines (p : Peer) : List GoString :=
  [ipcLine "public_key" (hexOf p.publicKey)] ++
    (if trimSpace p.endpoint ≠ [] then [ipcLine "endpoint" (trimSpace p.endpoint)] else []) ++
    (sortStrings p.allowedIPs).map (ipcLine "allowed_ip") ++
    if 0 < p.keepalive then [ipcLine "persistent_keepalive_interval" (decimal p.keepalive)] else []

def Config.ipcLines (cfg : Config) : List GoString :=
  [ipcLine "private_key" (hexOf cfg.privateKey)] ++
    (if 0 < cfg.listenPort then [ipcLine "listen_port" (decimal cfg.listenPort)] else []) ++
    cfg.peers.flatMap Peer.ipcLines

/-- What is to be read back of a peer. -/
def Peer.stats (p : Peer) : PeerStats where
  publicKeyHex := hexOf p.publicKey
  rxBytes := 0
  txBytes := 0
  lastHandshake := none
  endpoint := trimSpace p.endpoint
  allowedIPs := sortStrings p.allowedIPs
  keepaliveSecs := p.keepalive

end lines

section written
variable {lib : Library}

theorem word_of_mem_sortStrings {ips : List GoString} (words : ∀ a ∈ ips, Word a) :
    ∀ a ∈ sortStrings ips, Word a :=
  fun a member => words a (List.mem_mergeSort.mp member)

theorem unlines_ipcLines {p : Peer} (accepted : p.Accepted) :
    unlines p.ipcLines = ofString "public_key=" ++ hexOf p.publicKey ++ ofString "\n" ++
      p.body := by
  have nothing : unlines [] = [] := rfl
  have ips : unlines ((sortStrings p.allowedIPs).map (ipcLine "allowed_ip")) =
      (sortStrings p.allowedIPs).flatMap fun a =>
        ofString "allowed_ip=" ++ trimSpace a ++ ofString "\n" := by
    rw [unlines, List.flatMap_map]
    apply List.flatMap_congr
    intro a member
    rw [(word_of_mem_sortStrings accepted.allowedIPs a member).trimmed, ipcLine]
    rfl
  simp only [Peer.ipcLines, Peer.body, unlines_append, nothing, ips, apply_ite unlines,
    unlines_singleton, ipcLine, String.reduceAppend, List.append_assoc]

theorem peersIPC_of_accepted {peers : List Peer} (accepted : ∀ p ∈ peers, p.Accepted) (i : ℕ) :
    peersIPC lib i peers = .ok (unlines (peers.flatMap Peer.ipcLines)) := by
  induction peers generalizing i with
  | nil => rfl
  | cons p rest ih =>
    have first := accepted p List.mem_cons_self
    have more := ih (fun q member => accepted q (List.mem_cons_of_mem p member)) (i + 1)
    rw [peersIPC, publicKeyHex_of_spells first.publicKey, more, List.flatMap_cons, unlines_append,
      unlines_ipcLines first]
    rfl

/-- `ToIPC` writes the lines of the fields one after the other. -/
theorem toIPC_of_validate {cfg : Config} (valid : validate lib cfg = .ok ()) :
    toIPC lib cfg = .ok (unlines cfg.ipcLines) := by
  have accepted := accepted_of_validate valid
  have nothing : unlines [] = [] := rfl
  have text : unlines cfg.ipcLines = ofString "private_key=" ++ hexOf cfg.privateKey ++
      ofString "\n" ++ (if 0 < cfg.listenPort then
        ofString "listen_port=" ++ decimal cfg.listenPort ++ ofString "\n" else []) ++
      unlines (cfg.peers.flatMap Peer.ipcLines) := by
    simp only [Config.ipcLines, unlines_append, nothing, apply_ite unlines, unlines_singleton,
      ipcLine, String.reduceAppend, List.append_assoc]
  rw [toIPC, valid, privateKeyHex_of_spells accepted.privateKey,
    peersIPC_of_accepted accepted.peers, text]
  rfl

end written

section read
variable {lib : Library}

theorem runes_decimal (n : Int64) : runes (decimal n) = toString n.toInt := runes_ofString _

theorem word_decimal {n : Int64} (positive : 0 < n) : Word (decimal n) := by
  obtain ⟨nonempty, digits⟩ := GoDecode.mem_of_parseInt (GoDecode.parseInt_toString positive)
  rw [← runes_decimal] at nonempty digits
  apply word_of_plain nonempty
  intro c member
  obtain digit | rfl | rfl := digits c member
  · exact GoDecode.plain_of_isDigit digit
  · rfl
  · rfl

theorem Dump.line_ipcLine (d : Dump) {key : String} (keyword : isKeyword key = true)
    (lower : GoText.toLower key = key) {value : GoString} (nonempty : value ≠ [])
    (trimmed : trimSpace value = value) : d.line lib (ipcLine key value) = d.entry key value := by
  have text : key ++ "" ++ "=" ++ "" = key ++ "=" := by simp
  obtain ⟨whole, k, v, found, keyText, valueText⟩ := cut_entry keyword (.inl rfl) nonempty trimmed
  rw [text] at whole found
  rw [Dump.line, ipcLine]
  simp only [whole, found]
  rw [if_neg (by simp [nonempty]), keyText, valueText, runes_ofString, lib.toLower_keyword keyword,
    lower]

theorem Dump.line_empty (d : Dump) : d.line lib [] = d := rfl

theorem foldl_allowedIPs {ips : List GoString} (words : ∀ a ∈ ips, Word a) (out : List PeerStats)
    (cur : PeerStats) :
    (ips.map (ipcLine "allowed_ip")).foldl (Dump.line lib) ⟨out, some cur⟩ =
      ⟨out, some { cur with allowedIPs := cur.allowedIPs ++ ips }⟩ := by
  induction ips generalizing cur with
  | nil => simp
  | cons a rest ih =>
    have word := words a List.mem_cons_self
    rw [List.map_cons, List.foldl_cons,
      Dump.line_ipcLine _ (by decide) (by decide) word.nonempty word.trimmed]
    have more := ih (fun b member => words b (List.mem_cons_of_mem a member))
      { cur with allowedIPs := cur.allowedIPs ++ [a] }
    refine Eq.trans more ?_
    simp

theorem foldl_endpoint {ep : GoString} (out : List PeerStats) (cur : PeerStats)
    (unset : cur.endpoint = []) :
    (if trimSpace ep ≠ [] then [ipcLine "endpoint" (trimSpace ep)] else []).foldl (Dump.line lib)
        ⟨out, some cur⟩ = ⟨out, some { cur with endpoint := trimSpace ep }⟩ := by
  split
  · next filled =>
    rw [List.foldl_cons, Dump.line_ipcLine _ (by decide) (by decide) filled
      (trimSpace_trimSpace ep)]
    rfl
  · next empty =>
    rw [not_not.mp empty, ← unset]
    rfl

theorem foldl_keepalive {n : Int64} (nonneg : 0 ≤ n) (out : List PeerStats) (cur : PeerStats)
    (unset : cur.keepaliveSecs = 0) :
    (if 0 < n then [ipcLine "persistent_keepalive_interval" (decimal n)] else []).foldl
      (Dump.line lib) ⟨out, some cur⟩ = ⟨out, some { cur with keepaliveSecs := n }⟩ := by
  split
  · next positive =>
    have word := word_decimal positive
    have read : cur.entry "persistent_keepalive_interval" (decimal n) =
        { cur with keepaliveSecs := n } := by
      simp only [PeerStats.entry, runes_decimal, GoDecode.parseInt_toString positive]
    rw [List.foldl_cons, Dump.line_ipcLine _ (by decide) (by decide) word.nonempty word.trimmed,
      List.foldl_nil]
    exact congrArg (fun stats => Dump.mk out (some stats)) read
  · next zero =>
    obtain rfl : n = 0 := Int64.le_antisymm (Int64.not_lt.mp zero) nonneg
    rw [← unset]
    rfl

/-- The lines of a peer close the peer before it and are read as the peer. -/
theorem foldl_ipcLines {p : Peer} (accepted : p.Accepted) (d : Dump) :
    p.ipcLines.foldl (Dump.line lib) d = ⟨d.flush, some p.stats⟩ := by
  have opened : [ipcLine "public_key" (hexOf p.publicKey)].foldl (Dump.line lib) d =
      ⟨d.flush, some (.fresh (hexOf p.publicKey))⟩ := by
    rw [List.foldl_cons, Dump.line_ipcLine d (by decide) (by decide)
      (hexOf_nonempty accepted.publicKey)
      (trimSpace_of_visible (isSpace_hexOf p.publicKey)), Dump.entry, if_pos rfl, List.foldl_nil]
  rw [Peer.ipcLines, List.foldl_append, List.foldl_append, List.foldl_append, opened,
    foldl_endpoint _ _ rfl, foldl_allowedIPs (word_of_mem_sortStrings accepted.allowedIPs),
    foldl_keepalive accepted.keepalive _ _ rfl]
  rfl

theorem flush_foldl_peers {peers : List Peer} (accepted : ∀ p ∈ peers, p.Accepted) (d : Dump) :
    ((peers.flatMap Peer.ipcLines).foldl (Dump.line lib) d).flush = d.flush ++
      peers.map Peer.stats := by
  induction peers generalizing d with
  | nil => simp
  | cons p rest ih =>
    rw [List.flatMap_cons, List.foldl_append, foldl_ipcLines (accepted p List.mem_cons_self),
      ih fun q member => accepted q (List.mem_cons_of_mem p member)]
    simp [Dump.flush]

theorem flush_foldl_ipcLines {cfg : Config} (accepted : cfg.Accepted) :
    (cfg.ipcLines.foldl (Dump.line lib) ⟨[], none⟩).flush = cfg.peers.map Peer.stats := by
  have key : [ipcLine "private_key" (hexOf cfg.privateKey)].foldl (Dump.line lib) ⟨[], none⟩ =
      ⟨[], none⟩ := by
    rw [List.foldl_cons, Dump.line_ipcLine _ (by decide) (by decide)
      (hexOf_nonempty accepted.privateKey)
      (trimSpace_of_visible (isSpace_hexOf cfg.privateKey)), Dump.entry, if_neg (by decide)]
    rfl
  have port : (if 0 < cfg.listenPort then [ipcLine "listen_port" (decimal cfg.listenPort)]
      else []).foldl (Dump.line lib) ⟨[], none⟩ = ⟨[], none⟩ := by
    split
    · next positive =>
      have word := word_decimal positive
      rw [List.foldl_cons, Dump.line_ipcLine _ (by decide) (by decide) word.nonempty word.trimmed]
      rfl
    · rfl
  rw [Config.ipcLines, List.foldl_append, List.foldl_append, key, port,
    flush_foldl_peers accepted.peers]
  rfl

end read

section newlines
variable {lib : Library}

theorem newline_ipcLine {key : String} (keyword : isKeyword key = true) {value : GoString}
    (free : .char '\n' ∉ value) : .char '\n' ∉ ipcLine key value := by
  have whole := newline_notMem_entry keyword (.inl rfl) free
  simpa [ipcLine] using whole

theorem newline_peer_ipcLines {p : Peer} (accepted : p.Accepted)
    (free : .char '\n' ∉ trimSpace p.endpoint) :
    ∀ line ∈ p.ipcLines, .char '\n' ∉ line := by
  intro line member
  simp only [Peer.ipcLines, List.mem_append, List.mem_singleton, List.mem_ite_nil_right,
    List.mem_map] at member
  obtain ((rfl | ⟨_, rfl⟩) | ⟨a, inIPs, rfl⟩) | ⟨positive, rfl⟩ := member
  · exact newline_ipcLine (by decide) (newline_notMem_of_visible (isSpace_hexOf _))
  · exact newline_ipcLine (by decide) free
  · have word := word_of_mem_sortStrings accepted.allowedIPs a inIPs
    exact newline_ipcLine (by decide) (newline_notMem_of_visible word.visible)
  · exact newline_ipcLine (by decide) (newline_notMem_of_visible (word_decimal positive).visible)

theorem newline_ipcLines {cfg : Config} (accepted : cfg.Accepted)
    (free : ∀ p ∈ cfg.peers, .char '\n' ∉ trimSpace p.endpoint) :
    ∀ line ∈ cfg.ipcLines, .char '\n' ∉ line := by
  intro line member
  simp only [Config.ipcLines, List.mem_append, List.mem_singleton, List.mem_ite_nil_right,
    List.mem_flatMap] at member
  obtain (rfl | ⟨positive, rfl⟩) | ⟨p, inPeers, inLines⟩ := member
  · exact newline_ipcLine (by decide) (newline_notMem_of_visible (isSpace_hexOf _))
  · exact newline_ipcLine (by decide) (newline_notMem_of_visible (word_decimal positive).visible)
  · exact newline_peer_ipcLines (accepted.peers p inPeers) (free p inPeers) line inLines

/-- No endpoint that was read has a line end in it. -/
def Dump.OneLined (d : Dump) : Prop := ∀ stats ∈ d.flush, .char '\n' ∉ stats.endpoint

theorem endpoint_entry (cur : PeerStats) (key : String) (value : GoString) :
    (cur.entry key value).endpoint = cur.endpoint ∨ (cur.entry key value).endpoint = value := by
  unfold PeerStats.entry
  split
  · exact .inl rfl
  · exact .inl rfl
  · split
    · split
      · exact .inl rfl
      · exact .inl rfl
    · exact .inl rfl
  · exact .inr rfl
  · exact .inl rfl
  · split
    · exact .inl rfl
    · exact .inl rfl
  · exact .inl rfl

theorem Dump.OneLined.entry {d : Dump} (before : d.OneLined) (key : String) {value : GoString}
    (free : .char '\n' ∉ value) : (d.entry key value).OneLined := by
  intro stats member
  rw [Dump.entry] at member
  split at member
  · obtain old | new := List.mem_append.mp member
    · exact before stats old
    · cases List.mem_singleton.mp new
      simp [PeerStats.fresh]
  · obtain old | new := List.mem_append.mp member
    · exact before stats (List.mem_append_left _ old)
    · obtain ⟨cur, here, rfl⟩ := Option.map_eq_some_iff.mp (Option.mem_toList.mp new)
      obtain kept | set := endpoint_entry cur key value
      · rw [kept]
        exact before cur (List.mem_append_right _ (Option.mem_toList.mpr here))
      · rw [set]
        exact free

theorem Dump.OneLined.line {d : Dump} (before : d.OneLined) {line : GoString}
    (free : .char '\n' ∉ line) : (d.line lib line).OneLined := by
  rw [Dump.line]
  split
  · exact before
  split
  · exact before
  · next k v found =>
    apply before.entry
    intro member
    exact free (mem_of_mem_trimSpace (mem_of_cut found (.inr (mem_of_mem_trimSpace member))))

theorem oneLined_parseIPCDump (dump : GoString) :
    ∀ stats ∈ parseIPCDump lib dump, .char '\n' ∉ stats.endpoint := by
  have start : Dump.OneLined ⟨[], none⟩ := fun stats member => (List.not_mem_nil member).elim
  exact List.foldlRecOn (motive := Dump.OneLined) (split dump '\n') (Dump.line lib) start
    fun d before line member => before.line (notMem_of_mem_split member)

end newlines

section shown
variable {lib : Library}

/-- A line as `Source.Tunnel` has it, spelled out. -/
def render : Tunnel.Line Key → GoString
  | .privateKey key => ipcLine "private_key" (keyHex key)
  | .listenPort port => ipcLine "listen_port" (ofString (toString port))
  | .publicKey key => ipcLine "public_key" (keyHex key)
  | .endpoint text => ipcLine "endpoint" (ofString text)
  | .allowedIP text => ipcLine "allowed_ip" (ofString text)
  | .keepalive seconds => ipcLine "persistent_keepalive_interval" (ofString (toString seconds))

theorem render_lines {p : Peer} (accepted : p.Accepted) (endpoint : IsText p.endpoint)
    (ips : ∀ a ∈ p.allowedIPs, IsText a) :
    ipcLine "public_key" (hexOf p.publicKey) :: p.shown.lines.map render = p.ipcLines := by
  have trimmed : IsText (trimSpace p.endpoint) :=
    fun x member => endpoint x (mem_of_mem_trimSpace member)
  have sorted : p.shown.allowedIPs.mergeSort (fun a b => decide (a ≤ b)) =
      (sortStrings p.allowedIPs).map runes := by
    apply Eq.symm
    apply List.map_mergeSort
    exact fun _ _ _ _ => rfl
  have allowed : (sortStrings p.allowedIPs).map
        (render ∘ (fun a => .allowedIP (GoText.trimSpace a)) ∘ runes) =
      (sortStrings p.allowedIPs).map (ipcLine "allowed_ip") := by
    apply List.map_congr_left
    intro a member
    have text := ips a (List.mem_mergeSort.mp member)
    have word := word_of_mem_sortStrings accepted.allowedIPs a member
    rw [Function.comp_apply, Function.comp_apply, ← runes_trimSpace, word.trimmed, render,
      text.ofString_runes]
  have seconds : 0 < p.shown.keepalive ↔ 0 < p.keepalive := by
    rw [Int64.lt_iff_toInt_lt]
    rfl
  have blank : GoText.trimSpace p.shown.endpoint = "" ↔ trimSpace p.endpoint = [] := by
    rw [← runes_eq_empty_iff, runes_trimSpace]
    rfl
  have named : render (.endpoint (GoText.trimSpace p.shown.endpoint)) =
      ipcLine "endpoint" (trimSpace p.endpoint) := by
    rw [← trimmed.ofString_runes, runes_trimSpace]
    rfl
  simp only [Tunnel.Peer.lines, Peer.ipcLines, List.map_append, apply_ite (List.map render), sorted,
    List.map_map, allowed, seconds, blank, List.map_cons, List.map_nil, named, ne_eq, ite_not,
    List.append_assoc, List.singleton_append]
  rfl

variable (lib) in
theorem render_peerLines {peers : List Peer} (accepted : ∀ p ∈ peers, p.Accepted)
    (text : ∀ p ∈ peers, IsText p.endpoint ∧ ∀ a ∈ p.allowedIPs, IsText a) (i : ℕ) :
    ∃ lines, Tunnel.peerLines (readers lib) i (peers.map Peer.shown) = .ok lines ∧
      lines.map render = peers.flatMap Peer.ipcLines := by
  induction peers generalizing i with
  | nil => exact ⟨[], rfl, rfl⟩
  | cons p rest ih =>
    have first := accepted p List.mem_cons_self
    obtain ⟨endpoint, ips⟩ := text p List.mem_cons_self
    obtain ⟨lines, written, same⟩ := ih (fun q member => accepted q (List.mem_cons_of_mem p member))
      (fun q member => text q (List.mem_cons_of_mem p member)) (i + 1)
    obtain ⟨key, decoded, hex⟩ := first.publicKey.decoded lib
    refine ⟨.publicKey key :: p.shown.lines ++ lines, ?_, ?_⟩
    · rw [List.map_cons, Tunnel.peerLines, Tunnel.publicKeyHex]
      rw [show p.shown.publicKey = runes p.publicKey from rfl, decoded, written]
      rfl
    · rw [List.map_append, List.map_cons, same, List.flatMap_cons,
        ← render_lines first endpoint ips, hex]
      rfl

/-- For a configuration without stray bytes the text is what `Source.Tunnel` writes line by line. -/
theorem toIPC_eq_render {cfg : Config} (valid : validate lib cfg = .ok ())
    (text : ∀ p ∈ cfg.peers, IsText p.endpoint ∧ ∀ a ∈ p.allowedIPs, IsText a) :
    ∃ lines, Tunnel.toIPC (readers lib) cfg.shown = .ok lines ∧
      toIPC lib cfg = .ok (unlines (lines.map render)) := by
  have accepted := accepted_of_validate valid
  obtain ⟨lines, written, same⟩ := render_peerLines lib accepted.peers text 0
  obtain ⟨key, decoded, hex⟩ := accepted.privateKey.decoded lib
  have port : 0 < cfg.shown.listenPort ↔ 0 < cfg.listenPort := by
    rw [Int64.lt_iff_toInt_lt]
    rfl
  refine ⟨.privateKey key :: (if 0 < cfg.shown.listenPort then [.listenPort cfg.shown.listenPort]
    else []) ++ lines, ?_, ?_⟩
  · rw [Tunnel.toIPC, show Tunnel.validate (readers lib) cfg.shown = .ok () from valid,
      Tunnel.privateKeyHex, show cfg.shown.privateKey = runes cfg.privateKey from rfl, decoded]
    rw [show cfg.shown.peers = cfg.peers.map Peer.shown from rfl, written]
    rfl
  · rw [toIPC_of_validate valid, Config.ipcLines, List.map_append, List.map_cons,
      apply_ite (List.map render), same, hex]
    simp only [port]
    rfl

end shown

end VeilNet.Source.Wireguard
