import VeilNet.Source.Wireguard.Ipc

/-!
The wg-quick file: `GenerateINI`, and `ParseINI`, a line parser with a current section. The
peer of the section is kept apart until the section ends; it is the last of `cfg.Peers`. Error
texts are left out.
-/
namespace VeilNet.Source.Wireguard
open Lib Lib.Outcome Lib.GoString

section generate

def Peer.ini (p : Peer) : GoString :=
  ofString "\n[Peer]\n" ++ (ofString "PublicKey = " ++ trimSpace p.publicKey ++ ofString "\n") ++
    (if trimSpace p.endpoint ≠ [] then
      ofString "Endpoint = " ++ trimSpace p.endpoint ++ ofString "\n" else []) ++
    (if p.allowedIPs ≠ [] then
      ofString "AllowedIPs = " ++ join p.allowedIPs ", " ++ ofString "\n" else []) ++
    if 0 < p.keepalive then
      ofString "PersistentKeepalive = " ++ decimal p.keepalive ++ ofString "\n" else []

def generateINI (cfg : Config) : GoString :=
  ofString "[Interface]\n" ++ (ofString "PrivateKey = " ++ trimSpace cfg.privateKey ++
    ofString "\n") ++ (if cfg.addresses ≠ [] then
      ofString "Address = " ++ join cfg.addresses ", " ++ ofString "\n" else []) ++
    (if cfg.dns ≠ [] then ofString "DNS = " ++ join cfg.dns ", " ++ ofString "\n" else []) ++
    (if 0 < cfg.listenPort then
      ofString "ListenPort = " ++ decimal cfg.listenPort ++ ofString "\n" else []) ++
    (if 0 < cfg.mtu then ofString "MTU = " ++ decimal cfg.mtu ++ ofString "\n" else []) ++
    cfg.peers.flatMap Peer.ini

end generate

section parse

inductive IniError where
  | badListenPort (value : GoString)
  | badMTU (value : GoString)
  | badPersistentKeepalive (value : GoString)
  | missingPrivateKey
  deriving DecidableEq

def splitList (v : GoString) : List GoString := ((split v ',').map trimSpace).filter (· ≠ [])

/-- `strconv.Atoi`, with the error for a value that is no number. -/
def number (v : GoString) (err : GoString → IniError) : Except IniError Int64 :=
  match GoDecode.parseInt (runes v) with
  | none => .error (err v)
  | some n => .ok n

def Config.entry (cfg : Config) (key : String) (v : GoString) : Except IniError Config :=
  match key with
  | "privatekey" => .ok { cfg with privateKey := v }
  | "address" => .ok { cfg with addresses := cfg.addresses ++ splitList v }
  | "dns" => .ok { cfg with dns := cfg.dns ++ splitList v }
  | "listenport" => (number v .badListenPort).map fun n => { cfg with listenPort := n }
  | "mtu" => (number v .badMTU).map fun n => { cfg with mtu := n }
  | _ => .ok cfg

def Peer.entry (p : Peer) (key : String) (v : GoString) : Except IniError Peer :=
  match key with
  | "publickey" => .ok { p with publicKey := v }
  | "endpoint" => .ok { p with endpoint := v }
  | "allowedips" => .ok { p with allowedIPs := p.allowedIPs ++ splitList v }
  | "persistentkeepalive" =>
    (number v .badPersistentKeepalive).map fun n => { p with keepalive := n }
  | _ => .ok p

def Peer.empty : Peer := ⟨[], [], [], 0⟩

def Config.empty : Config := ⟨[], 0, [], [], [], 0⟩

structure Ini where
  cfg : Config
  cur : Option Peer

/-- The configuration with the current peer in its place. -/
def Ini.close (s : Ini) : Config := { s.cfg with peers := s.cfg.peers ++ s.cur.toList }

def Ini.open (s : Ini) (name : String) : Ini :=
  match name with
  | "interface" => ⟨s.close, none⟩
  | "peer" => ⟨s.close, some .empty⟩
  | _ => ⟨s.close, none⟩

def Ini.entry (s : Ini) (key : String) (v : GoString) : Except IniError Ini :=
  match s.cur with
  | none => (s.cfg.entry key v).map fun cfg => ⟨cfg, none⟩
  | some p => (p.entry key v).map fun p => ⟨s.cfg, some p⟩

variable (lib : Library)

def Ini.line (s : Ini) (line : GoString) : Except IniError Ini :=
  let line := trimSpace line
  if line = [] ∨ line.head? = some (.char '#') ∨ line.head? = some (.char ';') then .ok s
  else if line.head? = some (.char '[') ∧ line.getLast? = some (.char ']') then
    .ok (s.open (lib.toLower (runes (trimSpace (line.drop 1).dropLast))))
  else
    match cut line '=' with
    | none => .ok s
    | some (k, v) => s.entry (lib.toLower (runes (trimSpace k))) (trimSpace v)

def parseINI (s : GoString) : Except IniError Config := do
  let ini ← (split s '\n').foldlM (Ini.line lib) ⟨.empty, none⟩
  if trimSpace ini.close.privateKey = [] then .error .missingPrivateKey else .ok ini.close

end parse

section lines

def iniLine (key : String) (value : GoString) : GoString :=
  ofString (key ++ " " ++ "=" ++ " ") ++ value

def Peer.iniLines (p : Peer) : List GoString :=
  [[], ofString "[Peer]"] ++ [iniLine "PublicKey" (trimSpace p.publicKey)] ++
    (if trimSpace p.endpoint ≠ [] then [iniLine "Endpoint" (trimSpace p.endpoint)] else []) ++
    (if p.allowedIPs ≠ [] then [iniLine "AllowedIPs" (join p.allowedIPs ", ")] else []) ++
    if 0 < p.keepalive then [iniLine "PersistentKeepalive" (decimal p.keepalive)] else []

def Config.iniLines (cfg : Config) : List GoString :=
  [ofString "[Interface]"] ++ [iniLine "PrivateKey" (trimSpace cfg.privateKey)] ++
    (if cfg.addresses ≠ [] then [iniLine "Address" (join cfg.addresses ", ")] else []) ++
    (if cfg.dns ≠ [] then [iniLine "DNS" (join cfg.dns ", ")] else []) ++
    (if 0 < cfg.listenPort then [iniLine "ListenPort" (decimal cfg.listenPort)] else []) ++
    (if 0 < cfg.mtu then [iniLine "MTU" (decimal cfg.mtu)] else []) ++
    cfg.peers.flatMap Peer.iniLines

theorem unlines_peer_iniLines (p : Peer) : unlines p.iniLines = p.ini := by
  have heading : unlines [[], ofString "[Peer]"] = ofString "\n[Peer]\n" := rfl
  have nothing : unlines [] = [] := rfl
  simp only [Peer.iniLines, Peer.ini, unlines_append, heading, nothing, apply_ite unlines,
    unlines_singleton, iniLine, String.reduceAppend, List.append_assoc]

/-- `GenerateINI` writes the lines of the fields one after the other. -/
theorem generateINI_eq (cfg : Config) : generateINI cfg = unlines cfg.iniLines := by
  have heading : unlines [ofString "[Interface]"] = ofString "[Interface]\n" := rfl
  have nothing : unlines [] = [] := rfl
  have peers : unlines (cfg.peers.flatMap Peer.iniLines) = cfg.peers.flatMap Peer.ini := by
    rw [unlines, List.flatMap_assoc]
    exact List.flatMap_congr fun p _ => unlines_peer_iniLines p
  simp only [Config.iniLines, generateINI, unlines_append, heading, nothing, apply_ite unlines,
    unlines_singleton, peers, iniLine, String.reduceAppend, List.append_assoc]

/-- What is to be read back. -/
def Peer.normal (p : Peer) : Peer :=
  { p with publicKey := trimSpace p.publicKey, endpoint := trimSpace p.endpoint }

def Config.normal (cfg : Config) : Config :=
  { cfg with
    privateKey := trimSpace cfg.privateKey
    mtu := if 0 < cfg.mtu then cfg.mtu else 0
    peers := cfg.peers.map Peer.normal }

end lines

section lists

theorem splitList_comma {w : GoString} (word : Word w) (s : GoString) :
    splitList (w ++ .char ',' :: s) = w :: splitList s := by
  rw [splitList, split, List.splitOn_append_cons_self_of_not_mem word.single, List.map_cons,
    word.trimmed, List.filter_cons_of_pos (by simp [word.nonempty])]
  rfl

theorem splitList_blank (s : GoString) : splitList (.char ' ' :: s) = splitList s := by
  obtain ⟨first, rest, pieces, grown⟩ := split_cons (show Sym.char ' ' ≠ .char ',' by decide) s
  rw [splitList, grown, splitList, pieces, List.map_cons, List.map_cons, trimSpace_cons_space rfl]

theorem join_cons_cons (a b : GoString) (rest : List GoString) :
    join (a :: b :: rest) ", " = (a ++ ofString ", ") ++ join (b :: rest) ", " := by
  simp [join, List.intercalate]

theorem splitList_join {items : List GoString} (words : ∀ a ∈ items, Word a) :
    splitList (join items ", ") = items := by
  induction items with
  | nil => rfl
  | cons a rest ih =>
    have word := words a List.mem_cons_self
    cases rest with
    | nil =>
      rw [join, List.intercalate_singleton, splitList, split, List.splitOn_eq_singleton word.single]
      simp [word.trimmed, word.nonempty]
    | cons b more =>
      have later := ih fun c member => words c (List.mem_cons_of_mem a member)
      have comma : ofString ", " = [.char ',', .char ' '] := rfl
      rw [join_cons_cons, comma, List.append_assoc, List.cons_append, List.cons_append,
        List.nil_append, splitList_comma word, splitList_blank, later]

theorem trimSpace_join {items : List GoString} (some : items ≠ []) (words : ∀ a ∈ items, Word a) :
    join items ", " ≠ [] ∧ trimSpace (join items ", ") = join items ", " ∧
      .char '\n' ∉ join items ", " := by
  induction items with
  | nil => exact absurd rfl some
  | cons a rest ih =>
    have word := words a List.mem_cons_self
    cases rest with
    | nil =>
      rw [join, List.intercalate_singleton]
      exact ⟨word.nonempty, word.trimmed, newline_notMem_of_visible word.visible⟩
    | cons b more =>
      obtain ⟨nonempty, trimmed, oneLined⟩ :=
        ih (List.cons_ne_nil b more) fun c member => words c (List.mem_cons_of_mem a member)
      obtain ⟨x, tail, rfl⟩ := List.exists_cons_of_ne_nil word.nonempty
      rw [join_cons_cons]
      refine ⟨by simp, ?_, ?_⟩
      · exact trimSpace_append (x := x) rfl (word.visible x List.mem_cons_self) nonempty trimmed
      · simp only [List.mem_append, not_or]
        exact ⟨⟨newline_notMem_of_visible word.visible, by decide⟩, oneLined⟩

end lists

section read
variable {lib : Library}

variable {key : String}

theorem Ini.line_iniLine (s : Ini) (keyword : isKeyword key = true) {value : GoString}
    (nonempty : value ≠ []) (trimmed : trimSpace value = value) :
    s.line lib (iniLine key value) = s.entry (GoText.toLower key) value := by
  obtain ⟨whole, k, v, found, keyText, valueText⟩ := cut_entry keyword (.inr rfl) nonempty trimmed
  obtain ⟨c, rest, chars⟩ := exists_cons_of_isKeyword keyword
  have range := char_of_isKeyword keyword (chars ▸ List.mem_cons_self)
  have head : (iniLine key value).head? = some (.char c) := by
    simp [iniLine, ofString, chars]
  have other : ∀ mark : Char, mark.toNat < 65 ∨ mark = '[' →
      ¬ some (Sym.char c) = some (.char mark) := by
    intro mark low same
    cases same
    have bracket : '['.toNat = 91 := rfl
    obtain low | rfl := low
    · omega
    · omega
  rw [← iniLine] at whole found
  rw [Ini.line]
  simp only [whole, found, head]
  rw [if_neg, if_neg, keyText, valueText, runes_ofString, lib.toLower_keyword keyword]
  · exact fun bracket => other '[' (.inr rfl) bracket.1
  · rintro (empty | hash | semicolon)
    · simp [iniLine, nonempty] at empty
    · exact other '#' (.inl (by decide)) hash
    · exact other ';' (.inl (by decide)) semicolon

theorem Ini.line_empty (s : Ini) : s.line lib [] = .ok s := rfl

theorem foldlM_optional {P : Prop} [Decidable P] (keyword : isKeyword key = true)
    {value : GoString} (written : P → value ≠ [] ∧ trimSpace value = value) {s t : Ini}
    (set : P → s.entry (GoText.toLower key) value = .ok t) (unset : ¬ P → s = t) :
    (if P then [iniLine key value] else []).foldlM (Ini.line lib) s = .ok t := by
  split
  · next present =>
    obtain ⟨nonempty, trimmed⟩ := written present
    rw [List.foldlM_cons, Ini.line_iniLine s keyword nonempty trimmed, set present]
    rfl
  · next absent =>
    rw [unset absent]
    rfl

theorem foldlM_list (key : String) (keyword : isKeyword key = true) {items : List GoString}
    (words : ∀ a ∈ items, Word a) (put : List GoString → Ini)
    (set : ∀ v, (put []).entry (GoText.toLower key) v = .ok (put (splitList v))) :
    (if items ≠ [] then [iniLine key (join items ", ")] else []).foldlM (Ini.line lib) (put []) =
      .ok (put items) := by
  apply foldlM_optional keyword
  · intro some
    obtain ⟨nonempty, trimmed, _⟩ := trimSpace_join some words
    exact ⟨nonempty, trimmed⟩
  · exact fun _ => by rw [set, splitList_join words]
  · exact fun empty => by rw [not_not.mp empty]

theorem foldlM_number {γ : Type} (key : String) (keyword : isKeyword key = true) {n : Int64}
    (f : Int64 → γ) (g : γ → Ini) (err : GoString → IniError)
    (set : ∀ v, (g (f 0)).entry (GoText.toLower key) v = ((number v err).map f).map g) :
    (if 0 < n then [iniLine key (decimal n)] else []).foldlM (Ini.line lib) (g (f 0)) =
      .ok (g (f (if 0 < n then n else 0))) := by
  apply foldlM_optional keyword
  · intro positive
    have word := word_decimal positive
    exact ⟨word.nonempty, word.trimmed⟩
  · intro positive
    rw [set, number, runes_decimal, GoDecode.parseInt_toString positive, if_pos positive]
    rfl
  · exact fun zero => by rw [if_neg zero]

theorem ite_pos_of_nonneg {n : Int64} (nonneg : 0 ≤ n) : (if 0 < n then n else 0) = n :=
  ite_eq_left_iff.mpr fun zero => Int64.le_antisymm nonneg (Int64.not_lt.mp zero)

theorem Ini.line_heading (s : Ini) {line : GoString} {name : String}
    (trimmed : trimSpace line = line)
    (start : line.head? = some (.char '[')) (stop : line.getLast? = some (.char ']'))
    (inside : runes (trimSpace (line.drop 1).dropLast) = name) (keyword : isKeyword name = true) :
    s.line lib line = .ok (s.open (GoText.toLower name)) := by
  have some : line ≠ [] := by
    rintro rfl
    cases start
  rw [Ini.line]
  simp only [trimmed, start, stop, inside, lib.toLower_keyword keyword]
  rw [if_neg (by simp [some]), if_pos ⟨trivial, trivial⟩]

theorem foldlM_endpoint (cfg : Config) (p : Peer) {ep : GoString} (unset : p.endpoint = []) :
    (if trimSpace ep ≠ [] then [iniLine "Endpoint" (trimSpace ep)] else []).foldlM (Ini.line lib)
      ⟨cfg, some p⟩ = .ok ⟨cfg, some { p with endpoint := trimSpace ep }⟩ := by
  apply foldlM_optional (by decide)
  · exact fun filled => ⟨filled, trimSpace_trimSpace ep⟩
  · exact fun _ => rfl
  · exact fun empty => by rw [not_not.mp empty, ← unset]

/-- The lines of a peer are read as the peer, and end the section before. -/
theorem foldlM_peer {p : Peer} (accepted : p.Accepted) (s : Ini) :
    p.iniLines.foldlM (Ini.line lib) s = .ok ⟨s.close, some p.normal⟩ := by
  have opens : s.line lib (ofString "[Peer]") = .ok (s.open (GoText.toLower "Peer")) :=
    s.line_heading (by decide) (by decide) (by decide) (by decide) (by decide)
  have heading : [[], ofString "[Peer]"].foldlM (Ini.line lib) s = .ok ⟨s.close, some .empty⟩ := by
    rw [List.foldlM_cons, Ini.line_empty]
    exact opens
  have key : [iniLine "PublicKey" (trimSpace p.publicKey)].foldlM (Ini.line lib)
      ⟨s.close, some .empty⟩ =
      .ok ⟨s.close, some { Peer.empty with publicKey := trimSpace p.publicKey }⟩ := by
    rw [List.foldlM_cons, Ini.line_iniLine _ (by decide) accepted.publicKey.nonempty
      (trimSpace_trimSpace _)]
    rfl
  rw [Peer.iniLines]
  simp only [List.append_assoc]
  rw [foldlM_append_ok heading, foldlM_append_ok key, foldlM_append_ok (foldlM_endpoint _ _ rfl)]
  refine (foldlM_append_ok (foldlM_list "AllowedIPs" (by decide) accepted.allowedIPs
    (fun ips => ⟨s.close, some { p.normal with allowedIPs := ips, keepalive := 0 }⟩) fun _ => rfl)
    _).trans ?_
  refine (foldlM_number "PersistentKeepalive" (by decide)
    (fun n => { p.normal with keepalive := n })
    (⟨s.close, some ·⟩) .badPersistentKeepalive fun _ => rfl).trans ?_
  rw [ite_pos_of_nonneg accepted.keepalive]
  rfl

/-- The interface section is read as the fields above the peers. -/
theorem foldlM_interface {cfg : Config} (accepted : cfg.Accepted) :
    cfg.iniLines.foldlM (Ini.line lib) ⟨.empty, none⟩ =
      (cfg.peers.flatMap Peer.iniLines).foldlM (Ini.line lib)
        ⟨{ cfg.normal with peers := [] }, none⟩ := by
  have opens : Ini.line lib ⟨.empty, none⟩ (ofString "[Interface]") =
      .ok (Ini.open ⟨.empty, none⟩ (GoText.toLower "Interface")) :=
    Ini.line_heading _ (by decide) (by decide) (by decide) (by decide) (by decide)
  have heading : [ofString "[Interface]"].foldlM (Ini.line lib) ⟨.empty, none⟩ =
      .ok ⟨.empty, none⟩ := opens
  have key : [iniLine "PrivateKey" (trimSpace cfg.privateKey)].foldlM (Ini.line lib)
      ⟨.empty, none⟩ =
      .ok ⟨{ Config.empty with privateKey := trimSpace cfg.privateKey }, none⟩ := by
    rw [List.foldlM_cons, Ini.line_iniLine _ (by decide) accepted.privateKey.nonempty
      (trimSpace_trimSpace _)]
    rfl
  rw [Config.iniLines]
  simp only [List.append_assoc]
  rw [foldlM_append_ok heading, foldlM_append_ok key]
  refine (foldlM_append_ok (foldlM_list "Address" (by decide) accepted.addresses
    (fun items => ⟨{ Config.empty with privateKey := cfg.normal.privateKey, addresses := items },
      none⟩) fun _ => rfl) _).trans ?_
  refine (foldlM_append_ok (foldlM_list "DNS" (by decide) accepted.dns
    (fun items => ⟨{ cfg.normal with dns := items, listenPort := 0, mtu := 0, peers := [] }, none⟩)
    fun _ => rfl) _).trans ?_
  refine (foldlM_append_ok (foldlM_number "ListenPort" (by decide)
    (fun n => { cfg.normal with listenPort := n, mtu := 0, peers := [] }) (⟨·, none⟩) .badListenPort
    fun _ => rfl) _).trans ?_
  rw [ite_pos_of_nonneg accepted.listenPort]
  exact foldlM_append_ok (foldlM_number "MTU" (by decide)
    (fun n => { cfg.normal with mtu := n, peers := [] }) (⟨·, none⟩) .badMTU fun _ => rfl) _

theorem foldlM_peers {peers : List Peer} (accepted : ∀ p ∈ peers, p.Accepted) (s : Ini) :
    ∃ t, (peers.flatMap Peer.iniLines).foldlM (Ini.line lib) s = .ok t ∧
      t.close = { s.close with peers := s.close.peers ++ peers.map Peer.normal } := by
  induction peers generalizing s with
  | nil => exact ⟨s, rfl, by simp⟩
  | cons p rest ih =>
    have first : p.iniLines.foldlM (Ini.line lib) s = _ :=
      foldlM_peer (accepted p List.mem_cons_self) s
    obtain ⟨t, passed, closed⟩ := ih (fun q member => accepted q (List.mem_cons_of_mem p member))
      ⟨s.close, some p.normal⟩
    refine ⟨t, ?_, ?_⟩
    · rw [List.flatMap_cons, foldlM_append_ok first, passed]
    · rw [closed]
      simp [Ini.close]

variable (lib) in
/-- The lines of the fields are read back as the configuration. -/
theorem foldlM_iniLines {cfg : Config} (accepted : cfg.Accepted) :
    ∃ t, cfg.iniLines.foldlM (Ini.line lib) ⟨.empty, none⟩ = .ok t ∧ t.close = cfg.normal := by
  rw [foldlM_interface accepted]
  obtain ⟨t, passed, closed⟩ := foldlM_peers accepted.peers ⟨{ cfg.normal with peers := [] }, none⟩
  refine ⟨t, passed, ?_⟩
  rw [closed]
  rfl

end read

section newlines
variable {lib : Library}

variable {key : String}

theorem newline_iniLine (keyword : isKeyword key = true) {value : GoString}
    (free : .char '\n' ∉ value) : .char '\n' ∉ iniLine key value :=
  newline_notMem_entry keyword (.inr rfl) free

/-- The texts that a file keeps on one line each. -/
structure Peer.OneLined (p : Peer) : Prop where
  publicKey : .char '\n' ∉ p.publicKey
  endpoint : .char '\n' ∉ p.endpoint

structure Config.OneLined (cfg : Config) : Prop where
  privateKey : .char '\n' ∉ cfg.privateKey
  peers : ∀ p ∈ cfg.peers, p.OneLined

theorem newline_peer_iniLines {p : Peer} (accepted : p.Accepted) (oneLined : p.normal.OneLined) :
    ∀ line ∈ p.iniLines, .char '\n' ∉ line := by
  intro line member
  simp only [Peer.iniLines, List.mem_append, List.mem_cons, List.not_mem_nil, or_false,
    List.mem_ite_nil_right] at member
  obtain ((((rfl | rfl) | rfl) | ⟨_, rfl⟩) | ⟨some, rfl⟩) | ⟨positive, rfl⟩ := member
  · exact List.not_mem_nil
  · decide
  · exact newline_iniLine (by decide) oneLined.publicKey
  · exact newline_iniLine (by decide) oneLined.endpoint
  · exact newline_iniLine (by decide) (trimSpace_join some accepted.allowedIPs).2.2
  · exact newline_iniLine (by decide) (newline_notMem_of_visible (word_decimal positive).visible)

variable {cfg : Config}

/-- Only a key or an endpoint can bring a line end into the lines. -/
theorem newline_iniLines (accepted : cfg.Accepted) (oneLined : cfg.normal.OneLined) :
    ∀ line ∈ cfg.iniLines, .char '\n' ∉ line := by
  intro line member
  simp only [Config.iniLines, List.mem_append, List.mem_cons, List.not_mem_nil, or_false,
    List.mem_ite_nil_right, List.mem_flatMap] at member
  obtain (((((rfl | rfl) | ⟨some, rfl⟩) | ⟨some, rfl⟩) | ⟨positive, rfl⟩) | ⟨positive, rfl⟩) |
    ⟨p, inPeers, inLines⟩ := member
  · decide
  · exact newline_iniLine (by decide) oneLined.privateKey
  · exact newline_iniLine (by decide) (trimSpace_join some accepted.addresses).2.2
  · exact newline_iniLine (by decide) (trimSpace_join some accepted.dns).2.2
  · exact newline_iniLine (by decide) (newline_notMem_of_visible (word_decimal positive).visible)
  · exact newline_iniLine (by decide) (newline_notMem_of_visible (word_decimal positive).visible)
  · exact newline_peer_iniLines (accepted.peers p inPeers)
      (oneLined.peers p.normal (List.mem_map_of_mem inPeers)) line inLines

variable {v : GoString}

theorem Peer.OneLined.entry {p q : Peer} (before : p.OneLined)
    (free : .char '\n' ∉ v) (set : p.entry key v = .ok q) : q.OneLined := by
  unfold Peer.entry at set
  split at set
  · cases set
    exact ⟨free, before.endpoint⟩
  · cases set
    exact ⟨before.publicKey, free⟩
  · cases set
    exact ⟨before.publicKey, before.endpoint⟩
  · obtain ⟨n, _, rfl⟩ := of_map_ok set
    exact ⟨before.publicKey, before.endpoint⟩
  · cases set
    exact before

theorem Config.OneLined.entry {cfg' : Config} (before : cfg.OneLined)
    (free : .char '\n' ∉ v) (set : cfg.entry key v = .ok cfg') : cfg'.OneLined := by
  unfold Config.entry at set
  split at set
  · cases set
    exact ⟨free, before.peers⟩
  · cases set
    exact ⟨before.privateKey, before.peers⟩
  · cases set
    exact ⟨before.privateKey, before.peers⟩
  · obtain ⟨n, _, rfl⟩ := of_map_ok set
    exact ⟨before.privateKey, before.peers⟩
  · obtain ⟨n, _, rfl⟩ := of_map_ok set
    exact ⟨before.privateKey, before.peers⟩
  · cases set
    exact before

/-- The same for a parser in the middle of a file. -/
structure Ini.OneLined (s : Ini) : Prop where
  cfg : s.cfg.OneLined
  cur : ∀ p ∈ s.cur, p.OneLined

variable {s : Ini}

theorem Ini.OneLined.close (held : s.OneLined) : s.close.OneLined := by
  refine ⟨held.cfg.privateKey, ?_⟩
  intro p member
  obtain done | current := List.mem_append.mp member
  · exact held.cfg.peers p done
  · exact held.cur p (Option.mem_toList.mp current)

theorem Ini.OneLined.open (held : s.OneLined) (name : String) : (s.open name).OneLined := by
  unfold Ini.open
  split
  · exact ⟨held.close, by simp⟩
  · refine ⟨held.close, ?_⟩
    intro p member
    cases member
    exact ⟨List.not_mem_nil, List.not_mem_nil⟩
  · exact ⟨held.close, by simp⟩

theorem Ini.OneLined.entry {t : Ini} (held : s.OneLined)
    (free : .char '\n' ∉ v) (set : s.entry key v = .ok t) : t.OneLined := by
  unfold Ini.entry at set
  split at set
  · obtain ⟨cfg, changed, rfl⟩ := of_map_ok set
    exact ⟨held.cfg.entry free changed, by simp⟩
  · next p here =>
    obtain ⟨q, changed, rfl⟩ := of_map_ok set
    refine ⟨held.cfg, ?_⟩
    intro r member
    cases member
    exact (held.cur p here).entry free changed

theorem Ini.OneLined.line {t : Ini} (held : s.OneLined) {line : GoString} (free : .char '\n' ∉ line)
    (read : s.line lib line = .ok t) : t.OneLined := by
  rw [Ini.line] at read
  split at read
  · cases read
    exact held
  split at read
  · cases read
    exact held.open _
  split at read
  · cases read
    exact held
  · next k v found =>
    apply held.entry _ read
    intro member
    exact free (mem_of_mem_trimSpace (mem_of_cut found (.inr (mem_of_mem_trimSpace member))))

/-- What is read from a file has no line ends in its keys and endpoints. -/
theorem oneLined_parseINI {s : GoString} (read : parseINI lib s = .ok cfg) : cfg.OneLined := by
  obtain ⟨ini, passed, read⟩ := of_bind_ok read
  have start : Ini.OneLined ⟨.empty, none⟩ :=
    ⟨⟨by simp [Config.empty], by simp [Config.empty]⟩, by simp⟩
  have held := foldlM_invariant (fun line member _ _ before step =>
    before.line (notMem_of_mem_split member) step) start passed
  split at read
  · cases read
  · cases read
    exact held.close

end newlines

end VeilNet.Source.Wireguard
