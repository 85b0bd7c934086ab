import VeilNet.Source.Tunnel.Device

/-!
What a configuration asks for, read off its texts once, and what the data planes do with it: both
take up the requests one after the other, the kernel device after it is cleared.
-/
namespace VeilNet.Source.Tunnel
open Lib Lib.Outcome

/-- What a configuration asks for of one peer. -/
structure Requested (Key Addr Net : Type) where
  key : Key
  endpoint : Option Addr
  nets : List Net
  keepalive : Int
  deriving DecidableEq

/-- No prefix has blanks around it, a key read with blanks around it is the key without them, a
literal endpoint is resolved to the address it spells, and a text of blanks alone is not
resolved (the empty text is). -/
structure Parsers.Lawful {Key Addr Net : Type} (x : Parsers Key Addr Net) : Prop where
  prefix_plain : ∀ text net, x.parsePrefix text = .ok net → GoText.trimSpace text = text
  key_trim : ∀ text key, x.decodeKey text = .ok key → x.decodeKey (GoText.trimSpace text) = .ok key
  resolve_literal : ∀ text addr literal, x.resolveUDPAddr text = .ok addr →
    x.parseEndpoint (GoText.trimSpace text) = some literal → addr = literal
  resolve_blank : ∀ text addr, text ≠ "" → x.resolveUDPAddr text = .ok addr →
    GoText.trimSpace text ≠ ""

/-- The request as `kernelConfig` hands it over. -/
def Requested.config {Key Addr Net : Type} (r : Requested Key Addr Net) : PeerConfig Key Addr Net :=
  ⟨r.key, true, r.endpoint, r.nets, if 0 < r.keepalive then some r.keepalive else none⟩

section requested
variable {Key Addr Net : Type} (x : Parsers Key Addr Net)

def readNets (texts : List String) : List Net :=
  texts.filterMap fun text => (x.parsePrefix text).toOption

/-- No endpoint, or the address that the text spells. -/
def requestedEndpoint (text : String) : Option (Option Addr) :=
  if GoText.trimSpace text = "" then some none
  else (x.parseEndpoint (GoText.trimSpace text)).map some

/-- What a peer of the configuration asks for; none if its key or its endpoint is not
readable. -/
def requestedPeer (p : Peer) : Option (Requested Key Addr Net) := do
  let key ← (x.decodeKey (GoText.trimSpace p.publicKey)).toOption
  let endpoint ← requestedEndpoint x p.endpoint
  pure ⟨key, endpoint, readNets x p.allowedIPs, p.keepalive⟩

def requested (cfg : WireGuardConfig) : List (Requested Key Addr Net) :=
  cfg.peers.filterMap (requestedPeer x)

/-- The texts of a peer are readable. -/
structure Readable (p : Peer) : Prop where
  asks : (requestedPeer x p).isSome
  keepalive : 0 ≤ p.keepalive
  nets : ∀ text ∈ p.allowedIPs, ∃ net, x.parsePrefix text = .ok net

/-- Every endpoint is a literal address. -/
def Literal (cfg : WireGuardConfig) : Prop :=
  ∀ p ∈ cfg.peers, GoText.trimSpace p.endpoint ≠ "" →
    (x.parseEndpoint (GoText.trimSpace p.endpoint)).isSome

/-- `requestedEndpoint` by its cases. -/
inductive Names : String → Option Addr → Prop where
  | blank {text : String} (empty : GoText.trimSpace text = "") : Names text none
  | literal {text : String} {addr : Addr} (filled : GoText.trimSpace text ≠ "")
      (read : x.parseEndpoint (GoText.trimSpace text) = some addr) : Names text (some addr)

variable {x}

theorem of_requestedPeer {p : Peer} {r : Requested Key Addr Net}
    (asks : requestedPeer x p = some r) :
    x.decodeKey (GoText.trimSpace p.publicKey) = .ok r.key ∧ Names x p.endpoint r.endpoint ∧
      r.nets = readNets x p.allowedIPs ∧ r.keepalive = p.keepalive := by
  obtain ⟨key, decoded, asks⟩ := Option.bind_eq_some_iff.mp asks
  obtain ⟨endpoint, named, asks⟩ := Option.bind_eq_some_iff.mp asks
  cases asks
  refine ⟨of_toOption decoded, ?_, rfl, rfl⟩
  unfold requestedEndpoint at named
  split at named
  · next empty =>
    cases named
    exact .blank empty
  · next filled =>
    obtain ⟨addr, read, rfl⟩ := Option.map_eq_some_iff.mp named
    exact .literal filled read

variable {position : ℕ} {texts : List String}

theorem readable_of_checkAllowedIPs (checked : checkAllowedIPs x position texts = .ok ()) :
    ∀ text ∈ texts, ∃ net, x.parsePrefix text = .ok net := by
  refine forall_of_checks (fun text rest checked => ?_) checked
  obtain ⟨net, read, checked⟩ := of_bind_ok checked
  exact ⟨⟨net, of_mapError_ok read⟩, checked⟩

variable {peers : List Peer}

theorem of_checkPeers (checked : checkPeers x position peers = .ok ()) :
    ∀ p ∈ peers, (∃ key, x.decodeKey (GoText.trimSpace p.publicKey) = .ok key) ∧
      (∀ text ∈ p.allowedIPs, ∃ net, x.parsePrefix text = .ok net) ∧ 0 ≤ p.keepalive := by
  induction peers generalizing position with
  | nil => exact fun p member => (List.not_mem_nil member).elim
  | cons head rest ih =>
    obtain ⟨key, decoded, checked⟩ := of_bind_ok checked
    obtain ⟨_, _, checked⟩ := of_bind_ok checked
    obtain ⟨_, allowed, checked⟩ := of_bind_ok checked
    obtain ⟨_, keepalive, checked⟩ := of_bind_ok checked
    intro p member
    rcases List.mem_cons.mp member with rfl | later
    · exact ⟨⟨key, of_mapError_ok decoded⟩, readable_of_checkAllowedIPs allowed,
        Int.not_lt.mp (of_refuseIf_ok keepalive)⟩
    · exact ih checked p later

/-- A valid configuration with literal endpoints asks for each of its peers. -/
theorem readable_of_checkPeers (checked : checkPeers x position peers = .ok ())
    (literal : ∀ p ∈ peers, GoText.trimSpace p.endpoint ≠ "" →
      (x.parseEndpoint (GoText.trimSpace p.endpoint)).isSome) :
    ∀ p ∈ peers, Readable x p := by
  intro p member
  obtain ⟨⟨key, read⟩, allowed, keepalive⟩ := of_checkPeers checked p member
  refine ⟨?_, keepalive, allowed⟩
  by_cases empty : GoText.trimSpace p.endpoint = ""
  · simp [requestedPeer, requestedEndpoint, read, empty, Except.toOption]
  · obtain ⟨addr, named⟩ := Option.isSome_iff_exists.mp (literal p member empty)
    simp [requestedPeer, requestedEndpoint, read, empty, named, Except.toOption]

theorem peerLines_of_checkPeers
    (checked : checkPeers x position peers = .ok ()) : ∃ lines,
      peerLines x position peers = .ok lines := by
  induction peers generalizing position with
  | nil => exact ⟨[], rfl⟩
  | cons p rest ih =>
    obtain ⟨key, decoded, checked⟩ := of_bind_ok checked
    obtain ⟨_, _, checked⟩ := of_bind_ok checked
    obtain ⟨_, _, checked⟩ := of_bind_ok checked
    obtain ⟨_, _, checked⟩ := of_bind_ok checked
    obtain ⟨lines, rendered⟩ := ih checked
    exact ⟨.publicKey key :: p.lines ++ lines, by rw [peerLines, decoded, rendered]; rfl⟩

theorem readable_of_checkAddresses (checked : checkAddresses x texts = .ok ()) :
    ∀ text ∈ texts, ∃ net, x.parsePrefix text = .ok net := by
  refine forall_of_checks (fun text rest checked => ?_) checked
  obtain ⟨net, read, checked⟩ := of_bind_ok checked
  exact ⟨⟨net, of_mapError_ok read⟩, checked⟩

theorem isIP_of_checkDNS (checked : checkDNS x texts = .ok ()) :
    ∀ text ∈ texts, x.isIP text = true := by
  refine forall_of_checks (fun text rest checked => ?_) checked
  obtain ⟨_, accepted, checked⟩ := of_bind_ok checked
  exact ⟨Bool.not_eq_false _ |>.mp (of_refuseIf_ok accepted), checked⟩

/-- What a valid configuration has passed. -/
structure Validated (x : Parsers Key Addr Net) (cfg : Config) : Prop where
  privateKey : ∃ key, privateKeyHex x cfg.privateKey = .ok key
  listenPort : 0 ≤ cfg.listenPort ∧ cfg.listenPort ≤ 65535
  addresses : ∀ text ∈ cfg.addresses, ∃ net, x.parsePrefix text = .ok net
  dns : ∀ text ∈ cfg.dns, x.isIP text = true
  peers : checkPeers x 0 cfg.peers = .ok ()

variable {cfg : Config}

/-- What `Validate` has read of a configuration that it accepts. -/
theorem validated_of_validate (valid : validate x cfg = .ok ()) : Validated x cfg := by
  obtain ⟨key, decoded, valid⟩ := of_bind_ok valid
  obtain ⟨_, port, valid⟩ := of_bind_ok valid
  obtain ⟨_, addresses, valid⟩ := of_bind_ok valid
  obtain ⟨_, dns, valid⟩ := of_bind_ok valid
  obtain ⟨_, _, valid⟩ := of_bind_ok valid
  have range := of_refuseIf_ok port
  exact ⟨⟨key, decoded⟩, by omega, readable_of_checkAddresses addresses, isIP_of_checkDNS dns,
    valid⟩

theorem of_validate (valid : validate x cfg = .ok ()) :
    (∃ key, privateKeyHex x cfg.privateKey = .ok key) ∧ checkPeers x 0 cfg.peers = .ok () :=
  ⟨(validated_of_validate valid).privateKey, (validated_of_validate valid).peers⟩

theorem validate_listenPort {cfg : WireGuardConfig}
    (valid : validate x (toWireguard cfg 0) = .ok ())
    {port : Int} (low : 0 ≤ port) (high : port ≤ 65535) :
    validate x (toWireguard cfg port) = .ok () := by
  have allowed : ∀ n : Int, 0 ≤ n → n ≤ 65535 →
      refuseIf (n < 0 ∨ 65535 < n) (ConfigError.badListenPort n) = .ok () :=
    fun n low high => if_neg (by omega)
  unfold validate toWireguard at valid ⊢
  rw [allowed 0 (by decide) (by decide)] at valid
  rw [allowed port low high]
  exact valid

theorem toIPC_of_validate (valid : validate x cfg = .ok ()) : ∃ lines, toIPC x cfg = .ok lines := by
  obtain ⟨⟨key, decoded⟩, checked⟩ := of_validate valid
  obtain ⟨lines, rendered⟩ := peerLines_of_checkPeers checked
  exact ⟨_, by rw [toIPC, valid, decoded, rendered]; rfl⟩

theorem kernelAllowedIPs_eq {nets : List Net}
    (read : kernelAllowedIPs x position texts = .ok nets) : nets = readNets x texts := by
  induction texts generalizing nets with
  | nil =>
    cases read
    rfl
  | cons text more ih =>
    obtain ⟨net, first, read⟩ := of_bind_ok read
    obtain ⟨later, tail, read⟩ := of_bind_ok read
    cases read
    rw [ih tail]
    simp [readNets, of_mapError_ok first, Except.toOption]

/-- The kernel path and the userspace path read the same endpoint. -/
theorem kernelEndpoint_eq (lawful : x.Lawful) {text : String}
    {endpoint asked : Option Addr} (read : kernelEndpoint x position text = .ok endpoint)
    (named : Names x text asked) : endpoint = asked := by
  unfold kernelEndpoint at read
  split at read
  · next empty =>
    cases read
    cases named with
    | blank _ => rfl
    | literal filled _ =>
      rw [empty] at filled
      exact absurd rfl filled
  · next filled =>
    cases resolved : x.resolveUDPAddr text with
    | error cause =>
      rw [resolved] at read
      cases read
    | ok addr =>
      rw [resolved] at read
      cases read
      cases named with
      | blank empty => exact absurd empty (lawful.resolve_blank text addr filled resolved)
      | literal _ spelled => rw [lawful.resolve_literal text addr _ resolved spelled]

/-- The kernel path reads keys and endpoints as they stand, without trimming. -/
structure KernelReadable (x : Parsers Key Addr Net) (cfg : WireGuardConfig) : Prop where
  privateKey : (x.decodeKey cfg.privateKey).isOk
  keys : ∀ p ∈ cfg.peers, (x.decodeKey p.publicKey).isOk
  endpoints : ∀ p ∈ cfg.peers, p.endpoint = "" ∨ (x.resolveUDPAddr p.endpoint).isOk

theorem kernelAllowedIPs_ok
    (readable : ∀ text ∈ texts, ∃ net, x.parsePrefix text = .ok net) (position : ℕ) :
    ∃ nets, kernelAllowedIPs x position texts = .ok nets := by
  induction texts with
  | nil => exact ⟨[], rfl⟩
  | cons text more ih =>
    obtain ⟨net, read⟩ := readable text List.mem_cons_self
    obtain ⟨nets, later⟩ := ih fun other member => readable other (List.mem_cons_of_mem text member)
    exact ⟨net :: nets, by rw [kernelAllowedIPs, read, later]; rfl⟩

theorem kernelEndpoint_ok_iff (position : ℕ) {text : String} :
    (∃ endpoint, kernelEndpoint x position text = .ok endpoint) ↔
      text = "" ∨ (x.resolveUDPAddr text).isOk := by
  unfold kernelEndpoint
  by_cases empty : text = ""
  · simp [empty]
  · cases x.resolveUDPAddr text <;> simp [empty, Except.mapError, Except.map, Except.isOk,
      Except.toBool]

theorem kernelPeers_ok_iff (readable : ∀ p ∈ peers, Readable x p) (position : ℕ) :
    (∃ configs, kernelPeers x position peers = .ok configs) ↔
      ∀ p ∈ peers, (x.decodeKey p.publicKey).isOk ∧
        (p.endpoint = "" ∨ (x.resolveUDPAddr p.endpoint).isOk) := by
  induction peers generalizing position with
  | nil => exact ⟨fun _ => nofun, fun _ => ⟨[], rfl⟩⟩
  | cons p rest ih =>
    have later := ih (fun q member => readable q (List.mem_cons_of_mem p member)) (position + 1)
    obtain ⟨nets, allowed⟩ := kernelAllowedIPs_ok (readable p List.mem_cons_self).nets position
    rw [List.forall_mem_cons, ← later, ← kernelEndpoint_ok_iff position]
    constructor
    · rintro ⟨configs, read⟩
      obtain ⟨key, decoded, read⟩ := of_bind_ok read
      obtain ⟨endpoint, resolved, read⟩ := of_bind_ok read
      obtain ⟨_, _, read⟩ := of_bind_ok read
      obtain ⟨tail, listed, _⟩ := of_bind_ok read
      exact ⟨⟨by rw [of_mapError_ok decoded]; rfl, endpoint, resolved⟩, tail, listed⟩
    · rintro ⟨⟨decodes, endpoint, resolved⟩, tail, listed⟩
      cases decoded : x.decodeKey p.publicKey with
      | error cause => simp [decoded, Except.isOk, Except.toBool] at decodes
      | ok key => exact ⟨_, by rw [kernelPeers, decoded, resolved, allowed, listed]; rfl⟩

/-- A readable configuration is refused by the kernel path for a blank around a key or an
endpoint, or for an endpoint that does not resolve. -/
theorem kernelConfig_ok_iff {cfg : WireGuardConfig} (readable : ∀ p ∈ cfg.peers, Readable x p) :
    (∃ c, kernelConfig x cfg = .ok c) ↔ KernelReadable x cfg := by
  have peers := kernelPeers_ok_iff readable 0
  constructor
  · rintro ⟨c, read⟩
    obtain ⟨key, decoded, read⟩ := of_bind_ok read
    obtain ⟨configs, listed, _⟩ := of_bind_ok read
    have each := peers.mp ⟨configs, listed⟩
    exact ⟨by rw [of_mapError_ok decoded]; rfl, fun p member => (each p member).1,
      fun p member => (each p member).2⟩
  · intro reads
    obtain ⟨configs, listed⟩ := peers.mpr fun p member =>
      ⟨reads.keys p member, reads.endpoints p member⟩
    have decodes := reads.privateKey
    cases decoded : x.decodeKey cfg.privateKey with
    | error cause => simp [decoded, Except.isOk, Except.toBool] at decodes
    | ok key => exact ⟨_, by rw [kernelConfig, decoded, listed]; rfl⟩

/-- Where the kernel path can read the peers, it asks for what they request. -/
theorem kernelPeers_eq (lawful : x.Lawful)
    {configs : List (PeerConfig Key Addr Net)} (read : kernelPeers x position peers = .ok configs)
    (readable : ∀ p ∈ peers, Readable x p) :
    configs = (peers.filterMap (requestedPeer x)).map Requested.config := by
  induction peers generalizing position configs with
  | nil =>
    cases read
    rfl
  | cons p rest ih =>
    obtain ⟨key, decoded, read⟩ := of_bind_ok read
    obtain ⟨endpoint, resolved, read⟩ := of_bind_ok read
    obtain ⟨nets, allowed, read⟩ := of_bind_ok read
    obtain ⟨later, tail, read⟩ := of_bind_ok read
    cases read
    obtain ⟨r, asks⟩ := Option.isSome_iff_exists.mp (readable p List.mem_cons_self).asks
    obtain ⟨plain, named, sameNets, sameKeepalive⟩ := of_requestedPeer asks
    have same : key = r.key := by
      have first := lawful.key_trim p.publicKey key (of_mapError_ok decoded)
      rw [plain] at first
      exact (Except.ok.inj first).symm
    rw [ih tail fun q member => readable q (List.mem_cons_of_mem p member),
      List.filterMap_cons_some asks, List.map_cons, Requested.config, same,
      kernelEndpoint_eq lawful resolved named, kernelAllowedIPs_eq allowed, sameNets, sameKeepalive]

end requested

section merging
variable {Key Addr Net : Type} [DecidableEq Key] [DecidableEq Net]

/-- A request merged into the device, in the order of its lines. -/
def merge (dev : Device Key Addr Net) (r : Requested Key Addr Net) : Device Key Addr Net :=
  let named := (dev.put r.key id).put r.key fun old =>
      { old with endpoint := r.endpoint.or old.endpoint }
  (named.allow r.key r.nets).put r.key fun old =>
    { old with keepalive := if 0 < r.keepalive then interval r.keepalive else old.keepalive }

variable {x : Parsers Key Addr Net} {dev : Device Key Addr Net} {key : Key}

theorem ipcSet_endpoint (there : (dev.peer key).isSome) {text : String} {endpoint : Option Addr}
    (named : Names x text endpoint) (rest : List (Line Key)) :
    ipcSet x dev (some key)
        ((if GoText.trimSpace text = "" then [] else [.endpoint (GoText.trimSpace text)]) ++ rest) =
      ipcSet x (dev.put key fun old => { old with endpoint := endpoint.or old.endpoint }) (some key)
        rest := by
  cases named with
  | blank empty =>
    have same : (dev.put key fun old => { old with endpoint := none.or old.endpoint }) = dev :=
      put_id dev there
    rw [same, if_pos empty, List.nil_append]
  | literal filled read =>
    rw [if_neg filled, List.singleton_append, ipcSet, read]
    rfl

theorem ipcSet_allowedIPs (lawful : x.Lawful) (dev : Device Key Addr Net) {texts : List String}
    (readable : ∀ text ∈ texts, ∃ net, x.parsePrefix text = .ok net) (rest : List (Line Key)) :
    ipcSet x dev (some key) (texts.map (fun a => .allowedIP (GoText.trimSpace a)) ++ rest) =
      ipcSet x (dev.allow key (readNets x texts)) (some key) rest := by
  induction texts generalizing dev with
  | nil => rw [readNets, List.filterMap_nil, allow_nil, List.map_nil, List.nil_append]
  | cons text more ih =>
    obtain ⟨net, read⟩ := readable text List.mem_cons_self
    have nets : readNets x (text :: more) = net :: readNets x more := by
      simp [readNets, read, Except.toOption]
    rw [List.map_cons, List.cons_append, ipcSet, lawful.prefix_plain text net read, read]
    dsimp only
    rw [ih _ fun other member => readable other (List.mem_cons_of_mem text member),
      allow_allow dev key [net] (readNets x more) (readNets x (text :: more))
        fun other => by rw [nets, List.mem_cons, List.mem_singleton]]

theorem ipcSet_keepalive (there : (dev.peer key).isSome) {seconds : Int} (short : seconds ≤ 65535)
    (rest : List (Line Key)) :
    ipcSet x dev (some key) ((if 0 < seconds then [.keepalive seconds] else []) ++ rest) =
      ipcSet x (dev.put key fun old =>
        { old with keepalive := if 0 < seconds then interval seconds else old.keepalive })
        (some key) rest := by
  by_cases positive : 0 < seconds
  · have accepted : 0 ≤ seconds ∧ seconds ≤ 65535 := ⟨Int.le_of_lt positive, short⟩
    simp [if_pos positive, ipcSet, if_pos accepted]
  · simp only [if_neg positive, List.nil_append]
    have same : (dev.put key fun old => { old with keepalive := old.keepalive }) = dev :=
      put_id dev there
    rw [same]

theorem ipcSet_peer (lawful : x.Lawful) (dev : Device Key Addr Net) {p : Peer}
    {r : Requested Key Addr Net} (asks : requestedPeer x p = some r)
    (readable : ∀ text ∈ p.allowedIPs, ∃ net, x.parsePrefix text = .ok net)
    (short : p.keepalive ≤ 65535) (current : Option Key) (rest : List (Line Key)) :
    ipcSet x dev current (.publicKey r.key :: p.lines ++ rest) =
      ipcSet x (merge dev r) (some r.key) rest := by
  obtain ⟨_, named, nets, keepalive⟩ := of_requestedPeer asks
  have sorted : ∀ text ∈ p.allowedIPs.mergeSort (fun a b => decide (a ≤ b)),
      ∃ net, x.parsePrefix text = .ok net :=
    fun text member => readable text (List.mem_mergeSort.mp member)
  have sameNets : ∀ net, net ∈ r.nets ↔
      net ∈ readNets x (p.allowedIPs.mergeSort (fun a b => decide (a ≤ b))) := by
    intro net
    rw [nets, readNets, readNets, List.mem_filterMap, List.mem_filterMap]
    simp
  rw [List.cons_append, ipcSet, Peer.lines, List.append_assoc, List.append_assoc,
    ipcSet_endpoint (by simp) named, ipcSet_allowedIPs lawful _ sorted,
    ipcSet_keepalive (by simp) short]
  rw [merge, keepalive, ← allow_allow _ r.key [] r.nets _ fun net => by
    rw [← sameNets net]; simp, allow_nil]

end merging

section planes
variable {Key Addr Net : Type} [DecidableEq Key] [DecidableEq Net] {x : Parsers Key Addr Net}

variable {lines : List (Line Key)}

theorem ipcSet_peers (lawful : x.Lawful) {position : ℕ} {peers : List Peer}
    (rendered : peerLines x position peers = .ok lines) (readable : ∀ p ∈ peers, Readable x p)
    (short : ∀ p ∈ peers, p.keepalive ≤ 65535) (dev : Device Key Addr Net) (current : Option Key) :
    ipcSet x dev current lines = ((peers.filterMap (requestedPeer x)).foldl merge dev, none) := by
  induction peers generalizing position lines dev current with
  | nil =>
    cases rendered
    rfl
  | cons p rest ih =>
    obtain ⟨key, decoded, rendered⟩ := of_bind_ok rendered
    obtain ⟨later, tail, rendered⟩ := of_bind_ok rendered
    cases rendered
    have here := readable p List.mem_cons_self
    obtain ⟨r, asks⟩ := Option.isSome_iff_exists.mp here.asks
    have same : key = r.key := by
      have first : x.decodeKey (GoText.trimSpace p.publicKey) = .ok key := of_mapError_ok decoded
      rw [(of_requestedPeer asks).1] at first
      exact (Except.ok.inj first).symm
    rw [same, ipcSet_peer lawful dev asks here.nets (short p List.mem_cons_self),
      ih tail (fun q member => readable q (List.mem_cons_of_mem p member))
        (fun q member => short q (List.mem_cons_of_mem p member)),
      List.filterMap_cons_some asks, List.foldl_cons]

/-- The IPC text of a configuration puts the requested peers on the device, one after another. -/
theorem ipcSet_toIPC (lawful : x.Lawful) {cfg : Config}
    (rendered : toIPC x cfg = .ok lines) (readable : ∀ p ∈ cfg.peers, Readable x p)
    (short : ∀ p ∈ cfg.peers, p.keepalive ≤ 65535) (dev : Device Key Addr Net) :
    ∃ base : Device Key Addr Net, base.peer = dev.peer ∧ base.owner = dev.owner ∧
      ipcSet x dev none lines = ((requested x cfg.toWireGuardConfig).foldl merge base, none) := by
  obtain ⟨_, _, rendered⟩ := of_bind_ok rendered
  obtain ⟨key, _, rendered⟩ := of_bind_ok rendered
  obtain ⟨peers, tail, rendered⟩ := of_bind_ok rendered
  cases rendered
  by_cases port : 0 < cfg.listenPort
  · refine ⟨{ dev with privateKey := some key, listenPort := cfg.listenPort }, rfl, rfl, ?_⟩
    simp only [if_pos port, List.cons_append, List.nil_append, ipcSet]
    exact ipcSet_peers lawful tail readable short _ none
  · refine ⟨{ dev with privateKey := some key }, rfl, rfl, ?_⟩
    simp only [if_neg port, List.cons_append, List.nil_append, ipcSet]
    exact ipcSet_peers lawful tail readable short _ none

theorem configure_kernelConfig (lawful : x.Lawful) {cfg : WireGuardConfig}
    {c : KernelConfig Key Addr Net} (read : kernelConfig x cfg = .ok c)
    (readable : ∀ p ∈ cfg.peers, Readable x p) (dev : Device Key Addr Net) :
    ∃ base : Device Key Addr Net, (∀ key, base.peer key = none) ∧ (∀ net, base.owner net = none) ∧
      dev.configure c =
        (requested x cfg).foldl (fun dev r => dev.configurePeer r.config) base := by
  obtain ⟨key, _, read⟩ := of_bind_ok read
  obtain ⟨peers, listed, read⟩ := of_bind_ok read
  cases read
  refine ⟨{ dev.clear with privateKey := some key }, fun _ => rfl, fun _ => rfl, ?_⟩
  rw [kernelPeers_eq lawful listed readable, Device.configure, List.foldl_map]
  rfl

end planes

end VeilNet.Source.Tunnel
