import Mathlib.Data.List.Sort
import VeilNet.Lib.GoText
import VeilNet.Lib.Outcome

/-!
`WireGuardConfig` of `internal/tunnel/engine.go`, `Validate` and `ToIPC` of
`internal/wireguard/wgconf.go`, and `kernelConfig` of `internal/tunnel/backend.go`. The parsers of
the Go library are parameters. A `Line` is one line of the text of `ToIPC` by the value it spells:
a key in hexadecimal, an endpoint and an allowed IP as the configuration has them.
-/
namespace VeilNet.Source.Tunnel
open Lib Lib.Outcome

structure Peer where
  publicKey : String
  endpoint : String
  allowedIPs : List String
  keepalive : Int
  deriving DecidableEq

structure WireGuardConfig where
  privateKey : String
  addresses : List String
  dns : List String
  peers : List Peer
  deriving DecidableEq

/-- `wireguard.Config`; its MTU is not passed to the device. -/
structure Config extends WireGuardConfig where
  listenPort : Int
  deriving DecidableEq

def toWireguard (cfg : WireGuardConfig) (listenPort : Int) : Config := { cfg with listenPort }

/-- The readings of texts: 32 bytes in base64, `netip.ParsePrefix` as the network it names,
`net.ParseIP`, `net.SplitHostPort`, `strconv.Atoi`, the device's reading of an endpoint, and
`net.ResolveUDPAddr`. -/
structure Parsers (Key Addr Net : Type) where
  decodeKey : String → Except String Key
  parsePrefix : String → Except String Net
  isIP : String → Bool
  splitHostPort : String → Option (String × String)
  atoi : String → Option Int
  parseEndpoint : String → Option Addr
  resolveUDPAddr : String → Except String Addr

/-- Every text is readable and stands for itself. -/
def Parsers.verbatim : Parsers String String String where
  decodeKey text := .ok text
  parsePrefix text := .ok text
  isIP _ := true
  splitHostPort text := some (text, "51820")
  atoi _ := some 51820
  parseEndpoint := some
  resolveUDPAddr text := .ok text

/-- The base64 text of a key of 32 bytes. -/
def keyText (c : Char) : String := String.ofList (c :: List.replicate 42 'A' ++ ['='])

def onePeer : WireGuardConfig :=
  ⟨keyText 'k', [], [], [⟨keyText 'a', "1.2.3.4:1", ["10.0.0.0/8"], 25⟩]⟩

inductive ConfigError where
  | badPrivateKey
  | badListenPort (port : Int)
  | badAddress (text cause : String)
  | badDNS (text : String)
  | noPeers
  | badPublicKey (position : ℕ) (text : String)
  | badEndpoint (position : ℕ) (text : String)
  | badEndpointPort (position : ℕ) (text : String)
  | badAllowedIP (position : ℕ) (text : String)
  | negativeKeepalive (position : ℕ)
  | kernelPrivateKey (cause : String)
  | kernelKey (position : ℕ) (cause : String)
  | kernelEndpoint (position : ℕ) (cause : String)
  | kernelAllowedIP (position : ℕ) (cause : String)
  deriving DecidableEq

/-- One line of the IPC text. -/
inductive Line (Key : Type) where
  | privateKey (key : Key)
  | listenPort (port : Int)
  | publicKey (key : Key)
  | endpoint (text : String)
  | allowedIP (text : String)
  | keepalive (seconds : Int)

/-- `wgtypes.PeerConfig`, as `kernelConfig` fills it in; the keepalive is in seconds. -/
structure PeerConfig (Key Addr Net : Type) where
  publicKey : Key
  replaceAllowedIPs : Bool
  endpoint : Option Addr
  allowedIPs : List Net
  keepalive : Option Int

structure KernelConfig (Key Addr Net : Type) where
  privateKey : Key
  replacePeers : Bool
  peers : List (PeerConfig Key Addr Net)

section validate
variable {Key Addr Net : Type} (x : Parsers Key Addr Net)

/-- `privateKeyHex`, as the key it spells. -/
def privateKeyHex (priv : String) : Except ConfigError Key :=
  (x.decodeKey (GoText.trimSpace priv)).mapError fun _ => .badPrivateKey

/-- `publicKeyHex`, as the key it spells. -/
def publicKeyHex (position : ℕ) (pub : String) : Except ConfigError Key :=
  (x.decodeKey (GoText.trimSpace pub)).mapError fun _ => .badPublicKey position pub

def checkEndpoint (position : ℕ) (endpoint : String) : Except ConfigError Unit :=
  if GoText.trimSpace endpoint = "" then .ok ()
  else
    match x.splitHostPort (GoText.trimSpace endpoint) with
    | none => .error (.badEndpoint position endpoint)
    | some (host, port) =>
      if host = "" then .error (.badEndpoint position endpoint)
      else
        match x.atoi port with
        | none => .error (.badEndpointPort position endpoint)
        | some n => refuseIf (n ≤ 0 ∨ 65535 < n) (.badEndpointPort position endpoint)

def checkAllowedIPs (position : ℕ) : List String → Except ConfigError Unit
  | [] => .ok ()
  | a :: rest => do
    let _ ← (x.parsePrefix a).mapError fun _ => .badAllowedIP position a
    checkAllowedIPs position rest

def checkPeers : ℕ → List Peer → Except ConfigError Unit
  | _, [] => .ok ()
  | i, p :: rest => do
    let _ ← publicKeyHex x i p.publicKey
    checkEndpoint x i p.endpoint
    checkAllowedIPs x i p.allowedIPs
    refuseIf (p.keepalive < 0) (.negativeKeepalive i)
    checkPeers (i + 1) rest

def checkAddresses : List String → Except ConfigError Unit
  | [] => .ok ()
  | a :: rest => do
    let _ ← (x.parsePrefix a).mapError fun cause => .badAddress a cause
    checkAddresses rest

def checkDNS : List String → Except ConfigError Unit
  | [] => .ok ()
  | d :: rest => do
    refuseIf (x.isIP d = false) (.badDNS d)
    checkDNS rest

def validate (cfg : Config) : Except ConfigError Unit := do
  let _ ← privateKeyHex x cfg.privateKey
  refuseIf (cfg.listenPort < 0 ∨ 65535 < cfg.listenPort) (.badListenPort cfg.listenPort)
  checkAddresses x cfg.addresses
  checkDNS x cfg.dns
  refuseIf (cfg.peers = []) .noPeers
  checkPeers x 0 cfg.peers

/-- The part of a peer below its key. -/
def Peer.lines (p : Peer) : List (Line Key) :=
  (if GoText.trimSpace p.endpoint = "" then [] else [.endpoint (GoText.trimSpace p.endpoint)]) ++
    (p.allowedIPs.mergeSort (fun a b => decide (a ≤ b))).map
      (fun a => .allowedIP (GoText.trimSpace a)) ++
    if 0 < p.keepalive then [.keepalive p.keepalive] else []

def peerLines : ℕ → List Peer → Except ConfigError (List (Line Key))
  | _, [] => .ok []
  | i, p :: rest => do
    let key ← publicKeyHex x i p.publicKey
    let lines ← peerLines (i + 1) rest
    pure (.publicKey key :: p.lines ++ lines)

def toIPC (cfg : Config) : Except ConfigError (List (Line Key)) := do
  validate x cfg
  let key ← privateKeyHex x cfg.privateKey
  let lines ← peerLines x 0 cfg.peers
  pure (.privateKey key :: (if 0 < cfg.listenPort then [.listenPort cfg.listenPort] else []) ++
    lines)

def kernelAllowedIPs (position : ℕ) : List String → Except ConfigError (List Net)
  | [] => .ok []
  | a :: rest => do
    let net ← (x.parsePrefix a).mapError fun cause => .kernelAllowedIP position cause
    let nets ← kernelAllowedIPs position rest
    pure (net :: nets)

/-- The endpoint of a peer, as the kernel path resolves it. -/
def kernelEndpoint (position : ℕ) (endpoint : String) : Except ConfigError (Option Addr) :=
  if endpoint = "" then .ok none
  else ((x.resolveUDPAddr endpoint).mapError fun cause => .kernelEndpoint position cause).map some

def kernelPeers : ℕ → List Peer → Except ConfigError (List (PeerConfig Key Addr Net))
  | _, [] => .ok []
  | i, p :: rest => do
    let publicKey ← (x.decodeKey p.publicKey).mapError fun cause => .kernelKey i cause
    let endpoint ← kernelEndpoint x i p.endpoint
    let allowedIPs ← kernelAllowedIPs x i p.allowedIPs
    let peers ← kernelPeers (i + 1) rest
    pure (⟨publicKey, true, endpoint, allowedIPs,
      if 0 < p.keepalive then some p.keepalive else none⟩ :: peers)

def kernelConfig (cfg : WireGuardConfig) : Except ConfigError (KernelConfig Key Addr Net) := do
  let privateKey ← (x.decodeKey cfg.privateKey).mapError fun cause => .kernelPrivateKey cause
  let peers ← kernelPeers x 0 cfg.peers
  pure ⟨privateKey, true, peers⟩

end validate

end VeilNet.Source.Tunnel
