import VeilNet.Source.Tunnel.Config
import Mathlib.Logic.Function.Basic

/-!
The two data planes of `internal/tunnel/backend.go`. A WireGuard device keeps for each peer an
endpoint and a keepalive, and for each network its owner. A configuration merges into what is
there: a value that is not named stays, and a network moves to the peer that names it last. Only
the replace flags remove. `userspaceBackend` sets the text of `ToIPC`, without such flags;
`kernelBackend` hands over `kernelConfig`, with both.

Left out: a peer under the device's own key, and failures of the OS to create the TUN device or
the socket.
-/
namespace VeilNet.Source.Tunnel
open Lib Lib.Outcome

structure PeerState (Addr : Type) where
  endpoint : Option Addr
  keepalive : UInt16
  deriving DecidableEq

/-- The networks belong to peers of the device. -/
@[ext] structure Device (Key Addr Net : Type) where
  privateKey : Option Key
  listenPort : Int
  peer : Key → Option (PeerState Addr)
  owner : Net → Option Key
  owned : ∀ net key, owner net = some key → (peer key).isSome

section device
variable {Key Addr Net : Type}

/-- The number of seconds as the device stores it. -/
def interval (seconds : Int) : UInt16 := UInt16.ofNat seconds.toNat

namespace Device

/-- A new userspace device. -/
def empty : Device Key Addr Net :=
  { privateKey := none, listenPort := 0, peer := fun _ => none, owner := fun _ => none,
    owned := nofun }

def clear (dev : Device Key Addr Net) : Device Key Addr Net :=
  { dev with peer := fun _ => none, owner := fun _ => none, owned := nofun }

/-- A peer by its key, or a new one. -/
def find (dev : Device Key Addr Net) (key : Key) : PeerState Addr := (dev.peer key).getD ⟨none, 0⟩

variable [DecidableEq Key]

/-- Change a peer, which is made if it is not there. -/
def put (dev : Device Key Addr Net) (key : Key) (f : PeerState Addr → PeerState Addr) :
    Device Key Addr Net :=
  { dev with
    peer := Function.update dev.peer key (some (f (dev.find key)))
    owned := by
      intro net owner owns
      by_cases same : owner = key
      · rw [same, Function.update_self]
        rfl
      · rw [Function.update_of_ne same]
        exact dev.owned net owner owns }

/-- `replace_allowed_ips`: the peer owns no network. -/
def release (dev : Device Key Addr Net) (key : Key) : Device Key Addr Net :=
  { dev with
    owner := fun net => if dev.owner net = some key then none else dev.owner net
    owned := by
      intro net owner owns
      split at owns
      · cases owns
      · exact dev.owned net owner owns }

variable [DecidableEq Net]

/-- `allowed_ip`: the networks move to this peer of the device. -/
def allow (dev : Device Key Addr Net) (key : Key) (nets : List Net) : Device Key Addr Net :=
  { dev with
    owner := fun net => if net ∈ nets ∧ (dev.peer key).isSome then some key else dev.owner net
    owned := by
      intro net owner owns
      split at owns
      · next moved =>
        cases owns
        exact moved.2
      · exact dev.owned net owner owns }

/-- One peer of `ConfigureDevice`. -/
def configurePeer (dev : Device Key Addr Net) (p : PeerConfig Key Addr Net) : Device Key Addr Net :=
  let made := dev.put p.publicKey id
  let released := if p.replaceAllowedIPs then made.release p.publicKey else made
  let named := released.put p.publicKey fun old =>
      { old with endpoint := p.endpoint.or old.endpoint }
  (named.allow p.publicKey p.allowedIPs).put p.publicKey fun old =>
    { old with keepalive := (p.keepalive.map interval).getD old.keepalive }

def configure (dev : Device Key Addr Net) (c : KernelConfig Key Addr Net) : Device Key Addr Net :=
  let kept := if c.replacePeers then dev.clear else dev
  c.peers.foldl configurePeer { kept with privateKey := some c.privateKey }

end Device

end device

section operations
variable {Key Addr Net : Type} [DecidableEq Key] (dev : Device Key Addr Net)

@[simp] theorem put_peer (key other : Key) (f : PeerState Addr → PeerState Addr) :
    (dev.put key f).peer other = if other = key then some (f (dev.find key)) else dev.peer other :=
  Function.update_apply dev.peer key (some (f (dev.find key))) other

@[simp] theorem put_owner (key : Key) (f : PeerState Addr → PeerState Addr) :
    (dev.put key f).owner = dev.owner := rfl

@[simp] theorem find_put (key : Key) (f : PeerState Addr → PeerState Addr) :
    (dev.put key f).find key = f (dev.find key) := by
  simp [Device.find]

theorem put_id {key : Key} (there : (dev.peer key).isSome) : dev.put key id = dev := by
  obtain ⟨kept, found⟩ := Option.isSome_iff_exists.mp there
  refine Device.ext rfl rfl (funext fun other => ?_) rfl
  rw [put_peer]
  split
  · next same => rw [same, Device.find, found, Option.getD_some, id]
  · rfl

@[simp] theorem release_peer (key : Key) : (dev.release key).peer = dev.peer := rfl

@[simp] theorem find_release (key other : Key) : (dev.release key).find other = dev.find other :=
  rfl

theorem release_owner (key : Key) (net : Net) :
    (dev.release key).owner net = if dev.owner net = some key then none else dev.owner net := rfl

end operations

section networks
variable {Key Addr Net : Type} [DecidableEq Net] (dev : Device Key Addr Net)

@[simp] theorem allow_peer (key : Key) (nets : List Net) : (dev.allow key nets).peer = dev.peer :=
  rfl

@[simp] theorem find_allow (key other : Key) (nets : List Net) :
    (dev.allow key nets).find other = dev.find other := rfl

theorem allow_owner {key : Key} (there : (dev.peer key).isSome) (nets : List Net) (net : Net) :
    (dev.allow key nets).owner net = if net ∈ nets then some key else dev.owner net := by
  simp [Device.allow, there]

@[simp] theorem allow_nil (key : Key) : dev.allow key [] = dev := by
  refine Device.ext rfl rfl rfl (funext fun net => ?_)
  simp [Device.allow]

/-- Networks moved one after the other; their order does not matter. -/
theorem allow_allow (key : Key) (first second all : List Net)
    (whole : ∀ net, net ∈ all ↔ net ∈ first ∨ net ∈ second) :
    (dev.allow key first).allow key second = dev.allow key all := by
  refine Device.ext rfl rfl rfl (funext fun net => ?_)
  by_cases there : (dev.peer key).isSome
  · rw [allow_owner (dev.allow key first) there, allow_owner dev there, allow_owner dev there]
    by_cases inFirst : net ∈ first <;> by_cases inSecond : net ∈ second <;>
      simp [whole, inFirst, inSecond]
  · simp [Device.allow, there]

variable [DecidableEq Key] (p : PeerConfig Key Addr Net)

theorem configurePeer_peer (key : Key) :
    (dev.configurePeer p).peer key =
      if key = p.publicKey then
        some ⟨p.endpoint.or (dev.find key).endpoint,
          (p.keepalive.map interval).getD (dev.find key).keepalive⟩
      else dev.peer key := by
  unfold Device.configurePeer
  by_cases same : key = p.publicKey <;> cases p.replaceAllowedIPs <;> simp [same]

theorem configurePeer_owner (replaces : p.replaceAllowedIPs = true) (net : Net) :
    (dev.configurePeer p).owner net =
      if net ∈ p.allowedIPs then some p.publicKey
      else if dev.owner net = some p.publicKey then none else dev.owner net := by
  rw [Device.configurePeer, put_owner, allow_owner _ (by simp), put_owner, if_pos replaces,
    release_owner]
  rfl

end networks

inductive IpcError where
  | invalidLine
  deriving DecidableEq

section planes
variable {Key Addr Net : Type} [DecidableEq Key] [DecidableEq Net] (x : Parsers Key Addr Net)

/-- `device.IpcSet`, line by line; `current` is the peer that the lines are about. A line
that is refused ends it, and what was set before stays. -/
def ipcSet : Device Key Addr Net → Option Key → List (Line Key) →
    Device Key Addr Net × Option IpcError
  | dev, _, [] => (dev, none)
  | dev, current, .privateKey key :: rest => ipcSet { dev with privateKey := some key } current rest
  | dev, current, .listenPort port :: rest => ipcSet { dev with listenPort := port } current rest
  | dev, _, .publicKey key :: rest => ipcSet (dev.put key id) (some key) rest
  | dev, some key, .endpoint text :: rest =>
    match x.parseEndpoint text with
    | none => (dev, some .invalidLine)
    | some addr =>
      ipcSet (dev.put key fun old => { old with endpoint := some addr }) (some key) rest
  | dev, some key, .allowedIP text :: rest =>
    match x.parsePrefix text with
    | .error _ => (dev, some .invalidLine)
    | .ok net => ipcSet (dev.allow key [net]) (some key) rest
  | dev, some key, .keepalive seconds :: rest =>
    if 0 ≤ seconds ∧ seconds ≤ 65535 then
      ipcSet (dev.put key fun old => { old with keepalive := interval seconds }) (some key) rest
    else (dev, some .invalidLine)
  | dev, none, _ :: _ => (dev, some .invalidLine)

/-- `openUserspace`: no device unless the configuration was set. -/
def openUserspace (listenPort : Int) (cfg : WireGuardConfig) : Option (Device Key Addr Net) :=
  match toIPC x (toWireguard cfg listenPort) with
  | .error _ => none
  | .ok lines =>
    match ipcSet x .empty none lines with
    | (dev, none) => some dev
    | (_, some _) => none

def userspaceApply (dev : Device Key Addr Net) (cfg : WireGuardConfig) : Device Key Addr Net :=
  match toIPC x (toWireguard cfg 0) with
  | .error _ => dev
  | .ok lines => (ipcSet x dev none lines).1

/-- `kernelBackend.apply`, which is also how `openKernel` configures the interface. -/
def kernelApply (dev : Device Key Addr Net) (cfg : WireGuardConfig) : Device Key Addr Net :=
  match kernelConfig x cfg with
  | .error _ => dev
  | .ok c => dev.configure c

end planes

end VeilNet.Source.Tunnel
