import VeilNet.Source.Tunnel.Requests
import VeilNet.Lib.Run

/-!
# Both data planes end up with the requested peers

The kernel path clears the device first, so the last configuration alone decides. The userspace
path only merges: a peer, an endpoint, a keepalive or a network that the last configuration does
not name stays on the device.
-/
namespace VeilNet.Guarantees.DataPlanes
open Lib Lib.Outcome Source.Tunnel

variable {Key Addr Net : Type}

/-- The device has exactly the requested peers, each with exactly its endpoint, its
keepalive and its networks. -/
structure Exact (dev : Device Key Addr Net) (requests : List (Requested Key Addr Net)) : Prop where
  peers : ∀ key, (dev.peer key).isSome → ∃ r ∈ requests, r.key = key
  state : ∀ r ∈ requests, ∃ kept, dev.peer r.key = some kept ∧ kept.endpoint = r.endpoint ∧
    (kept.keepalive.toNat : Int) = r.keepalive
  nets : ∀ r ∈ requests, ∀ net, dev.owner net = some r.key ↔ net ∈ r.nets

/-- The requests do not contradict each other: those under one key ask for the same, and
a network is asked for under one key. -/
structure Coherent (requests : List (Requested Key Addr Net)) : Prop where
  endpoint : ∀ r ∈ requests, ∀ r' ∈ requests, r.key = r'.key → r.endpoint = r'.endpoint
  keepalive : ∀ r ∈ requests, ∀ r' ∈ requests, r.key = r'.key → r.keepalive = r'.keepalive
  nets : ∀ r ∈ requests, ∀ r' ∈ requests, ∀ net ∈ r.nets, net ∈ r'.nets ↔ r'.key = r.key

/-- Whatever the device has is asked for again: its peers, their endpoints and
keepalives, and its networks. -/
structure Covers (dev : Device Key Addr Net) (requests : List (Requested Key Addr Net)) : Prop where
  peers : ∀ key, (dev.peer key).isSome → ∃ r ∈ requests, r.key = key
  endpoint : ∀ r ∈ requests, (dev.find r.key).endpoint ≠ none → r.endpoint ≠ none
  keepalive : ∀ r ∈ requests, (dev.find r.key).keepalive ≠ 0 → r.keepalive ≠ 0
  nets : ∀ net, dev.owner net ≠ none → ∃ r ∈ requests, net ∈ r.nets

/-- The keepalives fit into the 16 bits that a device has for them. -/
def Short (requests : List (Requested Key Addr Net)) : Prop :=
  ∀ r ∈ requests, 0 ≤ r.keepalive ∧ r.keepalive ≤ 65535

/-- The state of a peer once the request is taken up. -/
def settle (r : Requested Key Addr Net) (old : PeerState Addr) : PeerState Addr :=
  ⟨r.endpoint.or old.endpoint, if 0 < r.keepalive then interval r.keepalive else old.keepalive⟩

theorem settle_settle (r : Requested Key Addr Net) (old : PeerState Addr) :
    settle r (settle r old) = settle r old := by
  unfold settle
  congr 1
  · cases r.endpoint <;> rfl
  · split <;> rfl

theorem Coherent.alike {requests : List (Requested Key Addr Net)}
    (coherent : Coherent requests) {r : Requested Key Addr Net} (member : r ∈ requests) :
    ∀ r' ∈ requests, r'.key = r.key → settle r' = settle r := by
  intro r' member' same
  funext old
  rw [settle, settle, coherent.endpoint r' member' r member same,
    coherent.keepalive r' member' r member same]

/-- A step takes up a request: its peer settles, its networks move to it, and networks
of other peers stay. -/
structure TakesUp [DecidableEq Key]
    (f : Device Key Addr Net → Requested Key Addr Net → Device Key Addr Net) : Prop where
  peer : ∀ dev r key,
    (f dev r).peer key = if key = r.key then some (settle r (dev.find key)) else dev.peer key
  gained : ∀ dev r, ∀ net ∈ r.nets, (f dev r).owner net = some r.key
  kept : ∀ dev r, ∀ net ∉ r.nets, dev.owner net ≠ some r.key → (f dev r).owner net = dev.owner net

section steps
variable [DecidableEq Key] [DecidableEq Net]

theorem merge_owner (dev : Device Key Addr Net) (r : Requested Key Addr Net) (net : Net) :
    (merge dev r).owner net = if net ∈ r.nets then some r.key else dev.owner net := by
  rw [merge, put_owner, allow_owner _ (by simp)]
  rfl

theorem takesUp_merge : TakesUp (merge : Device Key Addr Net → _ → _) where
  peer dev r key := by
    by_cases same : key = r.key
    · simp [merge, same, settle]
    · simp [merge, same]
  gained dev r net member := by rw [merge_owner, if_pos member]
  kept dev r net member _ := by rw [merge_owner, if_neg member]

theorem takesUp_configure :
    TakesUp fun (dev : Device Key Addr Net) (r : Requested Key Addr Net) =>
      dev.configurePeer r.config where
  peer dev r key := by
    rw [configurePeer_peer]
    unfold Requested.config settle
    by_cases positive : 0 < r.keepalive <;> simp [positive]
  gained dev r net member := by
    rw [configurePeer_owner dev r.config rfl]
    exact if_pos member
  kept dev r net member other := by
    rw [configurePeer_owner dev r.config rfl, if_neg (show net ∉ r.config.allowedIPs from member)]
    exact if_neg other

end steps

section folds
variable [DecidableEq Key] {f : Device Key Addr Net → Requested Key Addr Net → Device Key Addr Net}
  {requests : List (Requested Key Addr Net)}

/-- When all requests under a key settle it alike, their order and number do not matter. -/
theorem foldl_peer (takesUp : TakesUp f) {key : Key} {s : PeerState Addr → PeerState Addr}
    (alike : ∀ r ∈ requests, r.key = key → settle r = s) (dev : Device Key Addr Net) :
    ((∃ r ∈ requests, r.key = key) → (requests.foldl f dev).peer key = some (s (dev.find key))) ∧
    ((∀ r ∈ requests, r.key ≠ key) → (requests.foldl f dev).peer key = dev.peer key) := by
  induction requests generalizing dev with
  | nil => exact ⟨fun some => by simp at some, fun _ => rfl⟩
  | cons head rest ih =>
    have later := ih (fun r member => alike r (List.mem_cons_of_mem head member)) (f dev head)
    rw [List.foldl_cons]
    by_cases here : head.key = key
    · have settled : (f dev head).peer key = some (s (dev.find key)) := by
        rw [takesUp.peer, if_pos here.symm, alike head List.mem_cons_self here]
      have found : (f dev head).find key = s (dev.find key) := by
        rw [Device.find, settled, Option.getD_some]
      have twice : s (s (dev.find key)) = s (dev.find key) := by
        rw [← alike head List.mem_cons_self here]
        exact settle_settle head (dev.find key)
      refine ⟨fun _ => ?_, fun none => absurd here (none head List.mem_cons_self)⟩
      by_cases again : ∃ r ∈ rest, r.key = key
      · rw [later.1 again, found, twice]
      · rw [later.2 fun r member same => again ⟨r, member, same⟩, settled]
    · have untouched : (f dev head).peer key = dev.peer key := by
        rw [takesUp.peer, if_neg fun same => here same.symm]
      have found : (f dev head).find key = dev.find key := by
        rw [Device.find, untouched, Device.find]
      constructor
      · intro some
        obtain ⟨r, member, same⟩ := some
        rcases List.mem_cons.mp member with rfl | inRest
        · exact absurd same here
        · rw [later.1 ⟨r, inRest, same⟩, found]
      · intro none
        rw [later.2 fun r member => none r (List.mem_cons_of_mem head member), untouched]

/-- A network that is asked for under one key, and by all requests under that key. -/
theorem foldl_owner (takesUp : TakesUp f) {key : Key} {net : Net}
    (asked : ∀ r ∈ requests, net ∈ r.nets ↔ r.key = key) (dev : Device Key Addr Net)
    (some : (∃ r ∈ requests, r.key = key) ∨ dev.owner net = some key) :
    (requests.foldl f dev).owner net = Option.some key := by
  induction requests generalizing dev with
  | nil => simpa using some
  | cons head rest ih =>
    rw [List.foldl_cons]
    refine ih (fun r member => asked r (List.mem_cons_of_mem head member)) (f dev head) ?_
    by_cases here : head.key = key
    · have member := (asked head List.mem_cons_self).mpr here
      exact .inr (by rw [takesUp.gained dev head net member, here])
    · have notMember := mt (asked head List.mem_cons_self).mp here
      rcases some with ⟨r, member, same⟩ | owned
      · rcases List.mem_cons.mp member with rfl | inRest
        · exact absurd same here
        · exact .inl ⟨r, inRest, same⟩
      · refine .inr ?_
        rw [takesUp.kept dev head net notMember fun other =>
          here (Option.some.inj (owned.symm.trans other)).symm, owned]

theorem foldl_unowned (takesUp : TakesUp f) {net : Net} (unasked : ∀ r ∈ requests, net ∉ r.nets)
    (dev : Device Key Addr Net) (unowned : dev.owner net = none) :
    (requests.foldl f dev).owner net = none := by
  induction requests generalizing dev with
  | nil => exact unowned
  | cons head rest ih =>
    refine ih (fun r member => unasked r (List.mem_cons_of_mem head member)) (f dev head) ?_
    rw [takesUp.kept dev head net (unasked head List.mem_cons_self) (by rw [unowned]; nofun),
      unowned]

theorem interval_toNat {seconds : Int} (low : 0 ≤ seconds) (high : seconds ≤ 65535) :
    ((interval seconds).toNat : Int) = seconds := by
  rw [interval, UInt16.toNat_ofNat']
  omega

/-- Coherent requests that cover the device make it exact. -/
theorem exact_foldl (takesUp : TakesUp f) (coherent : Coherent requests) (short : Short requests)
    {dev : Device Key Addr Net} (covers : Covers dev requests) :
    Exact (requests.foldl f dev) requests where
  peers key there := by
    by_contra none
    have untouched := (foldl_peer takesUp (s := id)
      (fun r member same => absurd ⟨r, member, same⟩ none) dev).2
      fun r member same => none ⟨r, member, same⟩
    rw [untouched] at there
    exact none (covers.peers key there)
  state r member := by
    have settled := (foldl_peer takesUp (coherent.alike member) dev).1 ⟨r, member, rfl⟩
    obtain ⟨low, high⟩ := short r member
    refine ⟨_, settled, ?_, ?_⟩
    · cases endpoint : r.endpoint with
      | some addr => simp [settle, endpoint]
      | none =>
        have blank : (dev.find r.key).endpoint = none := by
          by_contra filled
          exact covers.endpoint r member filled endpoint
        simp [settle, endpoint, blank]
    · by_cases positive : 0 < r.keepalive
      · simp only [settle, if_pos positive]
        exact interval_toNat low high
      · have zero : r.keepalive = 0 := by omega
        have off : (dev.find r.key).keepalive = 0 := by
          by_contra set
          exact covers.keepalive r member set zero
        simp [settle, zero, off]
  nets r member net := by
    constructor
    · intro owns
      by_contra unasked
      by_cases asked : ∃ r' ∈ requests, net ∈ r'.nets
      · obtain ⟨r', member', inNets⟩ := asked
        have owner := foldl_owner takesUp
          (fun r'' member'' => coherent.nets r' member' r'' member'' net inNets) dev
          (.inl ⟨r', member', rfl⟩)
        rw [owner] at owns
        exact unasked ((coherent.nets r' member' r member net inNets).mpr
          (Option.some.inj owns).symm)
      · have unowned : dev.owner net = none := by
          by_contra owned
          exact asked (covers.nets net owned)
        have stays := foldl_unowned takesUp
          (fun r' member' inNets => asked ⟨r', member', inNets⟩) dev unowned
        rw [stays] at owns
        cases owns
    · intro inNets
      exact foldl_owner takesUp
        (fun r' member' => coherent.nets r member r' member' net inNets) dev (.inl ⟨r, member, rfl⟩)

end folds

section exact
variable {dev : Device Key Addr Net} {requests : List (Requested Key Addr Net)}

theorem Exact.coherent (exact : Exact dev requests) : Coherent requests where
  endpoint r member r' member' same := by
    obtain ⟨kept, found, endpoint, _⟩ := exact.state r member
    obtain ⟨kept', found', endpoint', _⟩ := exact.state r' member'
    rw [same, found'] at found
    cases found
    rw [← endpoint, ← endpoint']
  keepalive r member r' member' same := by
    obtain ⟨kept, found, _, keepalive⟩ := exact.state r member
    obtain ⟨kept', found', _, keepalive'⟩ := exact.state r' member'
    rw [same, found'] at found
    cases found
    rw [← keepalive, ← keepalive']
  nets r member r' member' net inNets := by
    have owner := (exact.nets r member net).mpr inNets
    rw [← exact.nets r' member' net, owner]
    exact ⟨fun same => (Option.some.inj same).symm, fun same => by rw [same]⟩

theorem Exact.short (exact : Exact dev requests) : Short requests := by
  intro r member
  obtain ⟨kept, _, _, keepalive⟩ := exact.state r member
  have bound := UInt16.toNat_lt kept.keepalive
  omega

variable [DecidableEq Key] [DecidableEq Net]

theorem foldl_merge_owner {net : Net} (unasked : ∀ r ∈ requests, net ∉ r.nets) :
    (requests.foldl merge dev).owner net = dev.owner net := by
  induction requests generalizing dev with
  | nil => rfl
  | cons head rest ih =>
    rw [List.foldl_cons, ih fun r member => unasked r (List.mem_cons_of_mem head member),
      merge_owner, if_neg (unasked head List.mem_cons_self)]

/-- What merging does not name again stays, so the requests cover the device. -/
theorem covers_of_exact_merge (exact : Exact (requests.foldl merge dev) requests) :
    Covers dev requests := by
  have settled : ∀ r ∈ requests, ∃ kept, kept = settle r (dev.find r.key) ∧
      kept.endpoint = r.endpoint ∧ (kept.keepalive.toNat : Int) = r.keepalive := by
    intro r member
    obtain ⟨kept, found, same⟩ := exact.state r member
    rw [(foldl_peer takesUp_merge (exact.coherent.alike member) dev).1 ⟨r, member, rfl⟩] at found
    exact ⟨kept, (Option.some.inj found).symm, same⟩
  have peers : ∀ key, (dev.peer key).isSome → ∃ r ∈ requests, r.key = key := by
    intro key there
    by_contra none
    refine none (exact.peers key ?_)
    rwa [(foldl_peer takesUp_merge (s := id)
      (fun r member same => absurd ⟨r, member, same⟩ none) dev).2
      fun r member same => none ⟨r, member, same⟩]
  refine ⟨peers, ?_, ?_, ?_⟩
  · intro r member filled blank
    obtain ⟨kept, rfl, endpoint, _⟩ := settled r member
    rw [settle, blank] at endpoint
    exact filled endpoint
  · intro r member set zero
    obtain ⟨kept, rfl, _, keepalive⟩ := settled r member
    simp only [settle, zero, Int.lt_irrefl, if_false] at keepalive
    exact set (UInt16.toNat_inj.mp (Int.ofNat_inj.mp keepalive))
  · intro net owned
    by_contra unasked
    have stays : (requests.foldl merge dev).owner net = dev.owner net :=
      foldl_merge_owner fun r member inNets => unasked ⟨r, member, inNets⟩
    obtain ⟨key, owner⟩ := Option.ne_none_iff_exists'.mp owned
    obtain ⟨r, member, rfl⟩ := peers key (dev.owned net key owner)
    exact unasked ⟨r, member, (exact.nets r member net).mp (stays.trans owner)⟩

theorem exact_merge_iff (short : Short requests) :
    Exact (requests.foldl merge dev) requests ↔ Coherent requests ∧ Covers dev requests :=
  ⟨fun exact => ⟨exact.coherent, covers_of_exact_merge exact⟩,
    fun ⟨coherent, covers⟩ => exact_foldl takesUp_merge coherent short covers⟩

end exact

section configurations
variable {x : Parsers Key Addr Net} {cfg : WireGuardConfig}

theorem covers_congr {dev base : Device Key Addr Net} {requests : List (Requested Key Addr Net)}
    (peer : base.peer = dev.peer) (owner : base.owner = dev.owner) (covers : Covers base requests) :
    Covers dev requests := by
  have find : ∀ key, base.find key = dev.find key :=
    fun key => by rw [Device.find, peer, Device.find]
  exact ⟨peer ▸ covers.peers, fun r member => find r.key ▸ covers.endpoint r member,
    fun r member => find r.key ▸ covers.keepalive r member, owner ▸ covers.nets⟩

theorem readable_of_valid (valid : validate x (toWireguard cfg 0) = .ok ())
    (literal : Literal x cfg) : ∀ p ∈ cfg.peers, Readable x p :=
  readable_of_checkPeers (of_validate valid).2 literal

theorem keepalive_of_short {peers : List Peer} (readable : ∀ p ∈ peers, Readable x p)
    (short : Short (peers.filterMap (requestedPeer x))) : ∀ p ∈ peers, p.keepalive ≤ 65535 := by
  intro p member
  obtain ⟨r, asks⟩ := Option.isSome_iff_exists.mp (readable p member).asks
  rw [← (of_requestedPeer asks).2.2.2]
  exact (short r (List.mem_filterMap.mpr ⟨p, member, asks⟩)).2

end configurations

/-- The two data planes under the same configurations. There is no userspace device
until one was opened; the kernel interface is there before. -/
structure Planes (Key Addr Net : Type) where
  user : Option (Device Key Addr Net)
  kernel : Device Key Addr Net

section planes
variable [DecidableEq Key] [DecidableEq Net] (x : Parsers Key Addr Net) (listenPort : Int)

/-- The first configuration opens the userspace device, the others are applied to it. -/
def userApply (dev : Option (Device Key Addr Net)) (cfg : WireGuardConfig) :
    Option (Device Key Addr Net) :=
  match dev with
  | none => openUserspace x listenPort cfg
  | some dev => some (userspaceApply x dev cfg)

def Planes.apply (s : Planes Key Addr Net) (cfg : WireGuardConfig) : Planes Key Addr Net :=
  ⟨userApply x listenPort s.user cfg, kernelApply x s.kernel cfg⟩

/-- Both devices have exactly the requested peers. -/
structure Planes.Exact (s : Planes Key Addr Net) (requests : List (Requested Key Addr Net)) :
    Prop where
  user : ∃ dev, s.user = some dev ∧ DataPlanes.Exact dev requests
  kernel : DataPlanes.Exact s.kernel requests

variable {x listenPort} {cfg : WireGuardConfig}

/-- The userspace device merges the requests into what it has, when opened as well as
when it is there. -/
theorem userApply_eq (lawful : x.Lawful) (low : 0 ≤ listenPort) (high : listenPort ≤ 65535)
    (valid : validate x (toWireguard cfg 0) = .ok ()) (literal : Literal x cfg)
    (short : Short (requested x cfg)) (dev : Option (Device Key Addr Net)) :
    ∃ base : Device Key Addr Net, base.peer = (dev.getD .empty).peer ∧
      base.owner = (dev.getD .empty).owner ∧
      userApply x listenPort dev cfg = some ((requested x cfg).foldl merge base) := by
  have readable := readable_of_valid valid literal
  have seconds := keepalive_of_short readable short
  cases dev with
  | none =>
    obtain ⟨lines, rendered⟩ := toIPC_of_validate (validate_listenPort valid low high)
    obtain ⟨base, peer, owner, set⟩ := ipcSet_toIPC lawful rendered readable seconds .empty
    refine ⟨base, peer, owner, ?_⟩
    simp only [userApply, openUserspace, rendered, set]
    rfl
  | some dev =>
    obtain ⟨lines, rendered⟩ := toIPC_of_validate valid
    obtain ⟨base, peer, owner, set⟩ := ipcSet_toIPC lawful rendered readable seconds dev
    refine ⟨base, peer, owner, ?_⟩
    simp only [userApply, userspaceApply, rendered, set]
    rfl

theorem exact_userApply_iff (lawful : x.Lawful) (low : 0 ≤ listenPort) (high : listenPort ≤ 65535)
    (valid : validate x (toWireguard cfg 0) = .ok ()) (literal : Literal x cfg)
    (before : Option (Device Key Addr Net)) :
    (∃ dev, userApply x listenPort before cfg = some dev ∧ Exact dev (requested x cfg)) ↔
      Short (requested x cfg) ∧ Coherent (requested x cfg) ∧
        Covers (before.getD .empty) (requested x cfg) := by
  constructor
  · rintro ⟨dev, applied, exact⟩
    obtain ⟨base, peer, owner, merged⟩ :=
      userApply_eq lawful low high valid literal exact.short before
    rw [merged] at applied
    cases applied
    obtain ⟨coherent, covers⟩ := (exact_merge_iff exact.short).mp exact
    exact ⟨exact.short, coherent, covers_congr peer owner covers⟩
  · rintro ⟨short, coherent, covers⟩
    obtain ⟨base, peer, owner, merged⟩ := userApply_eq lawful low high valid literal short before
    exact ⟨_, merged, (exact_merge_iff short).mpr
      ⟨coherent, covers_congr peer.symm owner.symm covers⟩⟩

/-- The kernel device is exact once it reads a coherent configuration, whatever it had. -/
theorem exact_kernelApply (lawful : x.Lawful) (valid : validate x (toWireguard cfg 0) = .ok ())
    (literal : Literal x cfg) (short : Short (requested x cfg))
    (coherent : Coherent (requested x cfg))
    (reads : KernelReadable x cfg) (dev : Device Key Addr Net) :
    Exact (kernelApply x dev cfg) (requested x cfg) := by
  have readable := readable_of_valid valid literal
  obtain ⟨c, read⟩ := (kernelConfig_ok_iff readable).mpr reads
  obtain ⟨base, peer, owner, configured⟩ := configure_kernelConfig lawful read readable dev
  have covers : Covers base (requested x cfg) :=
    ⟨fun key there => by simp [peer] at there,
      fun r _ filled => by simp [Device.find, peer] at filled,
      fun r _ set => by simp [Device.find, peer] at set, fun net owned => absurd (owner net) owned⟩
  simp only [kernelApply, read, configured]
  exact exact_foldl takesUp_configure coherent short covers

/-- A configuration that the kernel path cannot read changes nothing. -/
theorem kernelApply_unread (readable : ∀ p ∈ cfg.peers, Readable x p)
    (unread : ¬ KernelReadable x cfg) (dev : Device Key Addr Net) :
    kernelApply x dev cfg = dev := by
  cases read : kernelConfig x cfg with
  | error e => rw [kernelApply, read]
  | ok c => exact absurd ((kernelConfig_ok_iff readable).mp ⟨c, read⟩) unread

/-- After any configurations, both devices have exactly the peers of the last one if and only if
its peers do not contradict each other, its keepalives fit, it asks again for everything on the
userspace device, and the kernel path reads its texts or the kernel device has its peers already.
-/
theorem planes_exact_iff (lawful : x.Lawful) (low : 0 ≤ listenPort) (high : listenPort ≤ 65535)
    (interface : Device Key Addr Net) (earlier : List WireGuardConfig) (last : WireGuardConfig)
    (valid : validate x (toWireguard last 0) = .ok ()) (literal : Literal x last) :
    let before := Run.run (Planes.apply x listenPort) ⟨none, interface⟩ earlier
    (Run.run (Planes.apply x listenPort) ⟨none, interface⟩ (earlier ++ [last])).Exact
        (requested x last) ↔
      Coherent (requested x last) ∧ Short (requested x last) ∧
        Covers (before.user.getD .empty) (requested x last) ∧
        (KernelReadable x last ∨ Exact before.kernel (requested x last)) := by
  intro before
  rw [Run.run_snoc]
  have user := exact_userApply_iff lawful low high valid literal before.user
  have unread := kernelApply_unread (readable_of_valid valid literal)
  constructor
  · intro ⟨userExact, kernelExact⟩
    obtain ⟨short, coherent, covers⟩ := user.mp userExact
    refine ⟨coherent, short, covers, ?_⟩
    by_cases reads : KernelReadable x last
    · exact .inl reads
    · exact .inr (unread reads before.kernel ▸ kernelExact)
  · intro ⟨coherent, short, covers, kernel⟩
    refine ⟨user.mpr ⟨short, coherent, covers⟩, ?_⟩
    change Exact (kernelApply x before.kernel last) (requested x last)
    by_cases reads : KernelReadable x last
    · exact exact_kernelApply lawful valid literal short coherent reads before.kernel
    · rw [unread reads]
      exact kernel.resolve_left reads

end planes

section instances

theorem covers_empty (requests : List (Requested Key Addr Net)) : Covers .empty requests :=
  ⟨nofun, fun _ _ filled => absurd rfl filled, fun _ _ set => absurd rfl set,
    fun _ owned => absurd rfl owned⟩

theorem coherent_single (r : Requested Key Addr Net) : Coherent [r] := by
  constructor <;> simp

/-- Requests that ask again for everything of the exact requests before them. -/
theorem Exact.covers_single {dev : Device Key Addr Net} {old new : Requested Key Addr Net}
    (exact : Exact dev [old]) (key : new.key = old.key) (endpoint : new.endpoint ≠ none)
    (keepalive : new.keepalive ≠ 0) (nets : ∀ net ∈ old.nets, net ∈ new.nets) :
    Covers dev [new] where
  peers other there := by
    obtain ⟨r, member, same⟩ := exact.peers other there
    rw [List.mem_singleton.mp member] at same
    exact ⟨new, List.mem_singleton_self new, key.trans same⟩
  endpoint r member _ := List.mem_singleton.mp member ▸ endpoint
  keepalive r member _ := List.mem_singleton.mp member ▸ keepalive
  nets net owned := by
    obtain ⟨owner, owns⟩ := Option.ne_none_iff_exists'.mp owned
    obtain ⟨r, member, same⟩ := exact.peers owner (dev.owned net owner owns)
    rw [← same, exact.nets r member net, List.mem_singleton.mp member] at owns
    exact ⟨new, List.mem_singleton_self new, nets net owns⟩

/-- A text without blanks around it is read as it stands. -/
def plain (text : String) : Except String String :=
  if GoText.trimSpace text = text ∧ text ≠ "" then .ok text else .error "blank"

def plainParsers : Parsers String String String where
  decodeKey := plain
  parsePrefix := plain
  isIP _ := true
  splitHostPort text := some (text, "51820")
  atoi _ := some 51820
  parseEndpoint := some
  resolveUDPAddr := plain

theorem of_plain {text read : String} (ok : plain text = .ok read) :
    read = text ∧ GoText.trimSpace text = text ∧ text ≠ "" := by
  unfold plain at ok
  split at ok
  · next whole =>
    cases ok
    exact ⟨rfl, whole⟩
  · cases ok

theorem lawful_of_plain {x : Parsers String String String} (keys : x.decodeKey = plain)
    (nets : x.parsePrefix = plain) (resolves : x.resolveUDPAddr = plain)
    (spells : x.parseEndpoint = some) : x.Lawful where
  prefix_plain text net ok := (of_plain (nets ▸ ok)).2.1
  key_trim text key ok := by
    rw [keys] at ok ⊢
    rwa [(of_plain ok).2.1]
  resolve_literal text addr literal ok spelled := by
    rw [resolves] at ok
    rw [spells, (of_plain ok).2.1] at spelled
    exact (of_plain ok).1.trans (Option.some.inj spelled)
  resolve_blank text addr _ ok empty := by
    rw [resolves] at ok
    exact (of_plain ok).2.2 ((of_plain ok).2.1.symm.trans empty)

theorem plainParsers_lawful : plainParsers.Lawful := by
  apply lawful_of_plain <;> simp only [plainParsers]

/-- The same peer at another endpoint, with one network more. -/
def moved : WireGuardConfig :=
  ⟨keyText 'k', [], [], [⟨keyText 'a', "1.2.3.5:1", ["10.0.0.0/8", "11.0.0.0/8"], 25⟩]⟩

def twoPeers : WireGuardConfig :=
  { onePeer with peers := onePeer.peers ++ [⟨keyText 'b', "1.2.3.5:1", [], 0⟩] }

theorem literal_plainParsers (cfg : WireGuardConfig) : Literal plainParsers cfg :=
  fun _ _ _ => rfl

/-- An endpoint changed and a network added: both devices follow. -/
theorem exact_after_move :
    (Run.run (Planes.apply plainParsers 0) ⟨none, .empty⟩ ([onePeer] ++ [moved])).Exact
      (requested plainParsers moved) := by
  have first : requested plainParsers onePeer =
      [⟨keyText 'a', some "1.2.3.4:1", ["10.0.0.0/8"], 25⟩] := by decide +kernel
  have second : requested plainParsers moved =
      [⟨keyText 'a', some "1.2.3.5:1", ["10.0.0.0/8", "11.0.0.0/8"], 25⟩] := by decide +kernel
  have opened : ∃ dev, userApply plainParsers 0 none onePeer = some dev ∧
      Exact dev (requested plainParsers onePeer) := by
    refine (exact_userApply_iff plainParsers_lawful (Int.le_refl 0) (by decide) (by decide +kernel)
      (literal_plainParsers onePeer) none).mpr ⟨?_, ?_, covers_empty _⟩
    · rw [first]
      simp [Short]
    · rw [first]
      exact coherent_single _
  obtain ⟨dev, there, exact⟩ := opened
  have before : (Run.run (Planes.apply plainParsers 0) ⟨none, .empty⟩ [onePeer]).user = some dev :=
    there
  refine (planes_exact_iff plainParsers_lawful (Int.le_refl 0) (by decide) .empty [onePeer] moved
    (by decide +kernel) (literal_plainParsers moved)).mpr
    ⟨?_, ?_, ?_, .inl ⟨by decide +kernel, by decide +kernel, by decide +kernel⟩⟩
  · rw [second]
    exact coherent_single _
  · rw [second]
    simp [Short]
  · rw [before, Option.getD_some, second]
    rw [first] at exact
    exact exact.covers_single rfl (by simp) (by decide) (by simp)

/-- A peer that the second configuration drops stays on the userspace device. -/
theorem dropped_peer_stays :
    ¬ (Run.run (Planes.apply plainParsers 0) ⟨none, .empty⟩ ([twoPeers] ++ [onePeer])).Exact
      (requested plainParsers onePeer) := by
  rintro ⟨⟨dev, there, exact⟩, _⟩
  have kept : ((Run.run (Planes.apply plainParsers 0) ⟨none, .empty⟩
      ([twoPeers] ++ [onePeer])).user.map fun dev => (dev.peer (keyText 'b')).isSome) =
      some true := by decide +kernel
  rw [there] at kept
  obtain ⟨r, member, same⟩ := exact.peers (keyText 'b') (Option.some.inj kept)
  have asked : keyText 'b' ∈ (requested plainParsers onePeer).map Requested.key :=
    List.mem_map.mpr ⟨r, member, same⟩
  revert asked
  decide +kernel

end instances

end VeilNet.Guarantees.DataPlanes
