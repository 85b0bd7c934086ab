import VeilNet.Source.Registry.Store
import VeilNet.Lib.Run

/-!
# Identity continuity of the registry

A store that starts empty takes any calls, and saving and mirroring may fail at any of them. Each
stored node stays the one that its pinned operator key has announced, up to price and status,
which the local operator may change.
-/
namespace VeilNet.Guarantees.RegistryIdentity
open Lib Source.Registry

/-- The store and its file, and the announcements presented so far. -/
structure World (F : Type) where
  store : Store F
  disk : Disk
  seen : List Announcement

/-- A call, and how its file calls and its mirror end. -/
structure Op (F : Type) where
  call : Call F
  out : Outcomes

def presented {F : Type} : Call F → List Announcement
  | .register a | .update a => [a]
  | .disable _ | .setPrice .. => []

section model
variable {F : Type} (codec : Codec F)

/-- `n` is what `key` announced in one of `seen`, up to the price and the status.
`signed key payload` says that the holder of the key has signed the payload. -/
def Announces (signed : List UInt8 → List UInt8 → Prop) (seen : List Announcement)
    (key : List UInt8) (n : Node F) : Prop :=
  ∃ a ∈ seen, a.operatorKey = key ∧ signed key a.payload ∧
    ∃ m, codec.unmarshalNode a.payload = .ok m ∧
      n = { m with pricePerHourDERO := n.pricePerHourDERO, status := n.status }

variable [GoFloat F]

def step (w : World F) (op : Op F) : World F :=
  let (_, store, disk) := perform codec op.out w.store w.disk op.call
  ⟨store, disk, presented op.call ++ w.seen⟩

def start (path : String) (mirror : Bool) (minBond : F) (disk : Disk) : World F :=
  ⟨newStore path mirror minBond, disk, []⟩

structure Continuous (signed : List UInt8 → List UInt8 → Prop) (w : World F) : Prop where
  keys : ∀ id, id ∈ w.store.nodes ↔ id ∈ w.store.opKeys
  named : ∀ id n, w.store.nodes.lookup id = some n → n.nodeID = id
  valid : ∀ id n, w.store.nodes.lookup id = some n → codec.validate n w.store.minBond = .ok ()
  announced : ∀ id n key, w.store.nodes.lookup id = some n → w.store.opKeys.lookup id = some key →
    Announces codec signed w.seen key n

end model

section steps
variable {F : Type} {codec : Codec F} {signed : List UInt8 → List UInt8 → Prop}

variable {seen : List Announcement} {key : List UInt8} {n : Node F}

theorem Announces.mono {seen' : List Announcement}
    (h : Announces codec signed seen key n) (more : ∀ a ∈ seen, a ∈ seen') :
    Announces codec signed seen' key n := by
  obtain ⟨a, member, facts⟩ := h
  exact ⟨a, more a member, facts⟩

variable {s : Store F} {op : List UInt8} {id : String}

theorem put_pins
    (pinned : s.opKeys.lookup id = some key) : (s.put n op).opKeys.lookup id = some key := by
  unfold Store.put
  dsimp only
  split
  · exact pinned
  · next unpinned =>
    have other : id ≠ n.nodeID := by
      rintro rfl
      rw [pinned] at unpinned
      exact unpinned rfl
    rw [AList.lookup_insert_ne other]
    exact pinned

theorem put_others (id : String)
    (other : id ≠ n.nodeID) : (s.put n op).opKeys.lookup id = s.opKeys.lookup id := by
  unfold Store.put
  dsimp only
  split
  · rfl
  · exact AList.lookup_insert_ne other

variable [GoFloat F]

variable {w : World F}

theorem step_pins {op : Op F} (pinned : w.store.opKeys.lookup id = some key) :
    (step codec w op).store.opKeys.lookup id = some key := by
  change (perform codec op.out w.store w.disk op.call).2.1.opKeys.lookup id = some key
  rcases perform_store op.out w.store w.disk op.call with ⟨e, _, same⟩ | ⟨n, s', reached, changed⟩
  · rw [same]
    exact pinned
  · rw [changed]
    rcases locked_cases reached with ⟨a, operator, _, _, _, rfl, _⟩ | ⟨nodeID, old, _, rfl, _⟩
    · exact put_pins pinned
    · exact pinned

theorem run_pins {ops : List (Op F)} (pinned : w.store.opKeys.lookup id = some key) :
    (Run.run (step codec) w ops).store.opKeys.lookup id = some key := by
  induction ops generalizing w with
  | nil => exact pinned
  | cons op rest ih => exact ih (step_pins pinned)

/-- After `put`, the announcing key is the pinned one: it was before, or there was no
pin. -/
theorem Continuous.put_pinned (h : Continuous codec signed w)
    (continues : (w.store.nodes.lookup n.nodeID).isSome →
      w.store.checkKeyContinuity n op = .ok ()) :
    (w.store.put n op).opKeys.lookup n.nodeID = some op := by
  cases pinned : w.store.opKeys.lookup n.nodeID with
  | none => simp [Store.put, pinned]
  | some key =>
    have known : (w.store.nodes.lookup n.nodeID).isSome := by
      rw [AList.lookup_isSome, h.keys, ← AList.lookup_isSome, pinned]
      rfl
    have same := continues known
    rw [Store.checkKeyContinuity, pinned] at same
    have eq : key = op := not_not.mp (Outcome.of_refuseIf_ok same)
    rw [put_pins pinned, eq]

theorem continuous_start (path : String) (mirror : Bool) (minBond : F) (disk : Disk) :
    Continuous codec signed (start path mirror minBond disk) := by
  constructor
  · intro id
    exact iff_of_false (AList.notMem_empty id) (AList.notMem_empty id)
  · intro id n found
    cases found
  · intro id n found
    cases found
  · intro id n key found
    cases found

/-- One node is stored, and its pinned key has announced it; the other nodes and pins
are left. -/
theorem Continuous.replace (cont : Continuous codec signed w)
    (nodes : s.nodes = w.store.nodes.insert id n) (bond : s.minBond = w.store.minBond)
    (pinned : s.opKeys.lookup id = some key)
    (others : ∀ id', id' ≠ id → s.opKeys.lookup id' = w.store.opKeys.lookup id')
    (named : n.nodeID = id) (valid : Valid codec n w.store.minBond)
    (announces : Announces codec signed seen key n) (more : ∀ a ∈ w.seen, a ∈ seen) (disk : Disk) :
    Continuous codec signed ⟨s, disk, seen⟩ := by
  have entries : ∀ id' n', s.nodes.lookup id' = some n' →
      (id' = id ∧ n' = n) ∨ (id' ≠ id ∧ w.store.nodes.lookup id' = some n') := by
    intro id' n' found
    rw [nodes] at found
    exact GoMap.lookup_insert_cases found
  constructor
  · intro id'
    by_cases same : id' = id
    · have pin : id ∈ s.opKeys := AList.lookup_isSome.mp (by rw [pinned]; rfl)
      rw [same, nodes, AList.mem_insert]
      exact iff_of_true (.inl rfl) pin
    · rw [← AList.lookup_isSome (s := s.opKeys), others id' same, AList.lookup_isSome, ← cont.keys,
        nodes, AList.mem_insert]
      exact or_iff_right same
  · intro id' n' found
    rcases entries id' n' found with ⟨rfl, rfl⟩ | ⟨_, old⟩
    · exact named
    · exact cont.named id' n' old
  · intro id' n' found
    rw [bond]
    rcases entries id' n' found with ⟨_, rfl⟩ | ⟨_, old⟩
    · exact validate_ok_iff.mpr valid
    · exact cont.valid id' n' old
  · intro id' n' key' found pinned'
    rcases entries id' n' found with ⟨rfl, rfl⟩ | ⟨other, old⟩
    · cases pinned.symm.trans pinned'
      exact announces
    · rw [others id' other] at pinned'
      exact (cont.announced id' n' key' old pinned').mono more

/-- The local operator changes the price or the status of a stored node. -/
theorem Continuous.change (cont : Continuous codec signed w)
    {old : Node F} (found : w.store.nodes.lookup id = some old)
    (valid : Valid codec n w.store.minBond)
    (same : n = { old with pricePerHourDERO := n.pricePerHourDERO, status := n.status })
    (more : ∀ a ∈ w.seen, a ∈ seen) (disk : Disk) :
    Continuous codec signed ⟨{ w.store with nodes := w.store.nodes.insert id n }, disk, seen⟩ := by
  have stored : id ∈ w.store.nodes := AList.lookup_isSome.mp (by rw [found]; rfl)
  obtain ⟨key, pinned⟩ := Option.isSome_iff_exists.mp
    (AList.lookup_isSome.mpr ((cont.keys id).mp stored))
  obtain ⟨a, member, byKey, isSigned, m, decoded, fields⟩ := cont.announced id old key found pinned
  have named : n.nodeID = id := by
    rw [same]
    exact cont.named id old found
  have announces : Announces codec signed seen key n := by
    refine ⟨a, more a member, byKey, isSigned, m, decoded, ?_⟩
    rw [same, fields]
  exact cont.replace (s := { w.store with nodes := w.store.nodes.insert id n }) rfl rfl pinned
    (fun _ _ => rfl) named valid announces more disk

theorem Continuous.step (unforgeable : ∀ key payload signature,
      codec.ed25519Verify key payload signature = true → signed key payload)
      (cont : Continuous codec signed w) (op : Op F) :
    Continuous codec signed (step codec w op) := by
  change Continuous codec signed ⟨(perform codec op.out w.store w.disk op.call).2.1,
    (perform codec op.out w.store w.disk op.call).2.2, presented op.call ++ w.seen⟩
  have more : ∀ a ∈ w.seen, a ∈ presented op.call ++ w.seen := fun a => List.mem_append_right _
  rcases perform_store op.out w.store w.disk op.call with ⟨e, _, same⟩ | ⟨n, s, reached, changed⟩
  · rw [same]
    exact ⟨cont.keys, cont.named, cont.valid,
      fun id n key found pinned => (cont.announced id n key found pinned).mono more⟩
  · rw [changed]
    rcases locked_cases reached with
      ⟨a, key, called, verified, valid, rfl, continues⟩ | ⟨nodeID, old, found, rfl, changes⟩
    · -- a verified announcement, of a new node or with the pinned key
      obtain ⟨rfl, checked, decoded⟩ := verify_ok verified
      have isPresented : a ∈ presented op.call ++ w.seen := by
        rcases called with called | called
        · simp [called, presented]
        · simp [called, presented]
      exact cont.replace (s := w.store.put n a.operatorKey) rfl rfl (cont.put_pinned continues)
        put_others rfl valid
        ⟨a, isPresented, rfl, unforgeable _ _ _ checked, n, decoded, rfl⟩ more _
    · have before := validate_ok_iff.mp (cont.valid nodeID old found)
      rcases changes with rfl | ⟨price, priced, rfl⟩
      · exact cont.change found before.disabled rfl more _
      · exact cont.change found (before.priced priced) rfl more _

end steps

/-- In every state of every run: nodes and pins have the same IDs, each node stands under its ID,
passes `Validate`, and was announced under a signature of its pinned key up to price and status;
and a pin, once set, stays. -/
theorem identity_continuity {F : Type} [GoFloat F] (codec : Codec F)
    (signed : List UInt8 → List UInt8 → Prop) (unforgeable : ∀ key payload signature,
      codec.ed25519Verify key payload signature = true → signed key payload)
    (path : String) (mirror : Bool) (minBond : F) (disk : Disk) (ops : List (Op F)) :
    Run.Throughout (step codec) (Continuous codec signed) (start path mirror minBond disk) ops ∧
    ∀ front back, ops = front ++ back → ∀ id key,
      (Run.run (step codec) (start path mirror minBond disk) front).store.opKeys.lookup id =
        some key →
      (Run.run (step codec) (start path mirror minBond disk) ops).store.opKeys.lookup id =
        some key := by
  constructor
  · exact Run.throughout_of_step (continuous_start path mirror minBond disk)
      fun w op cont => cont.step unforgeable op
  · rintro front back rfl id key pinned
    rw [Run.run_append]
    exact run_pins pinned

section sample

def sampleNode : Node ℚ :=
  { nodeID := "n", wgPubKey := "wg", region := "", country := "", city := "", endpoint := "h:1",
    pricePerHourDERO := 1, capacityMaxClients := 5, protocolVersion := 1, bondDERO := 20,
    status := statusActive, version := "1" }

/-- One payload, which every key has signed; the nodes are never encoded, so that no
save succeeds. -/
def sampleCodec : Codec ℚ where
  decodeStd _ := .ok (List.replicate 32 0)
  decodeRawURL _ := .error "illegal base64 data"
  splitHostPort _ := .ok ("h", "1")
  ed25519Verify _ payload _ := payload == [1]
  unmarshalNode _ := .ok sampleNode
  marshalNodes _ := .error "json: unsupported value"

def allFine : Outcomes := ⟨.ok (), .ok (), .ok (), .ok ()⟩

def announcement (key : UInt8) : Announcement :=
  ⟨[1], List.replicate 64 0, List.replicate 32 key⟩

/-- A node is registered and changed; another key tries to take it over. -/
def takeover : List (Op ℚ) :=
  [ ⟨.register (announcement 7), allFine⟩, ⟨.register (announcement 8), allFine⟩,
    ⟨.setPrice "n" 2, allFine⟩, ⟨.update (announcement 8), allFine⟩, ⟨.disable "n", allFine⟩ ]

theorem takeover_keeps_identity :
    (Run.run (step sampleCodec) (start "nodes.json" false 10 ⟨none, none⟩)
      takeover).store.nodes.lookup
        "n" = some { sampleNode with pricePerHourDERO := 2, status := statusDisabled } ∧
    (Run.run (step sampleCodec) (start "nodes.json" false 10 ⟨none, none⟩)
      takeover).store.opKeys.lookup "n" = some (List.replicate 32 7) ∧
    Run.Throughout (step sampleCodec) (Continuous sampleCodec fun _ payload => payload = [1])
      (start "nodes.json" false 10 ⟨none, none⟩) takeover := by
  have continuity := identity_continuity sampleCodec (fun _ payload => payload = [1])
    (fun _ _ _ verified => by simpa [sampleCodec] using verified) "nodes.json" false 10 ⟨none, none⟩
    takeover
  refine ⟨by decide, ?_, continuity.1⟩
  exact continuity.2 (takeover.take 1) (takeover.drop 1) rfl "n" _ (by decide)

end sample

end VeilNet.Guarantees.RegistryIdentity
