import VeilNet.Source.Nodes.Controller

/-!
What the controller's effects do outside it: to the peers of the WireGuard device
(`internal/nodes/wireguard.go`) and to the client rows of the sqlite store
(`internal/nodes/store.go`). Both outlive the controller. A peer is its key and allowed address,
a row its fields; failures of the store are left out.
-/
namespace VeilNet.Source.Nodes
open Lib

section peers
variable {κ ν : Type} [DecidableEq κ] (keyOf : String → κ) (tag : String → ν)

/-- The peer map after one effect. `keyOf` reads a public key, so that several texts may stand for
one key; `tag` is what is kept for a peer with the given allowed address. -/
def applyPeer (peers : GoMap κ ν) : Effect → GoMap κ ν
  | .addPeer publicKey allowedIP _ _ => peers.insert (keyOf publicKey) (tag allowedIP)
  | .removePeer publicKey => peers.erase (keyOf publicKey)
  | .upsertClient _ | .bumpSessionsToday _ | .revokeClient _ => peers

def applyPeers (effects : List Effect) (peers : GoMap κ ν) : GoMap κ ν :=
  effects.foldl (applyPeer keyOf tag) peers

theorem applyPeers_served (c : Controller) (clientPubkey assigned endpoint : String)
    (row : ClientRow) (now : Time) (peers : GoMap κ ν) :
    applyPeers keyOf tag
        (.addPeer clientPubkey assigned endpoint 25 ::
          c.stored [.upsertClient row, .bumpSessionsToday now]) peers =
      peers.insert (keyOf clientPubkey) (tag assigned) := by
  unfold Controller.stored
  split <;> rfl

theorem applyPeers_dropped (c : Controller) (clientPubkey tokenID : String) (peers : GoMap κ ν) :
    applyPeers keyOf tag (.removePeer clientPubkey :: c.stored [.revokeClient tokenID]) peers =
      peers.erase (keyOf clientPubkey) := by
  unfold Controller.stored
  split <;> rfl

/-- A sweep deletes the peers of the evicted sessions, and no other. -/
theorem lookup_applyPeers_expired (c : Controller) (gone : List Sessions.Session)
    (peers : GoMap κ ν) (k : κ) :
    (applyPeers keyOf tag (gone.flatMap c.onSessionExpired) peers).lookup k =
      if k ∈ gone.map (keyOf ·.clientPubkey) then none else peers.lookup k := by
  induction gone generalizing peers with
  | nil => rfl
  | cons s rest ih =>
    have head : applyPeers keyOf tag (c.onSessionExpired s) peers =
        peers.erase (keyOf s.clientPubkey) :=
      applyPeers_dropped keyOf tag c s.clientPubkey s.tokenID peers
    have split : applyPeers keyOf tag ((s :: rest).flatMap c.onSessionExpired) peers =
        applyPeers keyOf tag (rest.flatMap c.onSessionExpired)
          (applyPeers keyOf tag (c.onSessionExpired s) peers) := by
      rw [List.flatMap_cons, applyPeers, List.foldl_append]
      rfl
    rw [split, head, ih]
    by_cases same : k = keyOf s.clientPubkey
    · subst same
      simp
    · simp [same]

end peers

section rows

/-- A row of `authorized_clients` as it is stored. -/
structure StoredRow where
  client : ClientRow
  revoked : Bool

/-- Instants are stored as Unix seconds. -/
def wholeSeconds (t : Time) : Time := t / 1000000000 * 1000000000

/-- The rows after one effect. `UpsertClient` replaces a row but keeps its creation
time; `RevokeClient` marks the row, if there is one. -/
def applyRow (rows : GoMap String StoredRow) : Effect → GoMap String StoredRow
  | .upsertClient row =>
    let createdAt := match rows.lookup row.tokenID with
      | none => wholeSeconds row.createdAt
      | some old => old.client.createdAt
    rows.insert row.tokenID
      ⟨{ row with expiresAt := wholeSeconds row.expiresAt, createdAt }, false⟩
  | .revokeClient tokenID =>
    match rows.lookup tokenID with
    | none => rows
    | some old => rows.insert tokenID { old with revoked := true }
  | .addPeer .. | .removePeer _ | .bumpSessionsToday _ => rows

def applyRows (effects : List Effect) (rows : GoMap String StoredRow) : GoMap String StoredRow :=
  effects.foldl applyRow rows

theorem lookup_revokeClient (rows : GoMap String StoredRow) (tokenID id : String) :
    (applyRow rows (.revokeClient tokenID)).lookup id =
      (rows.lookup id).map fun r => if id = tokenID then { r with revoked := true } else r := by
  unfold applyRow
  by_cases same : id = tokenID
  · subst same
    cases found : rows.lookup id with
    | none => simp [found]
    | some old => simp [found]
  · cases found : rows.lookup tokenID with
    | none => simp [found, same]
    | some old => simp [found, same, AList.lookup_insert_ne same]

/-- A sweep marks the rows of the evicted sessions, if there is a store. -/
theorem lookup_applyRows_expired (c : Controller) (gone : List Sessions.Session)
    (rows : GoMap String StoredRow) (id : String) :
    (applyRows (gone.flatMap c.onSessionExpired) rows).lookup id =
      (rows.lookup id).map fun r =>
        if c.db ∧ id ∈ gone.map (·.tokenID) then { r with revoked := true } else r := by
  induction gone generalizing rows with
  | nil => simp [applyRows]
  | cons s rest ih =>
    have head : (applyRows (c.onSessionExpired s) rows).lookup id =
        (rows.lookup id).map fun r =>
          if c.db ∧ id = s.tokenID then { r with revoked := true } else r := by
      unfold Controller.onSessionExpired Controller.stored
      cases store : c.db with
      | false => simp [applyRows, applyRow]
      | true =>
        simp only [true_and, ↓reduceIte]
        exact lookup_revokeClient rows s.tokenID id
    rw [List.flatMap_cons, applyRows, List.foldl_append, ← applyRows, ← applyRows, ih, head,
      Option.map_map]
    congr 1
    funext r
    by_cases same : id = s.tokenID
    · cases c.db <;> simp [same]
    · simp [same]

/-- An upsert makes the row of its token active; the other rows stay. -/
theorem lookup_upsertClient (rows : GoMap String StoredRow) (row : ClientRow) {id : String}
    (other : id ≠ row.tokenID) :
    (applyRow rows (.upsertClient row)).lookup id = rows.lookup id :=
  AList.lookup_insert_ne other

/-- The rows that are not revoked, by creation time; rows of one second come in any order. -/
def listActive (order : RangeOrder) (rows : GoMap String StoredRow) : List ClientRow :=
  (((order.visit (GoMap.values rows)).filter (!·.revoked)).map (·.client)).mergeSort
    fun a b => decide (a.createdAt ≤ b.createdAt)

theorem mem_listActive {order : RangeOrder} {rows : GoMap String StoredRow} {row : ClientRow} :
    row ∈ listActive order rows ↔ ∃ id, rows.lookup id = some ⟨row, false⟩ := by
  simp only [listActive, List.mem_mergeSort, List.mem_map, List.mem_filter, RangeOrder.mem_visit,
    GoMap.mem_values, Bool.not_eq_true']
  constructor
  · rintro ⟨⟨client, revoked⟩, ⟨⟨id, found⟩, rfl⟩, rfl⟩
    exact ⟨id, found⟩
  · rintro ⟨id, found⟩
    exact ⟨_, ⟨⟨id, found⟩, rfl⟩, rfl⟩

/-- `Time.Unix`: the number that stands for an instant in the table. -/
def unixSeconds (t : ℤ) : ℤ := t / 1000000000 - 62135596800

/-- `revoked=0 AND (expires_at=0 OR expires_at>?)`. -/
def StoredRow.counted (now : Time) (r : StoredRow) : Bool :=
  !r.revoked && (unixSeconds r.client.expiresAt = 0 ||
    unixSeconds r.client.expiresAt > unixSeconds now)

def countActive (now : Time) (rows : GoMap String StoredRow) : ℕ :=
  (GoMap.values rows).countP (StoredRow.counted now)

end rows

end VeilNet.Source.Nodes
