import VeilNet.Source.Nodes.Blocklist

/-!
# The blocklist after a restart

Loading the file normalises the saved keys once more. Addresses are kept; the key of another text,
`invalid:` and the text, is read as a host with a port or gets the same start again, so that the
text is no longer found.
-/
namespace VeilNet.Guarantees.BlocklistRestart
open Lib Source.Nodes

structure World (Data : Type) where
  list : Blocklist
  disk : GoMap String Data

inductive Op where
  | blockIP (ip : String) (order order' : RangeOrder)
  | unblockIP (ip : String) (order order' : RangeOrder)
  | blockPubkey (pubkey : String) (order order' : RangeOrder)
  | unblockPubkey (pubkey : String) (order order' : RangeOrder)
  | restart

section runs
variable {Data : Type} (marshal : SavedBlocklist → Data)
  (unmarshal : Data → Except String SavedBlocklist) (defaultPath : String)

def start (Data : Type) (defaultPath path : String) : World Data :=
  ⟨⟨∅, ∅, blocklistPath defaultPath path⟩, ∅⟩

def World.load (w : World Data) : Except BlockError Blocklist :=
  newBlocklist unmarshal defaultPath w.list.path fun path =>
    match w.disk.lookup path with
    | some data => .found data
    | none => .notExist

/-- The list after a change, which is written to its file. -/
def World.saving (w : World Data) (order order' : RangeOrder) (b : Blocklist) : World Data :=
  ⟨b, w.disk.insert b.path (marshal (b.saved order order'))⟩

def step (w : World Data) : Op → World Data
  | .blockIP ip order order' =>
    match w.list.blockIP ip with
    | .error _ => w
    | .ok b => w.saving marshal order order' b
  | .unblockIP ip order order' => w.saving marshal order order' (w.list.unblockIP ip)
  | .blockPubkey pubkey order order' =>
    match w.list.blockPubkey pubkey with
    | .error _ => w
    | .ok b => w.saving marshal order order' b
  | .unblockPubkey pubkey order order' =>
    w.saving marshal order order' (w.list.unblockPubkey pubkey)
  | .restart =>
    match w.load unmarshal defaultPath with
    | .error _ => w
    | .ok b => ⟨b, w.disk⟩

/-- A list newly loaded from the file answers as the one in memory. -/
def SameAnswers (w : World Data) : Prop :=
  ∃ loaded, w.load unmarshal defaultPath = .ok loaded ∧
    ∀ x, loaded.isBlockedIP x = w.list.isBlockedIP x ∧
      loaded.isBlockedPubkey x = w.list.isBlockedPubkey x

/-- What is blocked is an address, with or without a port, or the text `invalid`. -/
def Readable (_ : World Data) : Op → Prop
  | .blockIP ip _ _ =>
    ip = "" ∨ (GoAddr.parseIP (hostText ip)).isSome = true ∨ hostText ip = "invalid"
  | _ => True

end runs

section maps

theorem isBlockedIP_iff {b : Blocklist} (marked : ∀ k v, b.ips.lookup k = some v → v = true)
    (x : String) : b.isBlockedIP x = true ↔ normalizeIP goNet x ∈ b.ips := by
  rw [Blocklist.isBlockedIP, ← AList.lookup_isSome]
  cases found : b.ips.lookup (normalizeIP goNet x) with
  | none => simp
  | some v => simp [marked _ v found]

theorem isBlockedPubkey_iff (b : Blocklist) (x : String) :
    b.isBlockedPubkey x = true ↔ x ∈ b.pubkeys := by
  rw [Blocklist.isBlockedPubkey, List.any_eq_true]
  constructor
  · intro found
    obtain ⟨k, member, same⟩ := found
    rw [← GoText.utf8_injective (eq_of_beq same)]
    exact AList.mem_keys.mp member
  · intro member
    exact ⟨x, AList.mem_keys.mpr member, beq_self_eq_true _⟩

theorem mem_keys_visit (order : RangeOrder) (m : GoMap String Bool) (k : String) :
    k ∈ (order.visit m.entries).map (·.1) ↔ k ∈ m :=
  ((order.perm m.entries).map _).mem_iff

theorem mem_foldl_insert {α : Type} (key : α → String) (l : List α) (k : String) :
    k ∈ l.foldl (fun m a => m.insert (key a) true) (∅ : GoMap String Bool) ↔ k ∈ l.map key := by
  rw [← AList.lookup_isSome, GoMap.lookup_foldl_insert]
  split
  · next member => simp [member]
  · next absent => simp [absent]

theorem mem_entered_ips (saved : SavedBlocklist) (path k : String) :
    k ∈ (saved.entered path).ips ↔ ∃ ip ∈ saved.ips, normalizeIP goNet ip = k :=
  (mem_foldl_insert (normalizeIP goNet) saved.ips k).trans List.mem_map

theorem mem_entered_pubkeys (saved : SavedBlocklist) (path k : String) :
    k ∈ (saved.entered path).pubkeys ↔ k ∈ saved.pubkeys := by
  have entered := mem_foldl_insert (fun k : String => k) saved.pubkeys k
  rwa [List.map_id'] at entered

theorem marked_entered (saved : SavedBlocklist) (path : String) :
    ∀ k v, (saved.entered path).ips.lookup k = some v → v = true := by
  intro k v found
  rw [SavedBlocklist.entered, GoMap.lookup_foldl_insert] at found
  split at found
  · exact (Option.some.inj found).symm
  · rw [AList.lookup_empty] at found
    cases found

end maps

section steps
variable {Data : Type} {marshal : SavedBlocklist → Data}
  {unmarshal : Data → Except String SavedBlocklist} {defaultPath : String} {w : World Data}

def Filed (unmarshal : Data → Except String SavedBlocklist) (defaultPath : String)
    (w : World Data) : Prop :=
  ∃ saved : SavedBlocklist, w.load unmarshal defaultPath = .ok (saved.entered w.list.path) ∧
    (∀ k, k ∈ saved.ips ↔ k ∈ w.list.ips) ∧ ∀ k, k ∈ saved.pubkeys ↔ k ∈ w.list.pubkeys

/-- The file holds the keys of the list, and the keys of addresses are read back as
themselves. -/
structure Kept (unmarshal : Data → Except String SavedBlocklist) (defaultPath : String)
    (w : World Data) : Prop where
  path : blocklistPath defaultPath w.list.path = w.list.path
  marked : ∀ k v, w.list.ips.lookup k = some v → v = true
  fixed : ∀ k ∈ w.list.ips, normalizeIP goNet k = k
  filed : Filed unmarshal defaultPath w

theorem kept_start (path : String) : Kept unmarshal defaultPath (start Data defaultPath path) := by
  have resolved : blocklistPath defaultPath (blocklistPath defaultPath path) =
      blocklistPath defaultPath path := by
    unfold blocklistPath
    split
    · exact ite_self _
    · rfl
  refine ⟨resolved, fun k v found => ?_, fun k member => absurd member (AList.notMem_empty k), ?_⟩
  · rw [start, AList.lookup_empty] at found
    cases found
  · refine ⟨⟨[], []⟩, ?_, fun k => ?_, fun k => ?_⟩
    · rw [World.load, newBlocklist, start]
      simp only [resolved, AList.lookup_empty]
      rfl
    · simp [start]
    · simp [start]

variable (kept : Kept unmarshal defaultPath w)
include kept

theorem Kept.mem_entered {saved : SavedBlocklist}
    (ips : ∀ k, k ∈ saved.ips ↔ k ∈ w.list.ips) (k : String) :
    k ∈ (saved.entered w.list.path).ips ↔ k ∈ w.list.ips := by
  rw [mem_entered_ips]
  constructor
  · rintro ⟨ip, member, rfl⟩
    rw [kept.fixed ip ((ips ip).mp member)]
    exact (ips ip).mp member
  · intro member
    exact ⟨k, (ips k).mpr member, kept.fixed k member⟩

theorem Kept.sameAnswers : SameAnswers unmarshal defaultPath w := by
  obtain ⟨saved, loaded, ips, pubkeys⟩ := kept.filed
  refine ⟨_, loaded, fun x => ⟨?_, ?_⟩⟩
  · rw [Bool.eq_iff_iff, isBlockedIP_iff (marked_entered saved _), isBlockedIP_iff kept.marked,
      kept.mem_entered ips]
  · rw [Bool.eq_iff_iff, isBlockedPubkey_iff, isBlockedPubkey_iff, mem_entered_pubkeys, pubkeys]

theorem Kept.restart :
    Kept unmarshal defaultPath (step marshal unmarshal defaultPath w .restart) := by
  obtain ⟨saved, loaded, ips, pubkeys⟩ := kept.filed
  simp only [step, loaded]
  refine ⟨kept.path, marked_entered saved _, fun k member => ?_, saved, loaded, fun k => ?_,
    fun k => ?_⟩
  · exact kept.fixed k ((kept.mem_entered ips k).mp member)
  · exact (ips k).trans (kept.mem_entered ips k).symm
  · exact (mem_entered_pubkeys saved _ k).symm

variable (faithful : ∀ saved, unmarshal (marshal saved) = .ok saved)
include faithful

omit kept in
theorem filed_saving (b : Blocklist) (path : blocklistPath defaultPath b.path = b.path)
    (order order' : RangeOrder) : Filed unmarshal defaultPath
    (w.saving marshal order order' b) := by
  refine ⟨b.saved order order', ?_, mem_keys_visit order b.ips, mem_keys_visit order' b.pubkeys⟩
  have read : (w.disk.insert b.path (marshal (b.saved order order'))).lookup
      (blocklistPath defaultPath b.path) = some (marshal (b.saved order order')) := by
    rw [path]
    exact AList.lookup_insert _
  simp only [World.load, newBlocklist, World.saving, read, path, faithful]

theorem Kept.saving (b : Blocklist) (path : b.path = w.list.path)
    (marked : ∀ k v, b.ips.lookup k = some v → v = true)
    (fixed : ∀ k ∈ b.ips, normalizeIP goNet k = k) (order order' : RangeOrder) :
    Kept unmarshal defaultPath (w.saving marshal order order' b) := by
  have resolved : blocklistPath defaultPath b.path = b.path := by
    rw [path]
    exact kept.path
  exact ⟨resolved, marked, fixed, filed_saving faithful b resolved order order'⟩

theorem Kept.blockIP {ip : String} (some : ip ≠ "")
    (readable : (GoAddr.parseIP (hostText ip)).isSome = true ∨ hostText ip = "invalid")
    (order order' : RangeOrder) :
    Kept unmarshal defaultPath (w.saving marshal order order'
      { w.list with ips := w.list.ips.insert (normalizeIP goNet ip) true }) := by
  apply kept.saving faithful { w.list with ips := w.list.ips.insert (normalizeIP goNet ip) true }
    rfl
  · intro k v found
    rcases GoMap.lookup_insert_cases found with ⟨_, rfl⟩ | ⟨_, old⟩
    · rfl
    · exact kept.marked k v old
  · intro k member
    rcases (AList.mem_insert _).mp member with rfl | old
    · exact (normalizeIP_fixed_iff some).mpr readable
    · exact kept.fixed k old

theorem Kept.unblockIP (ip : String) (order order' : RangeOrder) :
    Kept unmarshal defaultPath (w.saving marshal order order' (w.list.unblockIP ip)) := by
  apply kept.saving faithful (w.list.unblockIP ip) rfl
  · intro k v found
    apply kept.marked k v
    by_cases same : k = normalizeIP goNet ip
    · rw [Blocklist.unblockIP, same, AList.lookup_erase] at found
      cases found
    · exact (AList.lookup_erase_ne same).symm.trans found
  · intro k member
    exact kept.fixed k (AList.mem_erase.mp member).2

theorem Kept.step {op : Op} (readable : Readable w op) :
    Kept unmarshal defaultPath (step marshal unmarshal defaultPath w op) := by
  cases op with
  | blockIP ip order order' =>
    by_cases empty : ip = ""
    · simp only [BlocklistRestart.step, Blocklist.blockIP, if_pos empty]
      exact kept
    · simp only [BlocklistRestart.step, Blocklist.blockIP, if_neg empty]
      exact kept.blockIP faithful empty (readable.resolve_left empty) order order'
  | unblockIP ip order order' => exact kept.unblockIP faithful ip order order'
  | blockPubkey pubkey order order' =>
    by_cases empty : pubkey = ""
    · simp only [BlocklistRestart.step, Blocklist.blockPubkey, if_pos empty]
      exact kept
    · simp only [BlocklistRestart.step, Blocklist.blockPubkey, if_neg empty]
      exact kept.saving faithful { w.list with pubkeys := w.list.pubkeys.insert pubkey true } rfl
        kept.marked kept.fixed order order'
  | unblockPubkey pubkey order order' =>
    exact kept.saving faithful (w.list.unblockPubkey pubkey) rfl kept.marked kept.fixed order order'
  | restart => exact kept.restart

/-- A key that is found again after loading is read back as itself. -/
theorem Kept.readable {op : Op}
    (same : SameAnswers unmarshal defaultPath
      (BlocklistRestart.step marshal unmarshal defaultPath w op)) : Readable w op := by
  cases op with
  | blockIP ip order order' =>
    by_cases empty : ip = ""
    · exact .inl empty
    · refine .inr ((normalizeIP_fixed_iff empty).mp ?_)
      simp only [BlocklistRestart.step, Blocklist.blockIP, if_neg empty] at same
      let added := normalizeIP goNet ip
      let b : Blocklist := { w.list with ips := w.list.ips.insert added true }
      -- what is loaded is what was saved
      obtain ⟨saved, again, ips, _⟩ : Filed unmarshal defaultPath
          (w.saving marshal order order' b) :=
        filed_saving faithful b kept.path order order'
      obtain ⟨loaded, read, answers⟩ := same
      obtain rfl := Except.ok.inj (again.symm.trans read)
      have blocked : b.isBlockedIP ip = true := by
        rw [Blocklist.isBlockedIP, AList.lookup_insert]
        rfl
      have found := (isBlockedIP_iff (marked_entered saved _) ip).mp ((answers ip).1.trans blocked)
      obtain ⟨k, member, key⟩ := (mem_entered_ips saved _ _).mp found
      rcases (AList.mem_insert _).mp ((ips k).mp member) with rfl | old
      · exact key
      · rw [kept.fixed k old] at key
        rw [← key]
        exact kept.fixed k old
  | unblockIP => trivial
  | blockPubkey => trivial
  | unblockPubkey => trivial
  | restart => trivial

end steps

/-- For every faithful encoding, and every run of changes and restarts that starts without a file:
in every state a list newly loaded answers as the one in memory, exactly when every blocked text
is an address or the text `invalid`, with or without a port. -/
theorem blocklist_survives_iff {Data : Type} (marshal : SavedBlocklist → Data)
    (unmarshal : Data → Except String SavedBlocklist)
    (faithful : ∀ saved, unmarshal (marshal saved) = .ok saved) (defaultPath path : String)
    (ops : List Op) :
    Run.Throughout (step marshal unmarshal defaultPath) (SameAnswers unmarshal defaultPath)
        (start Data defaultPath path) ops ↔
      Run.Along (step marshal unmarshal defaultPath) Readable (start Data defaultPath path) ops :=
  Run.throughout_iff_along_of_stronger (kept_start path) (fun _ => Kept.sameAnswers)
    (fun _ _ (_ : True) kept readable => kept.step faithful readable)
    (fun _ _ _ kept same => kept.readable faithful same) (Run.along_of_forall fun _ _ => trivial)

section sample

/-- Addresses with and without a port are found again. -/
theorem addresses_survive :
    Run.Throughout (step id .ok "blocklist.json") (SameAnswers .ok "blocklist.json")
      (start SavedBlocklist "blocklist.json" "")
      [ .blockIP "10.0.0.1:51820" .forward .forward, .restart,
        .blockIP "[2001:DB8::1]:443" .forward .backward, .blockPubkey "k" .forward .forward,
        .restart, .unblockIP "10.0.0.1" .forward .forward ] := by
  refine (blocklist_survives_iff id .ok (fun _ => rfl) "blocklist.json" "" _).mpr ?_
  exact ⟨.inr (.inl (by decide)), trivial, .inr (.inl (by decide)), trivial,
    trivial,
    trivial, trivial⟩

/-- A blocked network is not found again. -/
theorem network_not_found_again :
    let w := step id .ok "blocklist.json" (start SavedBlocklist "blocklist.json" "")
      (.blockIP "10.0.0.0/8" .forward .forward)
    w.list.isBlockedIP "10.0.0.0/8" = true ∧
      (w.load .ok "blocklist.json").toOption.map (·.isBlockedIP "10.0.0.0/8") = some false := by
  decide

end sample

end VeilNet.Guarantees.BlocklistRestart
