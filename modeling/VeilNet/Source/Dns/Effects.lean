import VeilNet.Source.Dns.Manager

/-!
What the DNS manager does: the resolvers that are written to `resolv.conf` are those that
are read from it, and what each function leaves when its write meets a given fate.
-/
namespace VeilNet.Source.Dns
open Lib Script

/-! The text. -/

section text

theorem isIP_of_mem {raw server : String} (member : server ∈ parseResolvConf raw) :
    isIP server = true := by
  obtain ⟨line, _, parsed⟩ := List.mem_filterMap.mp member
  unfold parseLine at parsed
  split at parsed
  · split at parsed
    · next server' both =>
      obtain rfl := Option.some.inj parsed
      exact (Bool.and_eq_true_iff.mp both).2
    · cases parsed
  · cases parsed

theorem mem_intersperse {α : Type} {sep a : α} {l : List α} (member : a ∈ l.intersperse sep) :
    a ∈ l ∨ a = sep := by
  induction l with
  | nil => exact .inl member
  | cons x rest ih =>
    cases rest with
    | nil => exact .inl member
    | cons y later =>
      rw [List.intersperse_cons_cons, List.mem_cons, List.mem_cons] at member
      rcases member with rfl | rfl | later
      · exact .inl List.mem_cons_self
      · exact .inr rfl
      · exact (ih later).imp (List.mem_cons_of_mem x) id

theorem isSpace_of_isDigit {c : Char} (digit : c.isDigit = true) : GoText.isSpace c = false := by
  have bounds : 48 ≤ c.toNat ∧ c.toNat ≤ 57 := by
    simp only [Char.isDigit, Bool.and_eq_true, decide_eq_true_eq] at digit
    exact digit
  simp only [GoText.isSpace, Bool.or_eq_false_iff, decide_eq_false_iff_not, Bool.and_eq_false_iff]
  refine ⟨fun member => ?_, .inl (by omega)⟩
  simp only [List.mem_cons, List.not_mem_nil, or_false] at member
  omega

variable {s : String}

/-- An address is not empty and has digits and dots only. -/
theorem chars_of_isIP (ip : isIP s = true) :
    s.toList ≠ [] ∧ ∀ c ∈ s.toList, c.isDigit = true ∨ c = '.' := by
  simp only [isIP, Bool.and_eq_true, decide_eq_true_eq] at ip
  obtain ⟨four, octets⟩ := ip
  have digits : ∀ part ∈ s.toList.splitOn '.', ∀ c ∈ part, c.isDigit = true := by
    intro part member c inPart
    have octet := List.all_eq_true.mp octets (String.ofList part) (List.mem_map_of_mem member)
    simp only [isOctet, Bool.and_eq_true, String.toList_ofList] at octet
    exact List.all_eq_true.mp octet.1.2 c inPart
  have joined : ['.'].intercalate (s.toList.splitOn '.') = s.toList := List.intercalate_splitOn '.'
  refine ⟨fun empty => ?_, fun c member => ?_⟩
  · rw [GoText.split, empty] at four
    simp at four
  · rw [← joined] at member
    obtain ⟨piece, inPieces, inPiece⟩ := List.mem_flatten.mp member
    rcases mem_intersperse inPieces with inParts | rfl
    · exact .inl (digits piece inParts c inPiece)
    · exact .inr (List.mem_singleton.mp inPiece)

theorem plain_of_isIP (ip : isIP s = true) :
    s.toList ≠ [] ∧ ∀ c ∈ s.toList, GoText.isSpace c = false := by
  obtain ⟨nonempty, chars⟩ := chars_of_isIP ip
  refine ⟨nonempty, fun c member => ?_⟩
  rcases chars c member with digit | rfl
  · exact isSpace_of_isDigit digit
  · rfl

theorem parseLine_nameserver (ip : isIP s = true) :
    parseLine ("nameserver " ++ s) = some s := by
  obtain ⟨nonempty, word⟩ := plain_of_isIP ip
  have keyword : "nameserver".toList.all (fun c => !GoText.isSpace c) = true := by decide
  have plain : ∀ c ∈ "nameserver".toList, GoText.isSpace c = false := fun c member =>
    Bool.not_eq_true' _ ▸ List.all_eq_true.mp keyword c member
  have words : GoText.fields (GoText.trimSpace ("nameserver" ++ " " ++ s)) = ["nameserver", s] :=
    GoText.fields_pair (by decide) nonempty plain word
  have joined : "nameserver " ++ s = "nameserver" ++ " " ++ s := rfl
  rw [parseLine, joined, words]
  simp [ip]

theorem newline_of_isIP (ip : isIP s = true) : '\n' ∉ s.toList := fun member =>
  absurd ((plain_of_isIP ip).2 _ member) (by decide)

variable {servers : List String}

/-- The lines that are written, with the empty one behind the last line end. -/
theorem split_resolvText (single : ∀ s ∈ servers, '\n' ∉ s.toList) :
    GoText.split (resolvText servers) '\n' =
      "# VeilNet managed (fallback: systemd-resolved absent)" ::
        (servers.map ("nameserver " ++ ·) ++ [""]) := by
  have one : ∀ line rest : String, '\n' ∉ line.toList →
      GoText.split (line ++ "\n" ++ rest) '\n' = line :: GoText.split rest '\n' := by
    intro line rest plain
    rw [show "\n" = String.singleton '\n' from rfl, GoText.split_append, GoText.split,
      List.splitOn_eq_singleton plain]
    simp
  have lines : GoText.split (String.join (servers.map fun s => "nameserver " ++ s ++ "\n")) '\n' =
      servers.map ("nameserver " ++ ·) ++ [""] := by
    induction servers with
    | nil => decide
    | cons s rest ih =>
      obtain ⟨here, later⟩ := List.forall_mem_cons.mp single
      have plain : '\n' ∉ ("nameserver " ++ s).toList := by
        rw [String.toList_append, List.mem_append, not_or]
        exact ⟨by decide, here⟩
      rw [List.map_cons, String.join_cons, one _ _ plain, ih later]
      rfl
  rw [resolvText, show resolvHeader =
    "# VeilNet managed (fallback: systemd-resolved absent)" ++ "\n" by decide, one _ _ (by decide),
      lines]

/-- Any reader of lines that skips the comment and the empty line finds the servers. -/
theorem filterMap_resolvText {read : String → Option String}
    (ips : ∀ s ∈ servers, isIP s = true)
    (comment : read "# VeilNet managed (fallback: systemd-resolved absent)" = none)
    (server : ∀ s ∈ servers, read ("nameserver " ++ s) = some s) (empty : read "" = none) :
    (GoText.split (resolvText servers) '\n').filterMap read = servers := by
  have each : servers.filterMap (read ∘ ("nameserver " ++ ·)) = servers := by
    exact (List.filterMap_congr server).trans List.filterMap_some
  rw [split_resolvText fun s member => newline_of_isIP (ips s member),
    List.filterMap_cons_none comment, List.filterMap_append, List.filterMap_map, each]
  simp [empty]

theorem parseResolvConf_resolvText
    (ips : ∀ s ∈ servers, isIP s = true) : parseResolvConf (resolvText servers) = servers :=
  filterMap_resolvText ips (by decide) (fun s member => parseLine_nameserver (ips s member))
    (by decide)

end text

/-! What the functions leave. -/

/-- The fates of the writes of one call: of the snapshot, of the directory of `resolv.conf`
and of the file itself. -/
structure Fates where
  snapshot : Fate
  dir : Fate
  conf : Fate

def Fates.of (f : Fates) : Command → Fate
  | .makeDir => f.dir
  | .writeConf _ => f.conf
  | .file _ => f.snapshot
  | .resolvectl _ | .readConf => .works

def under (f : Fates) : Machine Command.Reply Resolver := fun c => Command.act (f.of c) c

def Fates.result (f : Fates) : Except String Unit :=
  match f.dir, f.conf with
  | .fails err _, _ => .error ("dns: resolv.conf dir: " ++ err)
  | .works, .fails err _ => .error ("dns: write resolv.conf: " ++ err)
  | .works, .works => .ok ()

def Resolver.wrote (r : Resolver) (f : Fates) (servers : List String) : Resolver :=
  match f.dir with
  | .fails _ _ => r
  | .works => r.written (resolvText servers) f.conf

theorem snapshot_wrote (r : Resolver) (f : Fates) (servers : List String) :
    (r.wrote f servers).snapshot = r.snapshot := by
  obtain ⟨snapshot, dir, conf⟩ := f
  cases dir with
  | fails => rfl
  | works =>
    cases conf with
    | works => rfl
    | fails err left => cases left <;> rfl

/-- The servers on record. -/
def Resolver.prior (r : Resolver) (m : Manager) : List String :=
  (r.snapshot.load m.snapshotPaths).elim [] Snapshot.servers

def Resolver.snapshotted (r : Resolver) (m : Manager) (f : Fates) : Resolver :=
  if (r.snapshot.readable m.snapshotPaths).isSome then r
  else
    match m.snapshotPaths with
    | [] => r
    | place :: _ => { r with snapshot := ((FileOp.write place
        ⟨m.iface, r.effective, m.mode, [nrptCatchAll]⟩).act f.snapshot r.snapshot).2 }

/-- The calls that take a snapshot. -/
def snapshots (mode : Mode) (servers : List String) : Bool :=
  match mode with
  | .veilnet | .custom => servers ≠ []
  | .doh => servers ≠ [] && (servers.find? (· ∉ dohServers)).isNone
  | .system | .unknown _ => false

section effects
variable (m : Manager) (f : Fates) (r : Resolver)

theorem exec_writeResolvConf (servers : List String) :
    (Linux.writeResolvConf servers).exec (under f) r = (f.result, r.wrote f servers) := by
  obtain ⟨snapshot, dir, conf⟩ := f
  cases dir <;> cases conf <;> rfl

theorem exec_set (iface : String) (servers : List String) :
    (Linux.set iface servers).exec (under f) r = (f.result, r.wrote f servers) :=
  exec_writeResolvConf f r servers

theorem exec_removeFiles (places : List Place) :
    (Manager.removeFiles places).exec (under f) r =
      ((), { r with snapshot := places.foldl (·.put none ·) r.snapshot }) := by
  induction places generalizing r with
  | nil => rfl
  | cons place rest ih => exact ih _

theorem exec_ensureSnapshot : m.ensureSnapshot.exec (under f) r = ((), r.snapshotted m f) := by
  have stat : (file (.stat m.snapshotPaths)).exec (under f) r =
      ((r.snapshot.readable m.snapshotPaths).isSome, r) := rfl
  rw [Manager.ensureSnapshot, exec_bind, stat, Resolver.snapshotted]
  cases (r.snapshot.readable m.snapshotPaths).isSome with
  | true => rfl
  | false =>
    have current : (Linux.current m.iface).exec (under f) r = (r.effective, r) := rfl
    simp only [Bool.false_eq_true, if_false, exec_bind, current, Manager.writeSnapshot]
    cases m.snapshotPaths <;> rfl

variable {m f r} in
/-- After `ensureSnapshot` on a machine without one, the servers are on record if it could be
written. -/
theorem prior_snapshotted (empty : r.snapshot = Files.empty) :
    (r.snapshotted m f).prior m =
      if m.dir ≠ .homeless ∧ f.snapshot = .works then r.effective else [] := by
  obtain ⟨dir, iface, mode, servers⟩ := m
  obtain ⟨conf, snapshot⟩ := r
  obtain rfl : snapshot = Files.empty := empty
  obtain ⟨fate, -, -⟩ := f
  cases dir <;> cases fate with
  | works => rfl
  | fails err left => cases left <;> rfl

theorem exec_restore :
    m.restore.exec (under f) r = ((f.result, { m with mode := .system, servers := [] }),
      { r.wrote f (r.prior m) with
        snapshot := m.snapshotPaths.foldl (·.put none ·) r.snapshot }) := by
  have read : m.readSnapshot.exec (under f) r =
      ((r.snapshot.load m.snapshotPaths).getD ⟨"", [], .unknown "", []⟩, r) := rfl
  have prior : ((r.snapshot.load m.snapshotPaths).getD ⟨"", [], .unknown "", []⟩).servers =
      r.prior m := by
    unfold Resolver.prior
    cases r.snapshot.load m.snapshotPaths <;> rfl
  have restored : (Linux.restore m.iface (r.prior m)).exec (under f) r =
      (f.result, r.wrote f (r.prior m)) := exec_writeResolvConf f r _
  rw [Manager.restore, exec_bind, read]
  simp only [prior, exec_bind, restored, exec_removeFiles, snapshot_wrote]
  rfl

theorem exec_apply_refused {mode : Mode} {servers : List String}
    (silent : snapshots mode servers = false) (other : mode ≠ .system) :
    ∃ err, (m.apply mode servers).exec (under f) r = ((.error err, m), r) := by
  cases mode with
  | system => exact absurd rfl other
  | unknown name => exact ⟨_, rfl⟩
  | veilnet | custom =>
    have empty : servers = [] := by simpa [snapshots] using silent
    subst empty
    exact ⟨_, rfl⟩
  | doh =>
    by_cases empty : servers = []
    · subst empty
      exact ⟨_, rfl⟩
    · cases unknown : servers.find? (· ∉ dohServers) with
      | none =>
        rw [snapshots, unknown, Option.isNone_none, Bool.and_true] at silent
        exact absurd (of_decide_eq_false silent) (not_not.mpr empty)
      | some s =>
        simp only [Manager.apply, if_neg empty, unknown]
        exact ⟨_, rfl⟩

/-- There is no DNS over HTTPS: the snapshot is all that is left. -/
theorem exec_apply_doh {servers : List String} (taken : snapshots .doh servers = true) :
    ∃ err, (m.apply .doh servers).exec (under f) r = ((.error err, m), r.snapshotted m f) := by
  simp only [snapshots, Bool.and_eq_true, decide_eq_true_eq, Option.isNone_iff_eq_none] at taken
  obtain ⟨some, known⟩ := taken
  simp only [Manager.apply, if_neg some, known, Linux.registerDOH, exec_bind, exec_ensureSnapshot,
    exec_pure]
  exact ⟨_, rfl⟩

theorem exec_apply_set {mode : Mode} {servers : List String} (taken : snapshots mode servers = true)
    (set : mode ≠ .doh) :
    (m.apply mode servers).exec (under f) r =
      ((f.result, if f.result.isOk then { m with mode, servers } else m),
        (r.snapshotted m f).wrote f servers) := by
  have ran : ∀ r, (m.setServers mode servers).exec (under f) r =
      ((f.result, if f.result.isOk then { m with mode, servers } else m), r.wrote f servers) := by
    intro r
    rw [Manager.setServers, exec_bind, exec_set]
    cases f.result <;> rfl
  cases mode with
  | doh => exact absurd rfl set
  | system => cases taken
  | unknown => cases taken
  | veilnet | custom =>
    have some : servers ≠ [] := by simpa [snapshots] using taken
    simp only [Manager.apply, if_neg some, exec_bind, exec_ensureSnapshot, ran]

end effects

end VeilNet.Source.Dns
