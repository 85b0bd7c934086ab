import VeilNet.Source.Dns.Effects

/-!
# The servers that are configured

The DNS manager sees dotted quads only, and in `resolv.conf` only lines of two words. What the
C library reads beyond that is neither restored nor reported.
-/
namespace VeilNet.Guarantees.ConfiguredServers
open Lib Source.Dns

def isBlank (c : Char) : Bool := c = ' ' || c = '\t'

/-- The word of a `nameserver` line as the C library takes it: the keyword starts the line and
a blank follows it; what stands behind the word is ignored. -/
def libcWord (line : String) : Option String :=
  let key := "nameserver".toList
  let rest := line.toList.drop key.length
  if line.toList.take key.length = key ∧ rest.head?.any isBlank then
    some (String.ofList ((rest.dropWhile isBlank).takeWhile (!isBlank ·)))
  else none

def libcWords (conf : Option String) : List String :=
  conf.elim [] fun raw => (GoText.split raw '\n').filterMap libcWord

variable {Addr : Type} (read : String → Option Addr)

/-- The addresses that a `resolv.conf` configures; `read` reads the literals. -/
def nameservers (conf : Option String) : List Addr := (libcWords conf).filterMap read

theorem isBlank_of_isSpace {c : Char} (plain : GoText.isSpace c = false) : isBlank c = false := by
  cases blank : isBlank c with
  | false => rfl
  | true =>
    have either : c = ' ' ∨ c = '\t' := by simpa [isBlank] using blank
    rcases either with rfl | rfl <;> revert plain <;> decide

theorem libcWord_nameserver {s : String} (ip : isIP s = true) :
    libcWord ("nameserver " ++ s) = some s := by
  obtain ⟨given, word⟩ := plain_of_isIP ip
  have line : ("nameserver " ++ s).toList = "nameserver".toList ++ ' ' :: s.toList := by simp
  have skip : (' ' :: s.toList).dropWhile isBlank = s.toList := by
    obtain ⟨c, rest, same⟩ := List.exists_cons_of_ne_nil given
    rw [List.dropWhile_cons_of_pos rfl, same, List.dropWhile_cons_of_neg]
    simp [isBlank_of_isSpace (word c (same ▸ List.mem_cons_self))]
  have whole : s.toList.takeWhile (!isBlank ·) = s.toList :=
    List.takeWhile_eq_self_iff.mpr fun c member => by simp [isBlank_of_isSpace (word c member)]
  simp only [libcWord, line, List.take_left, List.drop_left, skip, whole, String.ofList_toList]
  simp [isBlank]

theorem libcWords_resolvText {servers : List String} (ips : ∀ s ∈ servers, isIP s = true) :
    libcWords (some (resolvText servers)) = servers :=
  filterMap_resolvText ips (by decide) (fun s member => libcWord_nameserver (ips s member))
    (by decide)

variable (m : Manager)

/-- What `Restore` writes back after an `Apply`. -/
def recorded (f : Fates) (mode : Mode) (r : Resolver) : List String :=
  if mode ≠ .system ∧ m.dir ≠ .homeless ∧ f.snapshot = .works then r.effective else []

theorem isIP_of_recorded {m : Manager} {f : Fates} {mode : Mode} {r : Resolver} {s : String}
    (member : s ∈ recorded m f mode r) : isIP s = true := by
  unfold recorded at member
  split at member
  · obtain ⟨conf, _⟩ := r
    cases conf with
    | none => cases member
    | some raw => exact isIP_of_mem member
  · cases member

theorem prior_applied {m : Manager} {f : Fates} {r : Resolver} (empty : r.snapshot = .empty)
    {mode : Mode} {servers : List String}
    (applied : ((m.apply mode servers).exec (under f) r).1.1 = .ok ()) :
    ((m.apply mode servers).exec (under f) r).2.prior
      ((m.apply mode servers).exec (under f) r).1.2 = recorded m f mode r := by
  cases taken : snapshots mode servers with
  | false =>
    by_cases system : mode = .system
    · rw [system, Manager.apply, exec_restore, recorded, if_neg (by simp), empty]
      obtain ⟨dir, iface, mode', servers'⟩ := m
      cases dir <;> rfl
    · obtain ⟨err, refused⟩ := exec_apply_refused m f r taken system
      rw [refused] at applied
      cases applied
  | true =>
    by_cases doh : mode = .doh
    · obtain ⟨err, failed⟩ := exec_apply_doh m f r (doh ▸ taken)
      rw [doh, failed] at applied
      cases applied
    · have other : mode ≠ .system := by
        rintro rfl
        cases taken
      have same : (if f.result.isOk then { m with mode, servers } else m).dir = m.dir := by
        split <;> rfl
      rw [exec_apply_set m f r taken doh]
      simp only [Resolver.prior, Manager.snapshotPaths, snapshot_wrote, same]
      exact (prior_snapshotted empty).trans (by simp [recorded, other])

/-- After an `Apply` and a `Restore` that succeed, on a machine without a snapshot, the file
configures what it did at first exactly when what is on record says the same. -/
theorem restored_iff (m : Manager) (f g : Fates) (r : Resolver) (empty : r.snapshot = .empty)
    (mode : Mode) (servers : List String) :
    let after := (m.apply mode servers).exec (under f) r
    let restored := after.1.2.restore.exec (under g) after.2
    after.1.1 = .ok () → restored.1.1 = .ok () →
    (nameservers read restored.2.conf = nameservers read r.conf ↔
      (recorded m f mode r).filterMap read = nameservers read r.conf) := by
  intro after restored applied success
  have prior : after.2.prior after.1.2 = recorded m f mode r := prior_applied empty applied
  have written : restored.2.conf = some (resolvText (recorded m f mode r)) := by
    simp only [restored, exec_restore, prior] at success ⊢
    obtain ⟨snapshot, dir, conf⟩ := g
    cases dir <;> cases conf <;> first | rfl | cases success
  rw [written, nameservers, libcWords_resolvText fun _ => isIP_of_recorded]

section instances

def calm : Fates := ⟨.works, .works, .works⟩

def filed (text : String) : Resolver := ⟨some text, .empty⟩

def idle : Manager := .new .single "veilnet"

/-- The file after an `Apply` and a `Restore`. -/
def roundTrip (r : Resolver) : Option String :=
  let after := (idle.apply .veilnet ["10.89.0.1"]).exec (under calm) r
  (after.1.2.restore.exec (under calm) after.2).2.conf

theorem plainFile_restored :
    nameservers some (roundTrip (filed "nameserver 1.1.1.1\n")) = ["1.1.1.1"] :=
  (restored_iff some idle calm calm (filed "nameserver 1.1.1.1\n") rfl .veilnet ["10.89.0.1"]
    rfl rfl).mpr (by decide)

theorem ipv6File_lost :
    nameservers some (filed "nameserver 2001:db8::1\n").conf = ["2001:db8::1"] ∧
      nameservers some (roundTrip (filed "nameserver 2001:db8::1\n")) = [] := by
  decide

end instances

/-! The report. -/

/-- The line that `resolvectl dns` prints of a link, as `Link 3 (veilnet)`. -/
def linkLine (link : String) (words : List String) : String :=
  String.ofList (link.toList ++ ':' :: (words.flatMap (' ' :: ·.toList) ++ ['\n']))

/-- A machine with systemd-resolved, on which `resolvectl` prints `out`. -/
def withResolved (out : String) : Machine Command.Reply Resolver
  | .resolvectl _, r => (.ok out, r)
  | .readConf, r => (r.conf, r)
  | c, r => Command.act .works c r

/-- The word, if it is an address, is one of the active servers. -/
def Covered (word : String) : Prop :=
  ∀ a, read word = some a → ∃ s ∈ m.servers, read s = some a

theorem mem_of_judge {m : Manager} {got : List String} (tunnel : (m.judge got).route = .tunnel) :
    ∀ s ∈ got, s ∈ m.servers := by
  unfold Manager.judge at tunnel
  split_ifs at tunnel with _ _ all
  exact fun s member => of_decide_eq_true (List.all_eq_true.mp all s member)

theorem mem_foldl_once {seen l : List String} {s : String} (member : s ∈ seen ∨ s ∈ l) :
    s ∈ l.foldl (fun seen s => if s ∈ seen then seen else seen ++ [s]) seen := by
  induction l generalizing seen with
  | nil => simpa using member
  | cons first rest ih =>
    rw [List.foldl_cons]
    apply ih
    rw [List.mem_cons] at member
    split
    · next old => grind
    · grind

/-- What `parseIPs` splits at. -/
def separators : List Char := ['\n', '\r', ' ', ',', ':', '(', ')']

theorem mem_parseIPs {word : String} {front back : List Char} {c d : Char} (ip : isIP word = true)
    (before : c ∈ separators) (after : d ∈ separators) :
    word ∈ parseIPs (String.ofList (front ++ c :: (word.toList ++ d :: back))) := by
  have apart : ∀ x ∈ separators, ¬ (x.isDigit = true ∨ x = '.') := by simp [separators]
  have plain : ∀ x ∈ word.toList, decide (x ∈ separators) = false := fun x member =>
    decide_eq_false fun separates => apart x separates ((chars_of_isIP ip).2 x member)
  refine mem_foldl_once (.inr (List.mem_filter.mpr
    ⟨List.mem_map.mpr ⟨word.toList, ?_, by simp⟩, ip⟩))
  rw [String.toList_ofList]
  have words := List.splitOnP_append_cons (p := fun x => decide (x ∈ separators)) front
    (word.toList ++ d :: back) (decide_eq_true before)
  rw [List.splitOnP_append_cons_of_forall_mem plain d (decide_eq_true after)] at words
  exact words ▸ by simp

theorem mem_linkLine (link : String) {word : String} {words : List String} (member : word ∈ words)
    (ip : isIP word = true) : word ∈ parseIPs (linkLine link words) := by
  obtain ⟨front, rest, rfl⟩ := List.append_of_mem member
  obtain ⟨d, back, separates, same⟩ : ∃ d back, d ∈ separators ∧
      rest.flatMap (' ' :: ·.toList) ++ ['\n'] = d :: back := by
    cases rest with
    | nil => exact ⟨'\n', [], by decide, rfl⟩
    | cons => exact ⟨' ', _, by decide, rfl⟩
  have line : linkLine link (front ++ word :: rest) = String.ofList
      ((link.toList ++ ':' :: front.flatMap (' ' :: ·.toList)) ++ ' ' ::
        (word.toList ++ d :: back)) := by
    rw [← same]
    simp [linkLine]
  rw [line]
  exact mem_parseIPs ip (by decide) separates

theorem exec_leakState (out : String) (r : Resolver) :
    (m.leakState.exec (withResolved out) r).1 =
      m.judge (if parseIPs out = [] then r.effective else parseIPs out) := by
  have listed : (Linux.effective m.iface).exec (withResolved out) r =
      (if parseIPs out = [] then r.effective else parseIPs out, r) := by
    have asked : (Linux.effective m.iface).exec (withResolved out) r =
        (if parseIPs out = [] then (do
          let raw ← readFile
          pure (raw.elim [] parseResolvConf)) else pure (parseIPs out)).exec (withResolved out) r :=
            rfl
    rw [asked]
    split <;> rfl
  rw [Manager.leakState, Script.exec_bind, listed]
  rfl

/-- While a tunnel without a leak is reported, all configured addresses are active servers exactly
when those are that the manager does not look at: on the line of a link all but the dotted quads,
in `resolv.conf` what `parseResolvConf` leaves out. -/
theorem unreported_iff (m : Manager) (r : Resolver) :
    (∀ link words, let st := (m.leakState.exec (withResolved (linkLine link words)) r).1
      st.route = .tunnel → st.leaking = false →
      ((∀ w ∈ words, Covered read m w) ↔ ∀ w ∈ words, isIP w = false → Covered read m w)) ∧
    ∀ f, let st := (m.leakState.exec (under f) r).1
      st.route = .tunnel → st.leaking = false →
      ((∀ w ∈ libcWords r.conf, Covered read m w) ↔
        ∀ w ∈ libcWords r.conf, w ∉ r.effective → Covered read m w) := by
  constructor
  · intro link words st tunnel _
    rw [show st = _ from exec_leakState m _ r] at tunnel
    refine ⟨fun covered w member _ => covered w member, fun skipped w member => ?_⟩
    cases ip : isIP w with
    | false => exact skipped w member ip
    | true =>
      have found := mem_linkLine link member ip
      rw [if_neg (List.ne_nil_of_mem found)] at tunnel
      exact fun a address => ⟨w, mem_of_judge tunnel w found, address⟩
  · intro f st tunnel _
    have seen : ∀ s ∈ r.effective, s ∈ m.servers := mem_of_judge tunnel
    refine ⟨fun covered w member _ => covered w member, fun skipped w member => ?_⟩
    by_cases found : w ∈ r.effective
    · exact fun a address => ⟨w, seen w found, address⟩
    · exact skipped w member found

section instances

/-- The machine whose link names these servers, and the manager that has set the tunnel's. -/
def linked (words : List String) : Machine Command.Reply Resolver :=
  withResolved (linkLine "Link 3 (veilnet)" words)

def applied (words : List String) : Manager :=
  ((idle.apply .veilnet ["10.89.0.1"]).exec (linked words) ⟨none, .empty⟩).1.2

/-- The server of the tunnel alone: the report is right. -/
theorem tunnelServer_reported :
    let m := applied ["10.89.0.1"]
    let st := (m.leakState.exec (linked ["10.89.0.1"]) ⟨none, .empty⟩).1
    st.route = .tunnel ∧ st.leaking = false ∧ ∀ w ∈ ["10.89.0.1"], Covered some m w := by
  intro m st
  have tunnel : st.route = .tunnel := by decide
  have dry : st.leaking = false := by decide
  refine ⟨tunnel, dry, ((unreported_iff some m ⟨none, .empty⟩).1 _ _ tunnel dry).mpr ?_⟩
  intro w member other
  have quad : isIP "10.89.0.1" = true := by decide
  rw [List.mem_singleton.mp member, quad] at other
  cases other

/-- An IPv6 server of the network goes unnoticed next to the one of the tunnel. -/
theorem ipv6Server_unreported :
    let m := applied ["10.89.0.1", "2001:db8::1"]
    let st := (m.leakState.exec (linked ["10.89.0.1", "2001:db8::1"]) ⟨none, .empty⟩).1
    st.route = .tunnel ∧ st.leaking = false ∧ m.servers = ["10.89.0.1"] ∧
      ¬ Covered some m "2001:db8::1" := by
  intro m st
  have servers : m.servers = ["10.89.0.1"] := by decide
  refine ⟨by decide, by decide, servers, fun covered => ?_⟩
  obtain ⟨s, member, same⟩ := covered "2001:db8::1" rfl
  rw [servers, List.mem_singleton] at member
  rw [member] at same
  revert same
  decide

end instances

end VeilNet.Guarantees.ConfiguredServers
