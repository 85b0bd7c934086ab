import VeilNet.Source.Dns.Effects
import VeilNet.Lib.Run

/-!
# The user's resolvers are not lost

`Apply` files the resolvers before it changes them, and `Restore` puts them back. But it removes
the file whether or not it could write `resolv.conf`, and without a file it writes an empty list.
So the resolvers survive exactly as long as each `Restore` finds the file and writes it back, or
its failing write leaves them.
-/
namespace VeilNet.Guarantees.Resolvers
open Lib Source Source.Dns

/-- A call with the fates of the directory and the write of `resolv.conf`, or a new manager
for the same state directory. -/
inductive Op where
  | apply (mode : Mode) (servers : List String) (dir conf : Fate)
  | restore (dir conf : Fate)
  | renew (iface : String)

structure State where
  resolver : Resolver
  manager : Manager

/-- Only the writes of the backend fail. -/
def backendFates (dir conf : Fate) : Fates := ⟨.works, dir, conf⟩

def State.after (s : State) (x : Dn (Except String Unit × Manager)) (dir conf : Fate) : State :=
  let out := x.exec (under (backendFates dir conf)) s.resolver
  ⟨out.2, out.1.2⟩

def step (s : State) : Op → State
  | .apply mode servers dir conf => s.after (s.manager.apply mode servers) dir conf
  | .restore dir conf => s.after s.manager.restore dir conf
  | .renew iface => ⟨s.resolver, Manager.new s.manager.dir iface⟩

def restored (s : State) : Op → Bool
  | .restore dir conf =>
    (s.manager.restore.exec (under (backendFates dir conf)) s.resolver).1.1.isOk
  | .apply .. | .renew _ => false

/-- The list is in force or on file. -/
def Kept (L : List String) (s : State) : Prop :=
  s.resolver.effective = L ∨
    ∃ snap, s.resolver.snapshot.load s.manager.snapshotPaths = some snap ∧ snap.servers = L

/-- What `Restore` needs, by the fates of its writes. -/
def Recovers (L : List String) (s : State) (dir conf : Fate) : Prop :=
  match dir, conf with
  | .works, .works => (s.resolver.snapshot.load s.manager.snapshotPaths).isSome = true ∨ L = []
  | .works, .fails _ (some left) => parseResolvConf left = L
  | .works, .fails _ none | .fails _ _, _ => s.resolver.effective = L

instance (L : List String) (s : State) (dir conf : Fate) : Decidable (Recovers L s dir conf) := by
  unfold Recovers
  split <;> infer_instance

/-- Every `Restore`, also as `Apply(SYSTEM)`, recovers the list. -/
def Safe (L : List String) (s : State) : Op → Prop
  | .restore dir conf | .apply .system _ dir conf => Recovers L s dir conf
  | .apply .veilnet .. | .apply .custom .. | .apply .doh .. | .apply (.unknown _) .. | .renew _ =>
    True

instance (L : List String) (s : State) (op : Op) : Decidable (Safe L s op) := by
  unfold Safe
  split <;> infer_instance

/-- There is no file and the list is in force, or the file has the list. -/
structure Filed (L : List String) (dir : StateDir) (s : State) : Prop where
  located : s.manager.dir = dir
  files : s.resolver.snapshot = Files.empty ∧ s.resolver.effective = L ∨
    ∃ snap, s.resolver.snapshot = ⟨some (.record snap), none⟩ ∧ snap.servers = L

section files
variable {L : List String} {dir : StateDir} {s : State}

theorem load_record (located : dir ≠ .homeless) (snap : Snapshot) :
    (⟨some (.record snap), none⟩ : Files Snapshot).load dir.paths = some snap := by
  obtain ⟨rest, paths⟩ := StateDir.paths_of_located located
  rw [paths]
  rfl

theorem Filed.kept (located : dir ≠ .homeless) (filed : Filed L dir s) : Kept L s := by
  rcases filed.files with ⟨_, same⟩ | ⟨snap, file, same⟩
  · exact .inl same
  · refine .inr ⟨snap, ?_, same⟩
    rw [file, Manager.snapshotPaths, filed.located]
    exact load_record located snap

theorem Filed.cleared (located : dir ≠ .homeless) (filed : Filed L dir s) :
    s.manager.snapshotPaths.foldl (·.put none ·) s.resolver.snapshot = Files.empty := by
  rw [Manager.snapshotPaths, filed.located]
  rcases filed.files with ⟨empty, _⟩ | ⟨snap, file, _⟩
  · rw [empty]
    cases dir <;> rfl
  · rw [file]
    cases dir with
    | homeless => exact absurd rfl located
    | single | migrating => rfl

end files

section steps
variable {L : List String} {dir : StateDir} {s : State}

theorem parse_nil : parseResolvConf (resolvText []) = [] :=
  parseResolvConf_resolvText (List.forall_mem_nil _)

variable (located : dir ≠ .homeless)
include located

/-- The list that `Restore` leaves in force is `L` exactly when it recovers it. -/
theorem effective_restore_iff (ips : ∀ ip ∈ L, isIP ip = true)
    (filed : Filed L dir s) (dirFate conf : Fate) :
    (s.resolver.wrote (backendFates dirFate conf) (s.resolver.prior s.manager)).effective = L ↔
      Recovers L s dirFate conf := by
  cases dirFate with
  | fails err left => exact Iff.rfl
  | works =>
    cases conf with
    | fails err left => cases left <;> exact Iff.rfl
    | works =>
      change parseResolvConf (resolvText (s.resolver.prior s.manager)) = L ↔
        (s.resolver.snapshot.load s.manager.snapshotPaths).isSome = true ∨ L = []
      rw [Resolver.prior, Manager.snapshotPaths, filed.located]
      rcases filed.files with ⟨empty, _⟩ | ⟨snap, file, same⟩
      · rw [empty, Files.load_empty]
        simp only [Option.elim_none, Option.isSome_none, Bool.false_eq_true, false_or, parse_nil]
        exact eq_comm
      · rw [file, load_record located, Option.elim_some, same]
        exact iff_of_true (parseResolvConf_resolvText ips) (.inl rfl)

theorem after_restore (filed : Filed L dir s) (dirFate conf : Fate) :
    (s.after s.manager.restore dirFate conf).manager.dir = dir ∧
      (s.after s.manager.restore dirFate conf).resolver.snapshot = Files.empty ∧
      (s.after s.manager.restore dirFate conf).resolver.effective =
        (s.resolver.wrote (backendFates dirFate conf) (s.resolver.prior s.manager)).effective := by
  rw [State.after, exec_restore]
  exact ⟨filed.located, filed.cleared located, rfl⟩

/-- Without a file, the list is kept or filed only if it is in force. -/
theorem filed_restore_iff (ips : ∀ ip ∈ L, isIP ip = true)
    (filed : Filed L dir s) (dirFate conf : Fate) :
    Filed L dir (s.after s.manager.restore dirFate conf) ↔ Recovers L s dirFate conf := by
  obtain ⟨same, empty, effective⟩ := after_restore located filed dirFate conf
  rw [← effective_restore_iff located ips filed, ← effective]
  constructor
  · intro filed
    rcases filed.files with ⟨_, inForce⟩ | ⟨snap, file, _⟩
    · exact inForce
    · rw [empty] at file
      cases file
  · exact fun inForce => ⟨same, .inl ⟨empty, inForce⟩⟩

theorem filed_of_kept_restore (filed : Filed L dir s)
    (dirFate conf : Fate) (kept : Kept L (s.after s.manager.restore dirFate conf)) :
    Filed L dir (s.after s.manager.restore dirFate conf) := by
  obtain ⟨same, empty, _⟩ := after_restore located filed dirFate conf
  rcases kept with inForce | ⟨snap, loaded, _⟩
  · exact ⟨same, .inl ⟨empty, inForce⟩⟩
  · rw [empty, Files.load_empty] at loaded
    cases loaded

theorem Filed.snapshotted (filed : Filed L dir s) (dirFate conf : Fate) :
    ∃ snap, (s.resolver.snapshotted s.manager (backendFates dirFate conf)).snapshot =
      ⟨some (.record snap), none⟩ ∧ snap.servers = L := by
  obtain ⟨rest, paths⟩ := StateDir.paths_of_located located
  rw [Resolver.snapshotted, Manager.snapshotPaths, filed.located, paths]
  rcases filed.files with ⟨empty, same⟩ | ⟨snap, file, same⟩
  · rw [empty, Files.readable_empty]
    exact ⟨_, rfl, same⟩
  · rw [file]
    exact ⟨snap, file, same⟩

theorem filed_apply (filed : Filed L dir s) (mode : Mode)
    (other : mode ≠ .system) (servers : List String) (dirFate conf : Fate) :
    Filed L dir (s.after (s.manager.apply mode servers) dirFate conf) := by
  obtain ⟨snap, file, same⟩ := filed.snapshotted located dirFate conf
  cases taken : snapshots mode servers with
  | false =>
    obtain ⟨err, ran⟩ := exec_apply_refused s.manager
        (backendFates dirFate conf) s.resolver taken other
    rw [State.after, ran]
    exact filed
  | true =>
    by_cases doh : mode = .doh
    · subst doh
      obtain ⟨err, ran⟩ := exec_apply_doh s.manager (backendFates dirFate conf) s.resolver taken
      rw [State.after, ran]
      exact ⟨filed.located, .inr ⟨snap, file, same⟩⟩
    · rw [State.after, exec_apply_set _ _ _ taken doh]
      refine ⟨?_, .inr ⟨snap, (snapshot_wrote _ _ _).trans file, same⟩⟩
      dsimp only
      split <;> exact filed.located

theorem filed_step_iff (ips : ∀ ip ∈ L, isIP ip = true)
    (s : State) (op : Op) (filed : Filed L dir s) : Filed L dir (step s op) ↔ Safe L s op := by
  cases op with
  | restore dirFate conf => exact filed_restore_iff located ips filed dirFate conf
  | renew iface => exact iff_of_true ⟨filed.located, filed.files⟩ trivial
  | apply mode servers dirFate conf =>
    cases mode with
    | system => exact filed_restore_iff located ips filed dirFate conf
    | veilnet | custom | doh | unknown =>
      refine iff_of_true (filed_apply located filed _ ?_ servers dirFate conf) trivial
      exact nofun

theorem filed_step_of_kept (s : State) (op : Op)
    (filed : Filed L dir s) (kept : Kept L (step s op)) : Filed L dir (step s op) := by
  cases op with
  | restore dirFate conf => exact filed_of_kept_restore located filed dirFate conf kept
  | renew iface => exact ⟨filed.located, filed.files⟩
  | apply mode servers dirFate conf =>
    cases mode with
    | system => exact filed_of_kept_restore located filed dirFate conf kept
    | veilnet | custom | doh | unknown =>
      refine filed_apply located filed _ ?_ servers dirFate conf
      exact nofun

/-- After a `Restore` there is no file, so a list that is kept is in force. -/
theorem effective_of_restored (s : State) (op : Op)
    (filed : Filed L dir s) (next : Filed L dir (step s op)) (done : restored s op = true) :
    (step s op).resolver.effective = L := by
  cases op with
  | apply | renew => cases done
  | restore dirFate conf =>
    obtain ⟨_, empty, _⟩ := after_restore located filed dirFate conf
    rcases next.files with ⟨_, inForce⟩ | ⟨snap, file, _⟩
    · exact inForce
    · have same := empty.symm.trans file
      cases same

end steps

/-- For every run of one or several managers over one state directory without a snapshot: the list
from before is in force or on file in every state and in force after every `Restore` that returns
nil, exactly when every `Restore` of the run recovers it. -/
theorem resolvers_kept_iff (r : Resolver) (fresh : r.snapshot = Files.empty) (dir : StateDir)
    (located : dir ≠ .homeless) (iface : String) (ops : List Op) :
    (Run.Throughout step (Kept r.effective) ⟨r, Manager.new dir iface⟩ ops ∧
        Run.Along step
          (fun s op => restored s op = true → (step s op).resolver.effective = r.effective)
          ⟨r, Manager.new dir iface⟩ ops) ↔
      Run.Along step (Safe r.effective) ⟨r, Manager.new dir iface⟩ ops := by
  have start : Filed r.effective dir ⟨r, Manager.new dir iface⟩ := ⟨rfl, .inl ⟨fresh, rfl⟩⟩
  have ips : ∀ ip ∈ r.effective, isIP ip = true := by
    intro ip member
    unfold Resolver.effective at member
    cases conf : r.conf with
    | none => simp [conf] at member
    | some raw => exact isIP_of_mem (by simpa [conf] using member)
  have whole : Run.Throughout step (Filed r.effective dir) ⟨r, Manager.new dir iface⟩ ops ↔
      Run.Along step (Safe r.effective) ⟨r, Manager.new dir iface⟩ ops :=
    @Run.throughout_iff_along _ _ step (fun _ _ => True) (Safe r.effective)
      (Filed r.effective dir) (fun _ => True) _ ops trivial start (fun _ _ _ _ => trivial)
      (fun s op _ _ filed => filed_step_iff located ips s op filed)
      (Run.along_of_forall fun _ _ => trivial)
  rw [← whole]
  constructor
  · exact fun h => h.1.strengthen start (filed_step_of_kept located)
  · intro filed
    refine ⟨filed.mono fun s filed => filed.kept located, ?_⟩
    exact Run.along_of_throughout (effective_of_restored located) filed

section instances

/-- Two resolvers of the user's own. -/
def someResolver : Resolver :=
  ⟨some "search lan\nnameserver 192.168.1.1\nnameserver 9.9.9.9\n", Files.empty⟩

def denied : Fate := .fails "permission denied" none

/-- The first `Apply` fails in the middle of its write; another manager puts all back. -/
def someOps : List Op :=
  [.apply .veilnet ["10.89.0.1"] .works (.fails "no space left on device" (some "# VeilNet")),
    .apply .doh ["1.1.1.1"] .works .works, .renew "veilnet",
      .apply .custom ["1.1.1.1"] .works .works, .restore .works .works, .restore .works denied]

theorem resolvers_kept_in_some_run :
    Run.Throughout step (Kept someResolver.effective)
        ⟨someResolver, Manager.new .migrating "veilnet"⟩ someOps ∧
      Run.Along step
        (fun s op => restored s op = true → (step s op).resolver.effective = someResolver.effective)
        ⟨someResolver, Manager.new .migrating "veilnet"⟩ someOps :=
  (resolvers_kept_iff someResolver rfl .migrating (by decide) "veilnet" someOps).mpr
    (by decide +kernel)

/-- A second `Restore` returns nil and empties the list; and when the write of the first one
fails, the file is gone and the tunnel's resolver stays. -/
theorem resolvers_lost :
    someResolver.effective = ["192.168.1.1", "9.9.9.9"] ∧
    (Run.run step ⟨someResolver, Manager.new .single "veilnet"⟩
        [.apply .veilnet ["10.89.0.1"] .works .works, .restore .works .works,
          .restore .works .works]).resolver.effective = [] ∧
    (Run.run step ⟨someResolver, Manager.new .single "veilnet"⟩
        [.apply .veilnet ["10.89.0.1"] .works .works, .restore .works denied]).resolver =
      ⟨some (resolvText ["10.89.0.1"]), Files.empty⟩ := by
  decide

end instances

end VeilNet.Guarantees.Resolvers
