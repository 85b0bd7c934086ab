import VeilNet.Source.Routing
import VeilNet.Lib.Run

/-!
# A new route manager cleans up after a crash

Every route is saved right after it is added, and `New` deletes the routes of the first state file
it can read. A route is missed when the process dies between the two, without a home directory,
and when of two files the second lists more or the first does not parse. Otherwise the file covers
the routes at every moment of every run.
-/
namespace VeilNet.Guarantees.RouteRecovery
open Lib Source Source.Routing

abbrev works : Machine Command.Reply Table := Command.act .works

/-- A call that returns or during which the process dies after `k` commands, and likewise
the construction of a manager. -/
inductive Op where
  | returns (call : Call)
  | dies (call : Call) (k : ℕ)
  | starts
  | diesStarting (k : ℕ)

/-- The machine and, while a process runs, its manager. -/
structure State where
  table : Table
  manager : Option Manager

def step (dir : StateDir) (s : State) : Op → State
  | .returns call =>
    match s.manager with
    | none => s
    | some m =>
      let out := (call.script m).exec works s.table
      ⟨out.2, some out.1.2⟩
  | .dies call k =>
    match s.manager with
    | none => s
    | some m => ⟨(call.script m).after works k s.table, none⟩
  | .starts =>
    let out := (Manager.new dir).exec works s.table
    ⟨out.2, some out.1⟩
  | .diesStarting k => ⟨(Manager.new dir).after works k s.table, none⟩

/-- The routes in the files of earlier runs. -/
def listed (files : Files (List Route)) (paths : List Place) : List Route :=
  paths.flatMap fun place => match files.get place with
    | some (.record routes) => routes
    | some .garbled | none => []

def found (files : Files (List Route)) (paths : List Place) : List Route :=
  match files.readable paths with
  | some (.record routes) => routes
  | some .garbled | none => []

/-- The first file that can be read parses and lists all that is listed. -/
def Consistent (files : Files (List Route)) (paths : List Place) : Prop :=
  ∀ r ∈ listed files paths, r ∈ found files paths

instance (files : Files (List Route)) (paths : List Place) :
  Decidable (Consistent files paths) := by
  unfold Consistent
  infer_instance

/-- The process does not die between the addition of a route and its record. -/
def Op.recorded : Op → Bool
  | .dies (.ensureDefaultViaTunnel ..) k | .dies (.ensurePeerBypass ..) k => k ≠ 1
  | .dies .removeAll _ | .returns _ | .starts | .diesStarting _ => true

/-- What earlier runs added and had not deleted: the routes in their files that are there. -/
def leftover (dir : StateDir) (routes : Finset Route) (files : Files (List Route)) : Table :=
  ⟨routes, routes.filter (· ∈ listed files dir.paths), false, files⟩

/-- The file that `New` will read covers what is owned. -/
def Covered (paths : List Place) (t : Table) : Prop := ∀ r ∈ t.owned, r ∈ found t.files paths

section scripts
variable {paths : List Place} {t : Table}

theorem covered_of_owned (none : t.owned = ∅) : Covered paths t := fun r member => by
  rw [none] at member
  exact absurd member (Finset.notMem_empty r)

theorem ensures_deleteAll (rs : List Route) (covered : Covered paths t) :
    (deleteAll rs).Ensures works (Covered paths)
      (fun _ t' => (∀ r ∈ t'.owned, r ∈ t.owned ∧ r ∉ rs) ∧ ∀ r ∈ t'.routes, r ∈ t.routes ∧ r ∉ rs)
      t := by
  induction rs generalizing t with
  | nil =>
    exact ⟨covered, fun r member => ⟨member, List.not_mem_nil⟩,
      fun r member => ⟨member, List.not_mem_nil⟩⟩
  | cons r rest ih =>
    have next : Covered paths (works (.os (.delete r)) t).2 := fun r' member =>
      covered r' (Finset.mem_of_mem_erase member)
    have erased : ∀ {set : Finset Route} {r' : Route}, r' ∈ set.erase r ∧ r' ∉ rest →
        r' ∈ set ∧ r' ∉ r :: rest := by
      rintro set r' ⟨before, absent⟩
      obtain ⟨other, inSet⟩ := Finset.mem_erase.mp before
      exact ⟨inSet, fun member => (List.mem_cons.mp member).elim other absent⟩
    refine Script.Ensures.step covered (Script.Ensures.seq (ih next) ?_)
    intro _ t' now ⟨owned, routes⟩
    exact ⟨now, fun r' member => erased (owned r' member), fun r' member =>
      erased (routes r' member)⟩

theorem ensures_removeFiles (places : List Place) (none : t.owned = ∅) :
    (removeFiles places).Ensures works (Covered paths)
      (fun _ t' => t'.owned = ∅ ∧ t'.routes = t.routes) t := by
  induction places generalizing t with
  | nil => exact ⟨covered_of_owned none, none, rfl⟩
  | cons place rest ih =>
    have still : (works (.file (.remove place)) t).2.owned = ∅ := none
    exact Script.Ensures.step (covered_of_owned none) (ih still)

/-- What is owned is deleted, and until then the file covers it. -/
theorem ensures_reconcile (covered : Covered paths t) :
    (reconcile paths).Ensures works (Covered paths)
      (fun _ t' => t'.owned = ∅ ∧ ∀ r ∈ t.owned, r ∉ t'.routes) t := by
  have idle : found t.files paths = [] → (pure () : Rt Unit).Ensures works (Covered paths)
      (fun _ t' => t'.owned = ∅ ∧ ∀ r ∈ t.owned, r ∉ t'.routes) t := fun empty => by
    have none : t.owned = ∅ := Finset.eq_empty_of_forall_notMem fun r member => by
      have inFile := covered r member
      rw [empty] at inFile
      exact List.not_mem_nil inFile
    exact ⟨covered, none, fun r member => absurd (none ▸ member) (Finset.notMem_empty r)⟩
  refine Script.Ensures.step covered ?_
  have reply : (works (.file (.read paths)) t).1 = t.files.readable paths := rfl
  have state : (works (.file (.read paths)) t).2 = t := rfl
  rw [reply, state]
  cases readable : t.files.readable paths with
  | none => exact idle (by rw [found, readable])
  | some content =>
    cases content with
    | garbled => exact idle (by rw [found, readable])
    | record rs =>
      have inFile : ∀ r ∈ t.owned, r ∈ rs := fun r member => by
        have inFound := covered r member
        rwa [found, readable] at inFound
      refine Script.Ensures.seq (ensures_deleteAll rs covered) ?_
      intro _ t' _ ⟨owned, routes⟩
      have none : t'.owned = ∅ := Finset.eq_empty_of_forall_notMem fun r member =>
        (owned r member).2 (inFile r (owned r member).1)
      refine (ensures_removeFiles paths none).mono (fun _ h => h) ?_
      rintro _ t'' _ ⟨none, same⟩
      exact ⟨none, fun r member there => (routes r (same ▸ there)).2 (inFile r member)⟩

theorem ensures_new (dir : StateDir) (covered : Covered dir.paths t) :
    (Manager.new dir).Ensures works (Covered dir.paths)
      (fun m t' => m = ⟨dir, [], false⟩ ∧ t'.owned = ∅ ∧ ∀ r ∈ t.owned, r ∉ t'.routes) t :=
  (ensures_reconcile covered).seq fun _ _ now gone => ⟨now, rfl, gone⟩

variable {m : Manager}

/-- Before the record of a new route, all but this route is covered; then all is. -/
theorem exec_ensure (located : m.dir ≠ .homeless) (mine : ∀ r ∈ t.owned, r ∈ m.added) (r : Route) :
    ((m.ensure r).exec works t).1.2 = { m with added := m.added ++ [r] } ∧
      (∀ r' ∈ ((m.ensure r).exec works t).2.owned, r' ∈ m.added ++ [r]) ∧
      Covered m.dir.paths ((m.ensure r).exec works t).2 := by
  have owned : ∀ r' ∈ insert r t.owned, r' ∈ m.added ++ [r] := by
    intro r' member
    rcases Finset.mem_insert.mp member with rfl | before
    · exact List.mem_append_right _ List.mem_cons_self
    · exact List.mem_append_left _ (mine r' before)
  obtain ⟨dir, added, ipv6Off⟩ := m
  cases dir with
  | homeless => exact absurd rfl located
  | single | migrating => exact ⟨rfl, owned, owned⟩

/-- A process that dies with its route added has also saved it, unless it dies in between. -/
theorem after_ensure (located : m.dir ≠ .homeless) (r : Route) {k : ℕ} (saved : k ≠ 1) :
    (m.ensure r).after works k t = t ∨
      (m.ensure r).after works k t = ((m.ensure r).exec works t).2 := by
  obtain ⟨dir, added, ipv6Off⟩ := m
  match k with
  | 0 => exact .inl rfl
  | 1 => exact absurd rfl saved
  | k + 2 =>
    cases dir with
    | homeless => exact absurd rfl located
    | single | migrating => exact .inr rfl

theorem ensures_removeAll (mine : ∀ r ∈ t.owned, r ∈ m.added) (covered : Covered m.dir.paths t) :
    m.removeAll.Ensures works (Covered m.dir.paths)
      (fun res t' => res.2.dir = m.dir ∧ t'.owned = ∅) t := by
  refine (ensures_deleteAll m.added.reverse covered).seq ?_
  intro _ t' _ ⟨owned, _⟩
  have none : t'.owned = ∅ := Finset.eq_empty_of_forall_notMem fun r member =>
    (owned r member).2 (List.mem_reverse.mpr (mine r (owned r member).1))
  have ipv6 : ({ m with added := [] } : Manager).removeIPv6.Ensures works (Covered m.dir.paths)
      (fun res t' => res.2.dir = m.dir ∧ t'.owned = ∅) t' := by
    unfold Manager.removeIPv6
    split
    · have kept : (works (.os .restoreIPv6) t').2.owned = ∅ := by
        simp only [works, Command.act, OsCommand.run]
        split <;> exact none
      exact ⟨covered_of_owned none, covered_of_owned kept, rfl, kept⟩
    · exact ⟨covered_of_owned none, rfl, none⟩
  refine ipv6.seq fun res t' _ ⟨dir, none⟩ => ?_
  exact (ensures_removeFiles m.statePaths none).seq fun _ t' now gone => ⟨now, dir, gone.1⟩

end scripts

section runs
variable {dir : StateDir}

structure Inv (dir : StateDir) (s : State) : Prop where
  covered : Covered dir.paths s.table
  manager : ∀ m, s.manager = some m → m.dir = dir ∧ ∀ r ∈ s.table.owned, r ∈ m.added

theorem script_cases (m : Manager) (call : Call) :
    (∃ r, call.script m = m.ensure r ∧ ∀ k, (Op.dies call k).recorded = true → k ≠ 1) ∨
      call.script m = m.removeAll := by
  cases call with
  | ensureDefaultViaTunnel iface tunGateway metric =>
    exact .inl ⟨_, rfl, fun k => of_decide_eq_true⟩
  | ensurePeerBypass peerIP origIface origGateway metric =>
    exact .inl ⟨_, rfl, fun k => of_decide_eq_true⟩
  | removeAll => exact .inr rfl

theorem inv_step (located : dir ≠ .homeless) (s : State) (op : Op) (recorded : op.recorded = true)
    (inv : Inv dir s) : Inv dir (step dir s op) := by
  obtain ⟨t, manager⟩ := s
  cases op with
  | starts =>
    obtain ⟨new, none, _⟩ := (ensures_new dir inv.covered).exec
    refine ⟨covered_of_owned none, fun m started => ?_⟩
    obtain rfl := Option.some.inj started
    rw [new]
    exact ⟨rfl, fun r member => absurd (none ▸ member) (Finset.notMem_empty r)⟩
  | diesStarting k => exact ⟨(ensures_new dir inv.covered).after k, nofun⟩
  | returns call =>
    cases manager with
    | none => exact inv
    | some m =>
      obtain ⟨rfl, mine⟩ := inv.manager m rfl
      rcases script_cases m call with ⟨r, script, _⟩ | script
      · obtain ⟨next, owned, covered⟩ := exec_ensure (t := t) located mine r
        simp only [step, script]
        refine ⟨covered, fun m' same => ?_⟩
        obtain rfl := Option.some.inj same
        rw [next]
        exact ⟨rfl, owned⟩
      · obtain ⟨same, none⟩ := (ensures_removeAll mine inv.covered).exec
        simp only [step, script]
        refine ⟨covered_of_owned none, fun m' next => ?_⟩
        obtain rfl := Option.some.inj next
        exact ⟨same, fun r member => absurd (none ▸ member) (Finset.notMem_empty r)⟩
  | dies call k =>
    cases manager with
    | none => exact inv
    | some m =>
      obtain ⟨rfl, mine⟩ := inv.manager m rfl
      rcases script_cases m call with ⟨r, script, saved⟩ | script
      · simp only [step, script]
        refine ⟨?_, nofun⟩
        rcases after_ensure (t := t) located r (saved k recorded) with before | done
        · rw [before]
          exact inv.covered
        · rw [done]
          exact (exec_ensure located mine r).2.2
      · simp only [step, script]
        exact ⟨(ensures_removeAll mine inv.covered).after k, nofun⟩

/-- In every run over state files of which the first that can be read lists all, in which the
process never dies between a route and its record: whenever a manager is constructed, every route
that was added and not deleted is gone. -/
theorem new_removes_owned (dir : StateDir) (located : dir ≠ .homeless) (routes : Finset Route)
    (files : Files (List Route)) (consistent : Consistent files dir.paths) (ops : List Op)
    (recorded : ∀ op ∈ ops, op.recorded = true) :
    Run.Along (step dir)
      (fun s op => op = .starts → ∀ r ∈ s.table.owned, r ∉ (step dir s op).table.routes)
      ⟨leftover dir routes files, none⟩ ops := by
  have start : Inv dir ⟨leftover dir routes files, none⟩ :=
    ⟨fun r member => consistent r (Finset.mem_filter.mp member).2, nofun⟩
  refine Run.along_of_invariant start (inv_step located) ?_
    (Run.along_of_mem fun op member _ => recorded op member)
  rintro s _ _ inv rfl
  exact (ensures_new dir inv.covered).exec.2.2

end runs

section instances

def someRoute : Route := ⟨"0.0.0.0/0", "10.89.0.1", "veilnet", 5⟩

def otherRoute : Route := ⟨"203.0.113.7/32", "192.168.1.1", "eth0", 1⟩

/-- An earlier run left one route, in the old place. -/
def someFiles : Files (List Route) := ⟨none, some (.record [someRoute])⟩

/-- The process dies while it starts, between two calls and while it removes its routes. -/
def someOps : List Op :=
  [.diesStarting 2, .starts, .returns (.ensurePeerBypass "203.0.113.7" "eth0" "192.168.1.1" 1),
    .returns (.ensureDefaultViaTunnel "veilnet" "10.89.0.1" 5), .dies .removeAll 1, .starts]

theorem routes_removed_in_some_run :
    Run.Along (step .migrating)
      (fun s op => op = .starts → ∀ r ∈ s.table.owned, r ∉ (step .migrating s op).table.routes)
      ⟨leftover .migrating {someRoute} someFiles, none⟩ someOps :=
  new_removes_owned .migrating (by decide) {someRoute} someFiles (by decide) someOps (by decide)

/-- A route whose record was not reached stays, and so does one that only the second file
lists, which is deleted all the same. -/
theorem routes_missed :
    (Run.run (step .migrating) ⟨leftover .migrating ∅ Files.empty, none⟩
        [.starts, .dies (.ensurePeerBypass "203.0.113.7" "eth0" "192.168.1.1" 1) 1,
          .starts]).table.routes = {otherRoute} ∧
      (Run.run (step .migrating) ⟨leftover .migrating {someRoute, otherRoute}
          ⟨some (.record [someRoute]), some (.record [otherRoute])⟩, none⟩ [.starts]).table =
        ⟨{otherRoute}, {otherRoute}, false, Files.empty⟩ := by
  decide

end instances

end VeilNet.Guarantees.RouteRecovery
