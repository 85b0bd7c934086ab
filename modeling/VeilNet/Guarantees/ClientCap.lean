import VeilNet.Source.Nodes.Concurrent
import VeilNet.Guarantees.AddressLeases

/-!
# The client cap under concurrency

`Authorize` counts the sessions in one critical section and enters its own in another. Calls that
count before any of them enters all find room. While a call that passes the count leaves room for
these, the cap holds in every interleaving.
-/
namespace VeilNet.Guarantees.ClientCap
open Lib Source.Sessions Source.Nodes

/-- The controller, and the last clock reading. -/
structure Clocked where
  ctl : Controller
  clock : Time

abbrev World := Threads.Pool Clocked Task

def next (text : IPText) (s : Clocked) (t : Task) : Clocked × Task :=
  (⟨(t.next text s.ctl).1, t.time.getD s.clock⟩, (t.next text s.ctl).2)

def step (text : IPText) : World → ℕ → World := Threads.step (next text)

def start (c : Controller) (clock : Time) (jobs : List Job) : World :=
  ⟨⟨c, clock⟩, jobs.map Job.start⟩

/-- The call has passed the count and has not reached the session table. -/
def passed : Task → Bool
  | .lease .. | .session .. => true
  | _ => false

def pending (w : World) : ℕ := w.tasks.countP passed

/-- From now on, no more unexpired sessions than the configuration allows. -/
def WithinCap (w : World) : Prop :=
  ∀ now, w.shared.clock ≤ now →
    (activeCount w.shared.ctl.ses now : ℤ) ≤ w.shared.ctl.cfg.maxClients

/-- The clock does not go back. -/
def Forward (w : World) (i : ℕ) : Prop :=
  ∀ t ∈ w.tasks[i]?, ∀ now ∈ t.time, w.shared.clock ≤ now

def RoomFor (w : World) : Task → Prop
  | .count req policy =>
    (activeCount w.shared.ctl.ses req.call.countedAt : ℤ) < policy.maxClients →
      (activeCount w.shared.ctl.ses req.call.countedAt + pending w : ℤ) < policy.maxClients
  | _ => True

/-- A call that passes the count finds room for the pending calls too. -/
def Room (w : World) (i : ℕ) : Prop := ∀ t ∈ w.tasks[i]?, RoomFor w t

instance (w : World) (i : ℕ) : Decidable (Forward w i) :=
  inferInstanceAs (Decidable (∀ t ∈ w.tasks[i]?, ∀ now ∈ t.time, w.shared.clock ≤ now))

instance (w : World) (t : Task) : Decidable (RoomFor w t) := by
  cases t <;> unfold RoomFor <;> infer_instance

instance (w : World) (i : ℕ) : Decidable (Room w i) :=
  inferInstanceAs (Decidable (∀ t ∈ w.tasks[i]?, RoomFor w t))

section sections
variable (text : IPText) (c : Controller)

theorem next_cfg (t : Task) : (t.next text c).1.cfg = c.cfg := by
  cases t with
  | lease req policy =>
    rw [Task.next]
    split <;> rfl
  | session req policy assigned =>
    rw [Task.next]
    split <;> rfl
  | find now tokenID =>
    rw [Task.next]
    split <;> rfl
  | drop now tokenID assigned =>
    rw [Task.next]
    split <;> rfl
  | expire addresses => cases addresses <;> rfl
  | _ => rfl

theorem next_policy {t : Task} {req : Request} {policy : Config}
    (counts : (t.next text c).2 = .count req policy) : policy = c.cfg := by
  cases t with
  | readConfig req' =>
    rw [Task.next] at counts
    dsimp only at counts
    split at counts
    · cases counts
    · split at counts
      · cases counts
      · split at counts
        · cases counts
        · cases counts
          rfl
  | count req' policy' =>
    rw [Task.next] at counts
    dsimp only at counts
    split at counts
    · cases counts
    · split at counts
      · split at counts <;> cases counts
      · cases counts
  | lease req' policy' =>
    rw [Task.next] at counts
    split at counts <;> cases counts
  | session req' policy' assigned =>
    rw [Task.next] at counts
    split at counts
    · cases counts
    · dsimp only at counts
      split at counts
      · cases counts
      · split at counts <;> cases counts
  | find now tokenID =>
    rw [Task.next] at counts
    split at counts <;> cases counts
  | drop now tokenID assigned =>
    rw [Task.next] at counts
    split at counts <;> cases counts
  | expire addresses => cases addresses <;> cases counts
  | _ => cases counts

/-- Only the count lets a call pass; then there are fewer sessions than allowed. -/
theorem next_count (req : Request) (policy : Config) :
    (Task.next text c (.count req policy)).1 = c ∧
      (passed (Task.next text c (.count req policy)).2 = true →
        (activeCount c.ses req.call.countedAt : ℤ) < policy.maxClients) := by
  rw [Task.next]
  refine ⟨rfl, ?_⟩
  dsimp only
  split
  · intro impossible
    cases impossible
  · next room =>
    intro _
    omega

/-- No other section makes the sessions and the pending calls together more: a
session is entered by a pending call. -/
theorem next_weight (t : Task) (other : ∀ req policy, t ≠ .count req policy) (now : Time) :
    activeCount (t.next text c).1.ses now + (passed (t.next text c).2).toNat ≤
      activeCount c.ses now + (passed t).toNat := by
  cases t with
  | readConfig req =>
    have waits : passed (Task.next text c (.readConfig req)).2 = false := by
      rw [Task.next]
      dsimp only
      split
      · rfl
      · split
        · rfl
        · split <;> rfl
    rw [waits]
    exact Nat.le_refl _
  | count req policy => exact absurd rfl (other req policy)
  | lease req policy =>
    rw [Task.next]
    split
    · exact Nat.le_add_right _ _
    · exact Nat.le_refl _
  | session req policy assigned =>
    rw [Task.next]
    rcases Source.Sessions.authorize_cases req.call.validated req.call.now c.ses req.clientPubkey
      assigned req.endpoint with ⟨e, refused⟩ | ⟨tok, _, _, _, _, opened⟩
    · rw [refused]
      exact Nat.le_add_right _ _
    · rw [opened]
      dsimp only
      have one := activeCount_enter_le c.ses
        (openSession c.ses req.call.now tok req.clientPubkey assigned req.endpoint) now
      split
      · exact one
      · split <;> exact one
  | undo at_ tokenID assigned =>
    exact activeCount_le_of_sublist now (revoke_sublist at_ c.ses tokenID)
  | find at_ tokenID =>
    rw [Task.next]
    split <;> exact Nat.le_refl _
  | drop at_ tokenID assigned =>
    have fewer := activeCount_le_of_sublist now (revoke_sublist at_ c.ses tokenID)
    rw [Task.next]
    split
    · next e ses outcome =>
      rw [outcome] at fewer
      exact fewer
    · next ses outcome =>
      rw [outcome] at fewer
      exact fewer
  | sweep at_ order =>
    exact activeCount_le_of_sublist now (sweepOnce_sublist order at_ c.ses)
  | expire addresses => cases addresses <;> exact Nat.le_refl _
  | giveBack assigned => exact Nat.le_refl _
  | done => exact Nat.le_refl _

end sections

/-- The sessions and the pending calls together stay within the cap, and every call
that is about to count holds the configuration. -/
structure Bounded (w : World) : Prop where
  total : (activeCount w.shared.ctl.ses w.shared.clock + pending w : ℤ) ≤
    w.shared.ctl.cfg.maxClients
  policies : ∀ req policy, .count req policy ∈ w.tasks → policy = w.shared.ctl.cfg

theorem Bounded.withinCap {w : World} (h : Bounded w) : WithinCap w := by
  intro now later
  have fewer := activeCount_anti w.shared.ctl.ses later
  have total := h.total
  omega

theorem bounded_start {c : Controller} {clock : Time}
    (within : (activeCount c.ses clock : ℤ) ≤ c.cfg.maxClients) (jobs : List Job) :
    Bounded (start c clock jobs) := by
  have fresh : ∀ job ∈ jobs, passed job.start = false := by
    intro job _
    cases job <;> rfl
  have none_pending : pending (start c clock jobs) = 0 := by
    rw [pending, start, List.countP_eq_zero]
    simpa using fresh
  constructor
  · rw [none_pending]
    simpa [start] using within
  · intro req policy member
    obtain ⟨job, _, begins⟩ := List.mem_map.mp member
    cases job <;> cases begins

/-- One section keeps the sessions and the pending calls within the cap; `others` is
the number of the other pending calls. -/
theorem total_next (text : IPText) {s : Clocked} {t : Task} {others : ℕ}
    (later : s.clock ≤ t.time.getD s.clock)
    (room : ∀ req policy, t = .count req policy → policy = s.ctl.cfg ∧
      ((activeCount s.ctl.ses req.call.countedAt : ℤ) < policy.maxClients →
        (activeCount s.ctl.ses req.call.countedAt + others : ℤ) < policy.maxClients))
    (total : (activeCount s.ctl.ses s.clock + (others + (passed t).toNat : ℕ) : ℤ) ≤
      s.ctl.cfg.maxClients) :
    (activeCount (next text s t).1.ctl.ses (next text s t).1.clock +
      (others + (passed (next text s t).2).toNat : ℕ) : ℤ) ≤ s.ctl.cfg.maxClients := by
  have fewer := activeCount_anti s.ctl.ses later
  by_cases counts : ∃ req policy, t = .count req policy
  · obtain ⟨req, policy, rfl⟩ := counts
    obtain ⟨unchanged, below⟩ := next_count text s.ctl req policy
    obtain ⟨mine, free⟩ := room req policy rfl
    simp only [next, Task.time, Option.getD_some, unchanged] at fewer ⊢
    cases passes : passed (Task.next text s.ctl (.count req policy)).2 with
    | false =>
      simp only [Bool.toNat_false]
      omega
    | true =>
      have spare := free (below passes)
      rw [mine] at spare
      simp only [Bool.toNat_true]
      omega
  · have weight := next_weight text s.ctl t (fun req policy eq => counts ⟨req, policy, eq⟩)
      (t.time.getD s.clock)
    simp only [next]
    omega

theorem Bounded.step {text : IPText} {w : World} {i : ℕ} (h : Bounded w)
    (forward : Forward w i) (room : Room w i) : Bounded (step text w i) := by
  rcases Threads.step_cases (next text) w i with still | ⟨front, t, back, found, tasks, _, moved⟩
  · rw [ClientCap.step, still]
    exact h
  have later : w.shared.clock ≤ t.time.getD w.shared.clock := by
    cases reading : t.time with
    | none => exact le_refl w.shared.clock
    | some now => exact forward t found now reading
  have before : pending w = (front ++ back).countP passed + (passed t).toNat := by
    rw [pending, tasks, Slots.countP_middle]
  have total := h.total
  rw [before] at total
  rw [ClientCap.step, moved]
  constructor
  · rw [pending, Slots.countP_middle]
    refine (total_next text later ?_ total).trans_eq (congrArg _ (next_cfg text _ t).symm)
    rintro req policy rfl
    have free := room _ found
    rw [RoomFor, before] at free
    exact ⟨h.policies req policy (List.mem_of_getElem? found), free⟩
  · intro req policy member
    rcases Slots.mem_replaced member with now | kept
    · exact (next_policy text w.shared.ctl now.symm).trans (next_cfg text _ t).symm
    · exact (h.policies req policy (tasks ▸ kept)).trans (next_cfg text _ t).symm

/-- From a state within the cap, in every interleaving: while each call that passes the count
leaves room for the calls that have passed it and hold no session yet, the cap is kept. -/
theorem cap_kept (text : IPText) (c : Controller) (clock : Time) (jobs : List Job)
    (schedule : List ℕ) (within : (activeCount c.ses clock : ℤ) ≤ c.cfg.maxClients)
    (forward : Run.Along (step text) Forward (start c clock jobs) schedule)
    (room : Run.Along (step text) Room (start c clock jobs) schedule) :
    Run.Throughout (step text) WithinCap (start c clock jobs) schedule :=
  (Run.throughout_of_invariant (bounded_start within jobs)
    (fun _ _ met h => h.step met.1 met.2) (forward.and room)).mono fun _ h => h.withinCap

section sample
open AddressLeases

def cappedNode (maxClients : ℤ) : Controller :=
  { exitNode with cfg := { exitConfig with maxClients } }

/-- An `Authorize` call with a token of its own. -/
def clientJob (tokenID : String) (now : Time) : Job :=
  .authorize
    { call := { hourCall now (.ok ()) with
        validated := .ok ⟨tokenID, "n", "s", Duration.hour, scopeExit, tokenID ++ ".secret"⟩ },
      clientPubkey := tokenID, endpoint := "" }

/-- Two clients count before either has a session, where there is room for both; a
third is refused, until one of them is revoked. -/
theorem twoClients_cap_kept :
    Run.Throughout (step IPText.dottedQuad) WithinCap
      (start (cappedNode 2) 0 [clientJob "a" 0, clientJob "b" 0, clientJob "c" 0,
        .revoke 1 "a", clientJob "d" 2, .sweep (2 * Duration.hour) .forward])
      [0, 1, 2, 0, 1, 0, 1, 0, 1, 2, 3, 3, 3, 4, 4, 4, 4, 5, 5] :=
  cap_kept IPText.dottedQuad (cappedNode 2) 0 _ _ (by decide) (by decide)
    (by decide)

/-- Two calls with tokens of their own at a node for one client; both count first. -/
def bothCountFirst : World :=
  Run.run (step IPText.dottedQuad) (start (cappedNode 1) 0 [clientJob "a" 0, clientJob "b" 0])
    [0, 1, 0, 1, 0, 1, 0, 1]

/-- Both clients are served. -/
theorem bothCountFirst_passes_cap :
    newController IPText.dottedQuad (cappedNode 1).cfg true false 0 [] = .ok (cappedNode 1) ∧
    Run.Along (step IPText.dottedQuad) Forward
      (start (cappedNode 1) 0 [clientJob "a" 0, clientJob "b" 0]) [0, 1, 0, 1, 0, 1, 0, 1] ∧
    activeCount bothCountFirst.shared.ctl.ses 0 = 2 ∧
    ¬ WithinCap bothCountFirst := by
  have two : activeCount bothCountFirst.shared.ctl.ses 0 = 2 := by decide
  refine ⟨exitNode_starts 1 false, by decide, two, fun holds => ?_⟩
  have most := holds 0 (by decide)
  rw [two] at most
  exact absurd most (by decide)

end sample

end VeilNet.Guarantees.ClientCap
