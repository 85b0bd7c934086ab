import VeilNet.Source.Nodes.Controller
import VeilNet.Lib.Threads

/-!
The operations of `internal/nodes/controller.go` as tasks. The controller's mutex covers only the
reading of the configuration; the count of the sessions, the lease of the address and the entry of
the session are critical sections of other objects, each one step. Device and store are not shared
with these.
-/
namespace VeilNet.Source.Nodes
open Lib Source.Sessions

/-- The arguments of one `Authorize` call, with what it learns from outside. -/
structure Request where
  call : Call
  clientPubkey : String
  endpoint : String

/-- What is left of an operation. `policy` is the configuration as it was read. -/
inductive Task where
  | readConfig (req : Request)
  | count (req : Request) (policy : Config)
  | lease (req : Request) (policy : Config)
  | session (req : Request) (policy : Config) (assigned : String)
  | undo (now : Time) (tokenID assigned : String)
  | giveBack (assigned : String)
  | find (now : Time) (tokenID : String)
  | drop (now : Time) (tokenID assigned : String)
  | sweep (now : Time) (order : RangeOrder)
  | expire (addresses : List String)
  | done

namespace Task

/-- When the task reads the clock in its next section, the reading. -/
def time : Task → Option Time
  | .count req _ => some req.call.countedAt
  | .session req _ _ => some req.call.now
  | .undo now _ _ | .drop now _ _ | .sweep now _ => some now
  | .readConfig _ | .lease _ _ | .giveBack _ | .find _ _ | .expire _ | .done => none

/-- One atomic section, with the local decisions that follow it. -/
def next (text : IPText) (c : Controller) : Task → Controller × Task
  | .readConfig req =>
    (c, if c.cfg.emergencyDisable then .done
      else match req.call.precheck with
        | .error _ => .done
        | .ok () => if !c.cfg.acceptNew then .done else .count req c.cfg)
  | .count req policy =>
    (c, if (activeCount c.ses req.call.countedAt : ℤ) ≥ policy.maxClients then .done
      else match req.call.keyParse with
        | .error _ => if c.fakeWG then .lease req policy else .done
        | .ok () => .lease req policy)
  | .lease req policy =>
    match c.ip.allocate text with
    | (none, ip) => ({ c with ip }, .done)
    | (some assigned, ip) => ({ c with ip }, .session req policy assigned)
  | .session req policy assigned =>
    match Sessions.authorize req.call.validated req.call.now c.ses req.clientPubkey assigned
        req.endpoint with
    | (.error _, ses) => ({ c with ses }, .giveBack assigned)
    | (.ok s, ses) =>
      ({ c with ses },
        if policy.nodeType = .relay ∧ s.scope = scopeExit then
          .undo req.call.revokedAt s.tokenID assigned
        else match req.call.addPeer with
          | .error _ => .undo req.call.revokedAt s.tokenID assigned
          | .ok () => .done)
  | .undo now tokenID assigned =>
    ({ c with ses := (Sessions.revoke now c.ses tokenID).2 }, .giveBack assigned)
  | .giveBack assigned => ({ c with ip := c.ip.release text assigned }, .done)
  | .find now tokenID =>
    match Sessions.get c.ses tokenID with
    | .error _ => (c, .done)
    | .ok s => (c, .drop now tokenID s.assignedIP)
  | .drop now tokenID assigned =>
    match Sessions.revoke now c.ses tokenID with
    | (some _, ses) => ({ c with ses }, .done)
    | (none, ses) => ({ c with ses }, .giveBack assigned)
  | .sweep now order =>
    ({ c with ses := (Sessions.sweepOnce order now c.ses).2 },
      .expire ((Sessions.sweepOnce order now c.ses).1.map (·.assignedIP)))
  | .expire [] => (c, .done)
  | .expire (address :: rest) => ({ c with ip := c.ip.release text address }, .expire rest)
  | .done => (c, .done)

end Task

/-- The operations that may run concurrently. -/
inductive Job where
  | authorize (req : Request)
  | revoke (now : Time) (tokenID : String)
  | sweep (now : Time) (order : RangeOrder)

def Job.start : Job → Task
  | .authorize req => .readConfig req
  | .revoke now tokenID => .find now tokenID
  | .sweep now order => .sweep now order

section solo
variable (text : IPText) (c : Controller)

theorem run_succ (t : Task) (n : ℕ) :
    Run.run (Threads.step (Task.next text)) ⟨c, [t]⟩ (List.replicate (n + 1) 0) =
      Run.run (Threads.step (Task.next text)) ⟨(t.next text c).1, [(t.next text c).2]⟩
        (List.replicate n 0) := rfl

theorem run_done (n : ℕ) :
    Run.run (Threads.step (Task.next text)) ⟨c, [.done]⟩ (List.replicate n 0) = ⟨c, [.done]⟩ := by
  induction n with
  | zero => rfl
  | succ n ih => exact ih

/-- The two sections before the lease make the checks of `admission`. -/
theorem solo_admission (req : Request) (n : ℕ) :
    Run.run (Threads.step (Task.next text)) ⟨c, [.readConfig req]⟩ (List.replicate (n + 2) 0) =
      match c.admission req.call with
      | .error _ => ⟨c, [.done]⟩
      | .ok () => Run.run (Threads.step (Task.next text)) ⟨c, [.lease req c.cfg]⟩
          (List.replicate n 0) := by
  rw [run_succ, Task.next, Controller.admission]
  cases c.cfg.emergencyDisable with
  | true => exact run_done text c (n + 1)
  | false =>
    cases req.call.precheck with
    | error e => exact run_done text c (n + 1)
    | ok u =>
      cases c.cfg.acceptNew with
      | false => exact run_done text c (n + 1)
      | true =>
        simp only [Bool.false_eq_true, ↓reduceIte, Bool.not_true]
        rw [run_succ, Task.next]
        split
        · exact run_done text c n
        · cases req.call.keyParse with
          | error e =>
            cases c.fakeWG with
            | false => exact run_done text c n
            | true => rfl
          | ok u => rfl

/-- An `Authorize` that nothing interrupts is the sequential one. -/
theorem solo_authorize (req : Request) :
    (Run.run (Threads.step (Task.next text)) ⟨c, [(Job.authorize req).start]⟩
        (List.replicate 6 0)).shared =
      (c.authorize text req.call req.clientPubkey req.endpoint).2.1 := by
  rw [Job.start, solo_admission, Controller.authorize]
  cases c.admission req.call with
  | error e => rfl
  | ok u =>
    dsimp only
    rw [run_succ, Task.next]
    rcases c.ip.allocate text with ⟨_ | assigned, ip⟩
    · rfl
    · dsimp only
      rw [run_succ, Task.next]
      dsimp only
      rcases Sessions.authorize req.call.validated req.call.now c.ses req.clientPubkey assigned
        req.endpoint with ⟨e | s, ses⟩
      · rfl
      · dsimp only
        split
        · rfl
        · cases req.call.addPeer <;> rfl

theorem solo_revoke (now : Time) (tokenID : String) :
    (Run.run (Threads.step (Task.next text)) ⟨c, [(Job.revoke now tokenID).start]⟩
        (List.replicate 3 0)).shared = (c.revoke text now tokenID).2.1 := by
  rw [Job.start, run_succ, Task.next, Controller.revoke]
  cases Sessions.get c.ses tokenID with
  | error e => rfl
  | ok s =>
    dsimp only
    rw [run_succ, Task.next]
    rcases Sessions.revoke now c.ses tokenID with ⟨_ | e, ses⟩ <;> rfl

theorem run_expire (addresses : List String) :
    (Run.run (Threads.step (Task.next text)) ⟨c, [.expire addresses]⟩
        (List.replicate addresses.length 0)).shared =
      { c with ip := addresses.foldl (IPAM.release text) c.ip } := by
  induction addresses generalizing c with
  | nil => rfl
  | cons address rest ih => exact ih { c with ip := c.ip.release text address }

theorem solo_sweep (now : Time) (order : RangeOrder) :
    (Run.run (Threads.step (Task.next text)) ⟨c, [(Job.sweep now order).start]⟩
        (List.replicate ((c.sweepOnce text order now).1 + 1) 0)).shared =
      (c.sweepOnce text order now).2.1 := by
  have callbacks := run_expire text { c with ses := (Sessions.sweepOnce order now c.ses).2 }
    ((Sessions.sweepOnce order now c.ses).1.map (·.assignedIP))
  rw [List.length_map] at callbacks
  exact callbacks

end solo

end VeilNet.Source.Nodes
