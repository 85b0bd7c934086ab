import VeilNet.Source.Tunnel.Ownership

/-!
# No data plane is leaked

`Start` checks for a backend, creates one, publishes it, registers the stop channel and starts the
watchdog in separate steps. Of two starts that pass the check the second drops the first one's
backend; a `Stop` between publication and watchdog leaves a watchdog alone. Undisturbed launches
leave every backend the engine's or closed, and a watchdog exactly if there is a backend.
-/
namespace VeilNet.Guarantees.NoLeak
open Lib Source.Tunnel

inductive Call where
  | start (call : Launch)
  | stop (call : Halt)

def Call.begin : Call → Running
  | .start call => .start call
  | .stop call => .stop call

def start (e : Engine) (calls : List Call) : Pool := ⟨newShared e, calls.map Call.begin⟩

/-- The call has returned; a watchdog is no call. -/
def atRest : Running → Bool
  | .returned _ | .watch .. | .exited => true
  | _ => false

def isWatchdog : Running → Bool
  | .watch .. => true
  | _ => false

/-- Every backend ever created is the current one or closed, and there is one live
watchdog if there is a backend and none otherwise. -/
structure Accounted (w : Pool) : Prop where
  backends : ∀ b < w.shared.backends, w.shared.engine.backend = some b ∨ b ∈ w.shared.closed
  watchdog : w.tasks.countP isWatchdog = if w.shared.engine.backend.isSome then 1 else 0

/-- `Accounted` when all calls have returned. -/
def Settled (w : Pool) : Prop := (∀ t ∈ w.tasks, atRest t = true) → Accounted w

/-- Between the publication of its backend and the start of its watchdog. -/
def launching (t : Running) : Bool := t.role.launching

def UndisturbedBy (w : Pool) : Running → Prop
  | .publish .. => w.shared.engine.backend = none
  | .stop _ => w.tasks.countP launching = 0
  | _ => True

/-- A backend is published only while the engine has none, and `Stop` clears the engine
only while no `Start` is between its publication and its watchdog. -/
def Undisturbed (w : Pool) (i : ℕ) : Prop := ∀ t ∈ w.tasks[i]?, UndisturbedBy w t

instance (w : Pool) (t : Running) : Decidable (UndisturbedBy w t) := by
  unfold UndisturbedBy
  split <;> infer_instance

instance (w : Pool) (i : ℕ) : Decidable (Undisturbed w i) :=
  inferInstanceAs (Decidable (∀ t ∈ w.tasks[i]?, UndisturbedBy w t))

def Inv (w : Pool) : Prop := Owned w.shared.own (w.tasks.map Running.role)

section runs
variable {Key Addr Net : Type} (x : Parsers Key Addr Net)

theorem inv_step (w : Pool) (i : ℕ) (undisturbed : Undisturbed w i) (inv : Inv w) :
    Inv (pass x w i) := by
  rcases Threads.fork_cases (Running.next x) w i with same | ⟨front, t, back, found, tasks, moved⟩
  · rw [Source.Tunnel.pass, same]
    exact inv
  · have here : UndisturbedBy w t := undisturbed t found
    have first : Owned w.shared.own (t.role :: (front ++ back).map Running.role) := by
      refine inv.perm ?_
      rw [tasks, List.map_append, List.map_cons, List.map_append]
      exact List.perm_middle
    have after := first.move (t.next_move x w.shared) ?_ ?_
    · rw [Inv, Source.Tunnel.pass, moved]
      dsimp only
      refine after.perm ?_
      simp only [List.map_append, List.map_cons]
      refine .trans (.cons _ ?_) List.perm_middle.symm
      rw [← List.append_assoc (front.map Running.role) (back.map Running.role)]
      exact List.perm_append_comm
    · intro be holds
      cases t with
      | publish call b => exact here
      | _ => cases holds
    · intro halts
      cases t with
      | stop call =>
        have none : w.tasks.countP launching = 0 := here
        rw [tasks, Slots.countP_middle] at none
        rw [List.countP_map]
        exact Nat.le_zero.mp (none ▸ Nat.le_add_right _ _)
      | _ => cases halts

theorem inv_start (e : Engine) (unused : e.backend = none) (silent : e.cancel = none)
    (calls : List Call) : Inv (start e calls) := by
  have own : (start e calls).shared.own = ⟨none, none, 0, [], 0, [], 0⟩ := by
    simp only [start, newShared, Shared.own, unused, silent]
  rw [Inv, own]
  refine owned_unused fun r member => ?_
  simp only [start, List.map_map, List.mem_map] at member
  obtain ⟨call, _, rfl⟩ := member
  cases call with
  | start call => exact .inl rfl
  | stop call => exact .inr rfl

theorem settled_of_inv (w : Pool) (inv : Inv w) : Settled w := by
  intro rest
  have settled := inv.settled fun r member => by
    obtain ⟨t, among, rfl⟩ := List.mem_map.mp member
    have done := rest t among
    cases t with
    | watch channel w => exact .inr ⟨channel, rfl⟩
    | returned err => exact .inl rfl
    | exited => exact .inl rfl
    | _ => cases done
  refine ⟨settled.1, ?_⟩
  rw [← show w.shared.own.backend = w.shared.engine.backend from rfl, ← settled.2, List.countP_map]
  refine List.countP_congr fun t _ => ?_
  cases t <;> simp [isWatchdog, Running.role, Role.watches]

/-- In every interleaving of starts and stops that disturbs no launch, nothing is leaked
once all calls have returned. -/
theorem nothing_leaked (now : Time) (pollInterval staleAfter : Duration) (maxRetries : Int)
    (calls : List Call) (schedule : List ℕ) (undisturbed : Run.Along (pass x) Undisturbed
      (start (newEngine now pollInterval staleAfter maxRetries) calls) schedule) :
    Run.Throughout (pass x) Settled (start (newEngine now pollInterval staleAfter maxRetries) calls)
      schedule :=
  (Run.throughout_of_invariant (inv_start _ rfl rfl calls) (inv_step x) undisturbed).mono
    settled_of_inv

end runs

section instances

def launch : Launch := ⟨onePeer, 0, .ok (), 0, .ok ⟨0, 0, 0⟩, 0, []⟩

def engine : Engine := newEngine 0 5000000000 (3 * Duration.minute) 5

/-- A start, and a stop after it that waits for the watchdog. -/
theorem settled_after_stop :
    Run.Throughout (pass .verbatim) Settled (start engine [.start launch, .stop ⟨1, .ok ()⟩])
      [0, 0, 0, 0, 0, 0, 0, 1, 1, 2, 1, 1] :=
  nothing_leaked .verbatim 0 5000000000 (3 * Duration.minute) 5
    [.start launch, .stop ⟨1, .ok ()⟩] _ (by decide)

/-- Two starts pass the check before either publishes its backend: the first backend is
neither the engine's nor closed. -/
theorem backend_leaked :
    ¬ Run.Throughout (pass .verbatim) Settled (start engine [.start launch, .start launch])
      [0, 1, 0, 1, 0, 1, 0, 0, 0, 0, 1, 1, 1, 1] := by
  intro settled
  have first := (settled.last (by decide)).backends 0
  revert first
  decide

end instances

end VeilNet.Guarantees.NoLeak
