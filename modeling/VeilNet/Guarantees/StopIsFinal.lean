import VeilNet.Source.Tunnel.Concurrent

/-!
# Stop is final

A watchdog reads the backend, probes it and then updates the state of the tunnel without looking
whether the backend is still the engine's. A `Stop` in between is undone. While each update finds
a backend in place, a tunnel that is up has one, and it is down once `Stop` has passed its
section.
-/
namespace VeilNet.Guarantees.StopIsFinal
open Lib Source.Tunnel

/-- The loop of a watchdog that runs when `Stop` is called. -/
structure Loop where
  channel : Handle
  lastTick : Time
  ticks : List Tick

/-- A running engine, its watchdogs, and calls of `Stop`. -/
def start (s : Shared) (stops : List Halt) (loops : List Loop) : Pool :=
  ⟨s, stops.map .stop ++ loops.map fun l => .watch l.channel (.select l.lastTick l.ticks)⟩

/-- The call of `Stop` has passed its section. -/
def passed : Running → Bool
  | .cancel .. | .wait .. | .close .. | .returned _ => true
  | _ => false

def isReturned : Running → Bool
  | .returned _ => true
  | _ => false

def expected : Running → Bool
  | .stop _ | .cancel .. | .wait .. | .close .. | .returned _ | .watch .. | .exited => true
  | _ => false

/-- Up with a backend, and down once a `Stop` has returned. -/
structure Final (w : Pool) : Prop where
  backed : w.shared.engine.state = .up → w.shared.engine.backend.isSome
  down : (∃ t ∈ w.tasks, isReturned t = true) → w.shared.engine.state = .down

def UpdatesFor (w : Pool) : Running → Prop
  | .watch _ (.update ..) => w.shared.engine.backend.isSome
  | _ => True

/-- An update of the watchdog finds a backend in place. -/
def Updates (w : Pool) (i : ℕ) : Prop := ∀ t ∈ w.tasks[i]?, UpdatesFor w t

instance (w : Pool) (t : Running) : Decidable (UpdatesFor w t) := by
  unfold UpdatesFor
  split <;> infer_instance

instance (w : Pool) (i : ℕ) : Decidable (Updates w i) :=
  inferInstanceAs (Decidable (∀ t ∈ w.tasks[i]?, UpdatesFor w t))

/-- Once a `Stop` has passed its section, the tunnel is down and without a backend. -/
structure Inv (w : Pool) : Prop where
  backed : w.shared.engine.state = .up → w.shared.engine.backend.isSome
  tasks : ∀ t ∈ w.tasks, expected t = true
  cleared : ∀ t ∈ w.tasks, passed t = true →
    w.shared.engine.state = .down ∧ w.shared.engine.backend = none

theorem next_spec {Key Addr Net : Type} (x : Parsers Key Addr Net) (s : Shared) {t : Running}
    (known : expected t = true) (updates : ∀ channel tick rest,
      t = .watch channel (.update tick rest) → s.engine.backend.isSome) :
    (t.next x s).2.2 = [] ∧ expected (t.next x s).2.1 = true ∧
    ((t.next x s).1.engine.state = .down ∧ (t.next x s).1.engine.backend = none ∨
      (passed (t.next x s).2.1 = true → passed t = true) ∧
      (t.next x s).1.engine.backend = s.engine.backend ∧
      ((t.next x s).1.engine.state = s.engine.state ∨ s.engine.backend.isSome)) := by
  cases t with
  | stop call => exact ⟨rfl, rfl, .inl ⟨rfl, rfl⟩⟩
  | cancel call channel be => exact ⟨rfl, rfl, .inr ⟨fun _ => rfl, rfl, .inl rfl⟩⟩
  | wait call be =>
    rw [Running.next]
    split <;> exact ⟨rfl, rfl, .inr ⟨fun _ => rfl, rfl, .inl rfl⟩⟩
  | close call be => cases be <;> exact ⟨rfl, rfl, .inr ⟨fun _ => rfl, rfl, .inl rfl⟩⟩
  | returned err => exact ⟨rfl, rfl, .inr ⟨fun _ => rfl, rfl, .inl rfl⟩⟩
  | exited => exact ⟨rfl, rfl, .inr ⟨fun after => (by cases after), rfl, .inl rfl⟩⟩
  | watch channel w =>
    have state : (w.next s channel).1.engine.state = s.engine.state ∨ s.engine.backend.isSome := by
      by_cases quiet : ∀ tick rest, w ≠ .update tick rest
      · exact .inl (w.next_state s channel quiet)
      · push Not at quiet
        obtain ⟨tick, rest, rfl⟩ := quiet
        exact .inr (updates channel tick rest rfl)
    rcases w.next_cases s channel with ⟨e, w', shared, moved, frame⟩ | ⟨_, shared, moved⟩
    · rw [Running.next, moved]
      refine ⟨rfl, rfl, .inr ⟨fun after => (by cases after), ?_, state⟩⟩
      rw [shared]
      exact frame.backend
    · rw [Running.next, moved]
      refine ⟨rfl, rfl, .inr ⟨fun after => (by cases after), ?_, state⟩⟩
      rw [shared]
  | _ => cases known

section runs
variable {Key Addr Net : Type} (x : Parsers Key Addr Net)

theorem inv_step (w : Pool) (i : ℕ) (updates : Updates w i) (inv : Inv w) : Inv (pass x w i) := by
  rcases Threads.fork_cases (Running.next x) w i with same | ⟨front, t, back, found, tasks, moved⟩
  · rw [Source.Tunnel.pass, same]
    exact inv
  · have member : t ∈ w.tasks := tasks ▸ List.mem_append_right front List.mem_cons_self
    have here : UpdatesFor w t := updates t found
    obtain ⟨none, known, effect⟩ := next_spec x w.shared (inv.tasks t member)
      fun channel tick rest same => by rw [same] at here; exact here
    rw [Source.Tunnel.pass, moved, none, List.append_nil]
    have others : ∀ u ∈ front ++ (t.next x w.shared).2.1 :: back,
        u = (t.next x w.shared).2.1 ∨ u ∈ w.tasks := by
      intro u among
      rw [tasks]
      exact Slots.mem_replaced among
    have expects : ∀ u ∈ front ++ (t.next x w.shared).2.1 :: back, expected u = true := by
      intro u among
      rcases others u among with rfl | old
      · exact known
      · exact inv.tasks u old
    rcases effect with ⟨down, gone⟩ | ⟨stays, backend, state⟩
    · exact ⟨fun up => (by cases up.symm.trans down), expects, fun _ _ _ => ⟨down, gone⟩⟩
    · refine ⟨fun up => ?_, expects, fun u among after => ?_⟩
      · change (t.next x w.shared).1.engine.backend.isSome
        rw [backend]
        rcases state with same | there
        · exact inv.backed (same.symm.trans up)
        · exact there
      · have before : w.shared.engine.state = .down ∧ w.shared.engine.backend = Option.none := by
          rcases others u among with rfl | old
          · exact inv.cleared t member (stays after)
          · exact inv.cleared u old after
        rcases state with same | there
        · exact ⟨same.trans before.1, backend.trans before.2⟩
        · rw [before.2] at there
          cases there

theorem inv_start {s : Shared} (backed : s.engine.state = .up → s.engine.backend.isSome)
    (stops : List Halt) (loops : List Loop) : Inv (start s stops loops) := by
  have each : ∀ t ∈ (start s stops loops).tasks, expected t = true ∧ passed t = false := by
    intro t member
    rcases List.mem_append.mp member with stop | loop
    · obtain ⟨call, _, rfl⟩ := List.mem_map.mp stop
      exact ⟨rfl, rfl⟩
    · obtain ⟨l, _, rfl⟩ := List.mem_map.mp loop
      exact ⟨rfl, rfl⟩
  exact ⟨backed, fun t member => (each t member).1,
    fun t member after => by cases (each t member).2.symm.trans after⟩

/-- In every interleaving of `Stop` with the watchdog in which each update finds a backend
in place, a tunnel that is up has a backend, and it is down once `Stop` has returned. -/
theorem stop_is_final (s : Shared) (backed : s.engine.state = .up → s.engine.backend.isSome)
    (stops : List Halt) (loops : List Loop) (schedule : List ℕ)
    (updates : Run.Along (pass x) Updates (start s stops loops) schedule) :
    Run.Throughout (pass x) Final (start s stops loops) schedule := by
  have invs := Run.throughout_of_invariant (inv_start backed stops loops) (inv_step x) updates
  refine invs.mono fun w inv => ⟨inv.backed, fun ⟨t, member, returned⟩ => ?_⟩
  have after : passed t = true := by
    cases t <;> first | rfl | cases returned
  exact (inv.cleared t member after).1

end runs

section instances

/-- A tunnel that is connecting, with its backend and its watchdog. -/
def connecting : Shared :=
  ⟨{ newEngine 0 5000000000 (3 * Duration.minute) 5 with
      state := .connecting, backend := some 0, cancel := some 0 }, 1, [], 1, [], 1⟩

/-- The first handshake arrives. -/
def handshake : Loop :=
  ⟨0, Duration.minute, [⟨Duration.minute + 1, .ok ⟨0, 0, Duration.minute⟩, false⟩]⟩

/-- The watchdog brings the tunnel up, then `Stop` takes it down. -/
theorem final_after_update :
    Run.Throughout (pass .verbatim) Final
      (start connecting [⟨2 * Duration.minute, .ok ()⟩] [handshake]) [1, 1, 1, 1, 0, 0, 1, 0, 0] :=
  stop_is_final .verbatim connecting nofun [⟨2 * Duration.minute, .ok ()⟩] [handshake] _
    (by decide)

/-- `Stop` between the read and the update: it returns, and the tunnel is up. -/
theorem stop_undone :
    ¬ Run.Throughout (pass .verbatim) Final
      (start connecting [⟨2 * Duration.minute, .ok ()⟩] [handshake])
      [1, 1, 1, 0, 1, 0, 1, 0, 0] := by
  intro final
  have down := final.last.down
  revert down
  decide

end instances

end VeilNet.Guarantees.StopIsFinal
