import VeilNet.Source.Tunnel.SharedEngine
import VeilNet.Guarantees.Watchdog

/-!
# What a failed rotation of the endpoint leaves behind

`RotateEndpoint` writes the new endpoint into the peers that the engine shares with its callers,
and then asks the backend. When that refuses, the endpoint stays in both configurations.
-/
namespace VeilNet.Guarantees.FailedRotation
open Lib Lib.GoSlice Source.Tunnel

/-- The engine, and the configurations of the callers of `Start` and
`ApplyConfiguration`. -/
structure World where
  shared : SharedEngine
  held : List SharedConfig

inductive Op where
  | start (cfg : SharedConfig) (now : Time) (created : Except String Handle) (stop : Handle)
      (probed : Probed)
  | stop (now : Time)
  | applyConfiguration (cfg : SharedConfig) (applied : Except String Unit)
  | rotateEndpoint (endpoint : String) (now : Time) (applied rebound : Except String Unit)
  | wake
  | watchdog (now : Time) (probed : Probed)
  /-- A caller writes a peer of its own. -/
  | edit (peers : Slice) (i : Fin peers.length) (p : Peer)

/-- A new engine, in any memory. -/
def fresh (memory : Memory Peer) (now : Time) (pollInterval staleAfter : Duration)
    (maxRetries : Int) : World :=
  ⟨⟨memory, ⟨"", [], [], ⟨0, 0, 0⟩⟩, newEngine now pollInterval staleAfter maxRetries⟩, []⟩

def step {Key Addr Net : Type} (x : Parsers Key Addr Net) (w : World) : Op → World
  | .start cfg now created stop probed =>
    ⟨(w.shared.start x cfg now created stop probed).2, cfg :: w.held⟩
  | .stop now => { w with shared := w.shared.stop now }
  | .applyConfiguration cfg applied =>
    ⟨(w.shared.applyConfiguration x cfg applied).2, cfg :: w.held⟩
  | .rotateEndpoint endpoint now applied rebound =>
    { w with shared := (w.shared.rotateEndpoint endpoint now applied rebound).2 }
  | .wake => { w with shared := w.shared.wake }
  | .watchdog now probed => { w with shared := w.shared.step now probed }
  | .edit peers i p => { w with shared.memory := w.shared.memory.set peers i p }

/-- The configuration of the engine, its endpoint and the configurations of the callers
read as before. -/
structure Unchanged (w : World) (after : SharedEngine) : Prop where
  cfg : after.engine.cfg = w.shared.engine.cfg
  endpoint : after.engine.endpoint = w.shared.engine.endpoint
  held : ∀ cfg ∈ w.held, cfg.deref after.memory = cfg.deref w.shared.memory

/-- The call is refused before the write, or writes what is there. -/
def Spares (w : SharedEngine) (endpoint : String) : Prop :=
  endpoint = "" ∨ w.engine.backend = none ∨ ∀ p ∈ w.engine.cfg.peers.head?, p.endpoint = endpoint

/-- A running engine has the configuration of a caller. -/
def Aliased (w : World) : Prop := w.shared.fields.backend.isSome → w.shared.cfg ∈ w.held

section rotation
variable {w : SharedEngine} {endpoint : String} {now : Time} {applied rebound : Except String Unit}

theorem rotateEndpoint_failed (failed : (w.rotateEndpoint endpoint now applied rebound).1 ≠ none) :
    ((endpoint = "" ∨ w.fields.backend = none ∨ w.cfg.peers.length = 0) ∧
      (w.rotateEndpoint endpoint now applied rebound).2 = w) ∨
    endpoint ≠ "" ∧ w.fields.backend ≠ none ∧ ∃ any : w.cfg.peers.length ≠ 0,
      (w.rotateEndpoint endpoint now applied rebound).2 =
        { w with memory := redirectFirst w.memory w.cfg.peers any endpoint } := by
  unfold SharedEngine.rotateEndpoint at failed ⊢
  split
  · next empty => exact .inl ⟨.inl empty, rfl⟩
  · next given =>
    rw [if_neg given] at failed
    dsimp only at failed ⊢
    split
    · next absent => exact .inl ⟨.inr (.inl (Option.isNone_iff_eq_none.mp absent)), rfl⟩
    · next running =>
      rw [if_neg running] at failed
      split
      · next empty => exact .inl ⟨.inr (.inr empty), rfl⟩
      · next any =>
        rw [dif_neg any] at failed
        refine .inr ⟨given, fun absent => running (Option.isNone_iff_eq_none.mpr absent), any, ?_⟩
        cases applied with
        | error text => rfl
        | ok u =>
          cases rebound with
          | error text => rfl
          | ok u => exact absurd rfl failed

theorem head_peers {s : Slice} (m : Memory Peer) (any : s.length ≠ 0) :
    (m.read s).head? = some (m.get s (first any)) := by
  obtain ⟨rest, peers⟩ := SharedEngine.read_eq_cons m any
  rw [peers]
  rfl

/-- To read the same peers after the write, the endpoint has to be there before it; then
nothing at all is changed. -/
theorem redirectFirst_eq_iff {m : Memory Peer} {s : Slice} (any : s.length ≠ 0)
    (endpoint : String) :
    ((redirectFirst m s any endpoint).read s = m.read s ↔
      (m.get s (first any)).endpoint = endpoint) ∧
      ((m.get s (first any)).endpoint = endpoint → redirectFirst m s any endpoint = m) := by
  have same : (m.get s (first any)).endpoint = endpoint → redirectFirst m s any endpoint = m := by
    intro there
    subst there
    exact Memory.set_get (first any)
  refine ⟨⟨fun unchanged => ?_, fun there => by rw [same there]⟩, same⟩
  have heads := congrArg List.head? unchanged
  rw [head_peers _ any, head_peers m any, redirectFirst, Memory.get_set_same] at heads
  exact congrArg Peer.endpoint (Option.some.inj heads).symm

end rotation

section runs
variable {Key Addr Net : Type} {x : Parsers Key Addr Net} {w : World}

theorem start_cfg (w : SharedEngine) (cfg : SharedConfig) (now : Time)
    (created : Except String Handle)
    (stop : Handle) (probed : Probed) : (w.start x cfg now created stop probed).2 = w ∨
      (w.start x cfg now created stop probed).2.cfg = cfg := by
  unfold SharedEngine.start
  split
  · exact .inl rfl
  · split
    · exact .inl rfl
    · split <;> exact .inr rfl

theorem applyConfiguration_cfg (w : SharedEngine) (cfg : SharedConfig)
    (applied : Except String Unit) :
    (w.applyConfiguration x cfg applied).2 = w ∨
      (w.applyConfiguration x cfg applied).2.cfg = cfg := by
  unfold SharedEngine.applyConfiguration
  split
  · exact .inl rfl
  · split
    · exact .inl rfl
    · split
      · exact .inl rfl
      · exact .inr rfl

theorem rotateEndpoint_cfg (w : SharedEngine) (endpoint : String) (now : Time)
    (applied rebound : Except String Unit) :
    (w.rotateEndpoint endpoint now applied rebound).2.cfg = w.cfg ∧
      (w.rotateEndpoint endpoint now applied rebound).2.fields.backend = w.fields.backend := by
  unfold SharedEngine.rotateEndpoint
  split
  · exact ⟨rfl, rfl⟩
  · dsimp only
    split
    · exact ⟨rfl, rfl⟩
    · split
      · exact ⟨rfl, rfl⟩
      · split
        · exact ⟨rfl, rfl⟩
        · exact ⟨rfl, rfl⟩
        · refine ⟨rfl, ?_⟩
          dsimp only
          split <;> rfl

theorem step_backend (e : Engine) (now : Time) (probed : Probed) :
    (e.step now probed).backend = e.backend := by
  unfold Engine.step
  split
  · exact (e.update_frame now probed).backend
  · rfl

/-- A call that keeps the slice of its caller leaves the engine with that slice or with
the one from before. -/
theorem Aliased.keep {after : SharedEngine} {cfg : SharedConfig} (aliased : Aliased w)
    (kept : after = w.shared ∨ after.cfg = cfg) : Aliased ⟨after, cfg :: w.held⟩ := by
  intro running
  rcases kept with rfl | rfl
  · exact List.mem_cons_of_mem _ (aliased running)
  · exact List.mem_cons_self

theorem Aliased.step (aliased : Aliased w) (op : Op) : Aliased (step x w op) := by
  cases op with
  | start cfg now created stop probed =>
    exact aliased.keep (start_cfg w.shared cfg now created stop probed)
  | stop now => exact nofun
  | applyConfiguration cfg applied =>
    exact aliased.keep (applyConfiguration_cfg w.shared cfg applied)
  | rotateEndpoint endpoint now applied rebound =>
    obtain ⟨cfg, backend⟩ := rotateEndpoint_cfg w.shared endpoint now applied rebound
    intro running
    change (w.shared.rotateEndpoint endpoint now applied rebound).2.cfg ∈ w.held
    rw [cfg]
    exact aliased (backend ▸ running)
  | wake => exact fun running => aliased (w.shared.fields.wake_frame.2 ▸ running)
  | watchdog now probed =>
    exact fun running => aliased (step_backend w.shared.fields now probed ▸ running)
  | edit peers i p => exact aliased

theorem aliased_run (memory : Memory Peer) (now : Time) (pollInterval staleAfter : Duration)
    (maxRetries : Int) (ops : List Op) :
    Aliased (Run.run (step x) (fresh memory now pollInterval staleAfter maxRetries) ops) := by
  have start : Aliased (fresh memory now pollInterval staleAfter maxRetries) := nofun
  exact (Run.throughout_of_step start fun _ op aliased => aliased.step op).last

end runs

section failures
variable {w : World} {endpoint : String} {now : Time} {applied rebound : Except String Unit}

/-- If the call spares the peers, nothing at all is changed; if it does not, the
configuration of the engine is, and with it the one of the caller. -/
theorem spares_of_failed
    (failed : (w.shared.rotateEndpoint endpoint now applied rebound).1 ≠ none) :
    (Spares w.shared endpoint ∧ (w.shared.rotateEndpoint endpoint now applied rebound).2 =
      w.shared) ∨ ¬ Spares w.shared endpoint ∧ w.shared.fields.backend.isSome ∧
      w.shared.cfg.deref (w.shared.rotateEndpoint endpoint now applied rebound).2.memory ≠
        w.shared.cfg.deref w.shared.memory := by
  rcases rotateEndpoint_failed failed with ⟨refused, unchanged⟩ | ⟨given, running, any, after⟩
  · refine .inl ⟨?_, unchanged⟩
    rcases refused with empty | absent | none
    · exact .inl empty
    · exact .inr (.inl absent)
    · have peers : w.shared.engine.cfg.peers = [] :=
        List.length_eq_zero_iff.mp (Memory.length_read.trans none)
      refine .inr (.inr fun p member => ?_)
      rw [peers] at member
      cases member
  · have head : w.shared.engine.cfg.peers.head? =
        some (w.shared.memory.get w.shared.cfg.peers (first any)) := head_peers w.shared.memory any
    obtain ⟨read, same⟩ := redirectFirst_eq_iff (m := w.shared.memory) any endpoint
    by_cases there : (w.shared.memory.get w.shared.cfg.peers (first any)).endpoint = endpoint
    · left
      refine ⟨.inr (.inr fun p member => ?_), ?_⟩
      · rw [head] at member
        cases member
        exact there
      · rw [after, same there]
    · right
      refine ⟨?_, Option.isSome_iff_ne_none.mpr running, ?_⟩
      · rintro (empty | absent | spared)
        · exact given empty
        · exact running absent
        · exact there (spared _ (head ▸ rfl))
      · intro unchanged
        rw [after] at unchanged
        exact there (read.mp (congrArg WireGuardConfig.peers unchanged))

end failures

/-- For every run, in any memory, and every rotation after it that fails: nothing that the engine
or its callers remember is changed exactly when the call is refused before the write or the
endpoint is that of the first peer already; under the same condition no caller sees a change. -/
theorem failedRotation_unchanged_iff {Key Addr Net : Type} (x : Parsers Key Addr Net)
    (memory : Memory Peer) (now : Time) (pollInterval staleAfter : Duration) (maxRetries : Int)
    (ops : List Op) (w : World)
    (reached : w = Run.run (step x) (fresh memory now pollInterval staleAfter maxRetries) ops)
    (endpoint : String) (rotated : Time) (applied rebound : Except String Unit)
    (failed : (w.shared.rotateEndpoint endpoint rotated applied rebound).1 ≠ none) :
    (Unchanged w (w.shared.rotateEndpoint endpoint rotated applied rebound).2 ↔
        Spares w.shared endpoint) ∧
      ((∀ cfg ∈ w.held, cfg.deref (w.shared.rotateEndpoint endpoint rotated applied
        rebound).2.memory = cfg.deref w.shared.memory) ↔ Spares w.shared endpoint) := by
  have aliased : Aliased w := by
    rw [reached]
    exact aliased_run memory now pollInterval staleAfter maxRetries ops
  rcases spares_of_failed failed with ⟨spared, same⟩ | ⟨written, running, changed⟩
  · rw [same]
    exact ⟨iff_of_true ⟨rfl, rfl, fun _ _ => rfl⟩ spared, iff_of_true (fun _ _ => rfl) spared⟩
  · have seen : ¬ ∀ cfg ∈ w.held,
        cfg.deref (w.shared.rotateEndpoint endpoint rotated applied rebound).2.memory =
          cfg.deref w.shared.memory :=
      fun unchanged => changed (unchanged w.shared.cfg (aliased running))
    exact ⟨iff_of_false (fun unchanged => seen unchanged.held) written, iff_of_false seen written⟩

section refinement
variable {Key Addr Net : Type} (x : Parsers Key Addr Net)

/-- The call as an engine without sharing gets it: a configuration is what its slice reads. -/
def plainCall (memory : Memory Peer) : Op → Option Watchdog.Op
  | .start cfg now created stop probed =>
    some (.start ⟨cfg.deref memory, now, created, stop, probed⟩)
  | .stop now => some (.stop now)
  | .applyConfiguration cfg applied => some (.applyConfiguration (cfg.deref memory) applied)
  | .rotateEndpoint endpoint now applied rebound =>
    some (.rotateEndpoint endpoint now applied rebound)
  | .wake => some .wake
  | .watchdog now probed => some (.watchdog now probed)
  | .edit .. => none

/-- A caller's own write does not show in the configuration of the engine. -/
def Unseen (w : World) (op : Op) : Prop :=
  plainCall w.shared.memory op = none → (step x w op).shared.engine = w.shared.engine

theorem engine_of_plainCall {w : World} {op : Op} {call : Watchdog.Op}
    (plain : plainCall w.shared.memory op = some call) :
    (step x w op).shared.engine = Watchdog.step x w.shared.engine call := by
  cases op <;> cases plain
  · exact congrArg Prod.snd (w.shared.seen_start ..)
  · rfl
  · exact congrArg Prod.snd (w.shared.seen_applyConfiguration ..)
  · exact congrArg Prod.snd (w.shared.seen_rotateEndpoint ..)
  · exact w.shared.engine_wake
  · exact w.shared.engine_step ..

/-- The engine that shares its peers with its callers behaves as the engine that does not, over
every run in which no caller writes a peer the engine has. -/
theorem shared_engine_refines (w : World) (ops : List Op)
    (unseen : Run.Along (step x) (Unseen x) w ops) :
    (Run.run (step x) w ops).shared.engine = Run.run (Watchdog.step x) w.shared.engine
      ((Run.trace (step x) w ops).filterMap fun entry =>
        plainCall entry.1.shared.memory entry.2) := by
  induction ops generalizing w with
  | nil => rfl
  | cons op rest ih =>
    rw [Run.run_cons, ih _ unseen.2, Run.trace, List.filterMap_cons]
    cases plain : plainCall w.shared.memory op with
    | none => rw [unseen.1 plain]
    | some call => rw [engine_of_plainCall x plain, Run.run_cons]

end refinement

section sample

/-- Every cell holds a peer at the same endpoint. -/
def somewhere : Memory Peer := ⟨fun _ => ⟨"a", "1.2.3.4:1", ["10.0.0.0/8"], 25⟩⟩

/-- A configuration with the first peer of the first array. -/
def oneShared : SharedConfig := ⟨"k", [], [], ⟨0, 0, 1⟩⟩

/-- The engine after a `Start` with `oneShared`. -/
def started : World :=
  Run.run (step .verbatim) (fresh somewhere 0 5000000000 (3 * Duration.minute) 5)
    [.start oneShared 0 (.ok 0) 0 (.ok ⟨0, 0, 0⟩)]

/-- A rotation to the endpoint that the peer has already, refused by the backend. -/
theorem sameEndpoint_unchanged :
    (started.shared.rotateEndpoint "1.2.3.4:1" 60 (.error "busy") (.ok ())).1 =
      some (.backend "busy") ∧
      Unchanged started (started.shared.rotateEndpoint "1.2.3.4:1" 60 (.error "busy")
        (.ok ())).2 := by
  refine ⟨by decide, ((failedRotation_unchanged_iff .verbatim somewhere 0 5000000000
    (3 * Duration.minute) 5 [.start oneShared 0 (.ok 0) 0 (.ok ⟨0, 0, 0⟩)] started rfl "1.2.3.4:1"
    60 (.error "busy") (.ok ()) (by decide)).1).mpr (.inr (.inr ?_))⟩
  decide

/-- The backend refuses a new endpoint: it stands in the configuration of the engine and
in that of the caller, while `endpoint` is still the old one. -/
theorem refusedEndpoint_stays :
    let result := started.shared.rotateEndpoint "5.6.7.8:1" 60 (.error "busy") (.ok ())
    result.1 = some (.backend "busy") ∧
      result.2.engine.cfg.peers.map Peer.endpoint = ["5.6.7.8:1"] ∧
      result.2.engine.endpoint = "1.2.3.4:1" ∧
      started.held = [oneShared] ∧
      (oneShared.deref started.shared.memory).peers.map Peer.endpoint = ["1.2.3.4:1"] ∧
      (oneShared.deref result.2.memory).peers.map Peer.endpoint = ["5.6.7.8:1"] := by
  decide

/-- A caller writes another array than the engine's. -/
theorem otherArray_unseen :
    (Run.run (step .verbatim) started [.edit ⟨1, 0, 1⟩ 0 ⟨"b", "", [], 0⟩,
      .stop 60]).shared.engine = started.shared.engine.stop 60 :=
  shared_engine_refines .verbatim started _ ⟨fun _ => rfl, nofun, trivial⟩

end sample

end VeilNet.Guarantees.FailedRotation
