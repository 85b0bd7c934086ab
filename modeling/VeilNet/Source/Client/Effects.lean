import VeilNet.Source.Client.Circuit

/-!
What the client's functions can do: the paths that the plans give, and the changes that a
call makes to the circuit, to the node and to the engine.
-/
namespace VeilNet.Source.Client
open Lib Lib.Outcome Source

section parts
variable {F : Type}

variable (a : App F)

theorem stopEngine_frame (call : Disconnecting) :
    ∃ engine, (a.stopEngine call).2 = { a with engine } := by
  unfold App.stopEngine
  split
  · exact ⟨a.engine, rfl⟩
  · exact ⟨_, rfl⟩

theorem disconnect_frame (call : Disconnecting) :
    (a.disconnect call).2.cfg = a.cfg ∧ (a.disconnect call).2.nodes = a.nodes ∧
      ((a.disconnect call).2.circuit = a.circuit ∨ (a.disconnect call).2.circuit = .zero) := by
  obtain ⟨engine, frame⟩ := stopEngine_frame a call
  unfold App.disconnect
  split
  · exact ⟨rfl, rfl, .inl rfl⟩
  · split
    · next stopped =>
      rw [stopped] at frame
      subst frame
      exact ⟨rfl, rfl, .inl rfl⟩
    · next stopped =>
      rw [stopped] at frame
      subst frame
      exact ⟨rfl, rfl, .inr rfl⟩

/-- The rotation that the call runs, if any. -/
def Op.rotation : Op F → Option (Rotating F)
  | .rotate call => some call
  | .maybeAutoRotate now call => if a.rotationDue now then some call else none
  | .connect _ _ | .build _ | .auto _ | .resetGuard | .disconnect _ => none

/-- The call is one on the circuit alone. -/
def Op.onCircuit : Op F → Bool
  | .build _ | .auto _ | .rotate _ | .maybeAutoRotate _ _ | .resetGuard => true
  | .connect _ _ | .disconnect _ => false

/-- The engine's backend does what it is told. -/
def Op.faithful : Op F → Bool
  | .rotate call | .maybeAutoRotate _ call => call.applied.isOk && call.rebound.isOk
  | .disconnect call => call.closed.isOk
  | .connect _ _ | .build _ | .auto _ | .resetGuard => true

theorem faithful_of_rotation {a : App F} {op : Op F} {call : Rotating F}
    (faithful : op.faithful = true)
    (rotating : op.rotation a = some call) : call.applied = .ok () ∧ call.rebound = .ok () := by
  have both : call.applied.isOk = true ∧ call.rebound.isOk = true := by
    cases op with
    | rotate call' =>
      cases rotating
      simpa [Op.faithful] using faithful
    | maybeAutoRotate now call' =>
      simp only [Op.rotation] at rotating
      split at rotating
      · cases rotating
        simpa [Op.faithful] using faithful
      · cases rotating
    | connect | build | auto | resetGuard | disconnect => cases rotating
  obtain ⟨look, now, applied, rebound⟩ := call
  cases applied <;> cases rebound <;> simp_all [Except.isOk, Except.toBool]

theorem onCircuit_of_rotation {a : App F} {op : Op F} {call : Rotating F}
    (rotating : op.rotation a = some call) : op.onCircuit = true := by
  cases op with
  | rotate | maybeAutoRotate => rfl
  | connect | build | auto | resetGuard | disconnect => cases rotating

/-- The first peer of the engine, while it runs. -/
def App.runningPeer : Option Tunnel.Peer :=
  a.engine.bind fun e => if e.backend.isSome then e.cfg.peers.head? else none

theorem runningPeer_iff {a : App F} {p : Tunnel.Peer} :
    a.runningPeer = some p ↔
      ∃ e rest, a.engine = some e ∧ e.backend.isSome = true ∧ e.cfg.peers = p :: rest := by
  unfold App.runningPeer
  constructor
  · intro running
    obtain ⟨e, wired, head⟩ := Option.bind_eq_some_iff.mp running
    split at head
    · next up =>
      obtain ⟨rest, peers⟩ := List.head?_eq_some_iff.mp head
      exact ⟨e, rest, wired, up, peers⟩
    · cases head
  · rintro ⟨e, rest, wired, up, peers⟩
    simp [wired, up, peers]

/-- The engine's peer has the key and the endpoint of the node. -/
def App.talksTo (n : NodeInfo F) : Prop :=
  ∃ p, a.runningPeer = some p ∧ p.publicKey = n.wgPubkey ∧ p.endpoint = n.endpoint

theorem stopEngine_ok {call : Disconnecting} (closed : call.closed.isOk = true) :
    (a.stopEngine call).1 = .ok () := by
  unfold App.stopEngine
  cases closes : call.closed with
  | error text => simp [closes, Except.isOk, Except.toBool] at closed
  | ok => split <;> simp

theorem node_disconnect {call : Disconnecting} (closed : call.closed.isOk = true) :
    (a.disconnect call).2.node = none := by
  have stopped := stopEngine_ok a closed
  unfold App.disconnect
  split
  · next idle => exact Option.isNone_iff_eq_none.mp idle
  · split
    · next failed => simp [failed] at stopped
    · rfl

end parts

variable {F : Type} [GoFloatDiff F] {codec : Multihop.Codec} {provider : Provider F}

/-! The plans. -/

/-- `BuildRoute` accepts the path. -/
def Accepted (codec : Multihop.Codec) (path : List (NodeInfo F)) : Prop :=
  ∀ stamp, ∃ r, Multihop.buildRoute codec stamp (path.map mhNode) .zero = .ok r

variable {path : List (NodeInfo F)}

/-- The check of a route is `BuildRoute` itself, whatever the stamp. -/
theorem checkRoute_ok_iff : checkRoute codec path = .ok () ↔ Accepted codec path := by
  unfold checkRoute
  constructor
  · intro checked stamp
    split at checked
    · cases checked
    · next r built =>
      exact Multihop.exists_buildRoute_iff.mpr (Multihop.exists_buildRoute_iff.mp ⟨r, built⟩)
  · intro accepted
    obtain ⟨r, built⟩ := accepted ⟨none, 0, 0⟩
    rw [built]

theorem Accepted.length (accepted : Accepted codec path) :
    1 ≤ path.length ∧ path.length ≤ 3 := by
  obtain ⟨r, built⟩ := accepted ⟨none, 0, 0⟩
  obtain ⟨_, any, few, _⟩ := Multihop.buildRoute_ok built
  rw [List.length_map] at any few
  exact ⟨any, few⟩

theorem Accepted.dialable (accepted : Accepted codec path) :
    ∀ n ∈ path, (mhNode n).Dialable := by
  obtain ⟨r, built⟩ := accepted ⟨none, 0, 0⟩
  obtain ⟨_, _, _, dialable, _⟩ := Multihop.buildRoute_ok built
  exact fun n member => dialable _ (List.mem_map_of_mem member)

theorem Accepted.sublist {part : List (NodeInfo F)} (accepted : Accepted codec path)
    (sub : part.Sublist path) (any : part ≠ []) : Accepted codec part := by
  intro stamp
  obtain ⟨⟨_, cap, few⟩, dialable, apart, latency, _⟩ :=
    Multihop.exists_buildRoute_iff.mp (accepted stamp)
  have inside : (part.map mhNode).Sublist (path.map mhNode) := sub.map mhNode
  have quick : (Multihop.BuildOptions.zero : Multihop.BuildOptions F).checkLatency
      (part.map mhNode) = .ok () := by
    unfold Multihop.BuildOptions.checkLatency at latency ⊢
    split at latency
    · next budget =>
      rw [if_pos budget]
      refine Multihop.checkBudget_ok_iff.mpr fun n member => ?_
      exact Multihop.checkBudget_ok_iff.mp latency n (inside.subset member)
    · next budget => rw [if_neg budget]
  refine Multihop.exists_buildRoute_iff.mpr ⟨⟨by simpa using any, ?_, ?_⟩, ?_, ?_, quick, rfl⟩
  · exact inside.length_le.trans cap
  · exact inside.length_le.trans few
  · exact fun n member => dialable n (inside.subset member)
  · exact apart.sublist inside

/-- A path that the client may record: it is accepted and of nodes on offer. -/
structure Sound (codec : Multihop.Codec) (provider : Provider F) (path : List (NodeInfo F)) :
    Prop where
  accepted : Accepted codec path
  offered : ∀ n ∈ path, Offered provider n

theorem sound_of_planHops {call : Building F}
    (planned : planHops codec provider call = .ok path) : Sound codec provider path := by
  obtain ⟨_, _, planned⟩ := of_bind_ok planned
  obtain ⟨found, lookedUp, planned⟩ := of_bind_ok planned
  obtain ⟨_, checked, planned⟩ := of_bind_ok planned
  cases planned
  exact ⟨checkRoute_ok_iff.mp checked, (of_findNodes lookedUp).2⟩

theorem growPath_spec (policy : SelectPolicy) (nodes : List (NodeInfo F)) (wantEntry : String)
    (k : ℕ) (exclude : List String) (path : List (NodeInfo F)) :
    ∃ front, growPath policy nodes wantEntry k exclude path = front ++ path ∧ front.length ≤ k ∧
      ∀ n ∈ front, n ∈ nodes ∧ n.nodeID ∉ exclude := by
  induction k generalizing exclude path with
  | zero => exact ⟨[], rfl, le_rfl, by simp⟩
  | succ k ih =>
    rw [growPath]
    split
    · exact ⟨[], rfl, Nat.zero_le _, by simp⟩
    · next next found =>
      obtain ⟨front, grown, few, fresh⟩ := ih (next.nodeID :: exclude) (next :: path)
      refine ⟨front ++ [next], by simp [grown], by simpa using few, fun n member => ?_⟩
      rcases List.mem_append.mp member with before | last
      · exact ⟨(fresh n before).1, fun old => (fresh n before).2 (List.mem_cons_of_mem _ old)⟩
      · rw [List.mem_singleton.mp last]
        exact of_bestExcept found

/-- The first node is kept, and of the others those behind the last one dropped. -/
theorem of_separate {first : NodeInfo F} {rest : List (NodeInfo F)}
    (separated : separate codec first rest = .ok path) :
    Accepted codec path ∧ ∃ kept, path = first :: kept ∧ kept <:+ rest := by
  induction rest with
  | nil =>
    rw [separate] at separated
    split at separated
    · next checked =>
      cases separated
      exact ⟨checkRoute_ok_iff.mp checked, [], rfl, List.suffix_rfl⟩
    · cases separated
  | cons second rest ih =>
    rw [separate] at separated
    split at separated
    · next checked =>
      cases separated
      exact ⟨checkRoute_ok_iff.mp checked, second :: rest, rfl, List.suffix_rfl⟩
    · obtain ⟨accepted, kept, same, suffix⟩ := ih separated
      exact ⟨accepted, kept, same, suffix.trans (List.suffix_cons second rest)⟩

variable {cfg : Settings}

/-- What a plan of `AutoCircuitHops` is made of: the exit, the nodes picked before it, and
those of the whole path that stay. -/
theorem of_planAuto {exitID : String} {call : AutoBuilding F}
    (planned : planAuto codec cfg provider exitID call = .ok path) :
    ∃ exit nodes first rest, findNode provider (call.look 0) exitID = .ok exit ∧
      listNodes provider (call.look 1) = .ok nodes ∧
      growPath cfg.selectPolicy nodes cfg.entryRegion (hopCount call.hops - 1) [exitID] [exit] =
        first :: rest ∧
      (rest = [] → hopCount call.hops ≤ 1) ∧ separate codec first rest = .ok path := by
  obtain ⟨_, _, planned⟩ := of_bind_ok planned
  obtain ⟨exit, found, planned⟩ := of_bind_ok planned
  obtain ⟨nodes, listed, planned⟩ := of_bind_ok planned
  obtain ⟨_, enough, planned⟩ := of_bind_ok planned
  split at planned
  · cases planned
  · next first rest grown =>
    refine ⟨exit, nodes, first, rest, found, listed, grown, fun alone => ?_, planned⟩
    rw [refuseIf_ok_iff, grown, alone] at enough
    simpa using enough

theorem sound_of_planAuto {exitID : String} {call : AutoBuilding F}
    (planned : planAuto codec cfg provider exitID call = .ok path) : Sound codec provider path := by
  obtain ⟨exit, nodes, first, rest, found, listed, grown, _, separated⟩ := of_planAuto planned
  obtain ⟨accepted, kept, rfl, suffix⟩ := of_separate separated
  obtain ⟨front, whole, _, fresh⟩ := growPath_spec cfg.selectPolicy nodes cfg.entryRegion
    (hopCount call.hops - 1) [exitID] [exit]
  refine ⟨accepted, fun n member => ?_⟩
  have inside : n ∈ front ++ [exit] := by
    rw [← whole, grown]
    exact List.cons_subset_cons first suffix.subset member
  rcases List.mem_append.mp inside with picked | last
  · exact offered_of_listNodes listed n (fresh n picked).1
  · rw [List.mem_singleton.mp last]
    exact (of_findNode found).2

/-- A fresh exit, and the path that was checked: the hops that stay with the exit behind. -/
theorem of_planRotation {hops : List String} {connected : Bool}
    {look : ℕ → String → Observed F} {next : NodeInfo F}
    (planned : planRotation codec cfg provider hops connected look = .ok next) :
    next.nodeID ∉ hops ∧ ∃ kept : List (NodeInfo F), kept.map NodeInfo.nodeID = hops.dropLast ∧
      Sound codec provider (kept ++ [next]) := by
  obtain ⟨nodes, listed, planned⟩ := of_bind_ok planned
  obtain ⟨_, _, planned⟩ := of_bind_ok planned
  obtain ⟨best, picked, planned⟩ := of_bind_ok planned
  obtain ⟨kept, found, planned⟩ := of_bind_ok planned
  obtain ⟨_, checked, planned⟩ := of_bind_ok planned
  cases planned
  obtain ⟨member, fresh⟩ := of_bestExcept (of_mapError_ok picked)
  obtain ⟨names, offered⟩ := of_findNodes found
  refine ⟨fresh, kept, names, checkRoute_ok_iff.mp checked, fun n inside => ?_⟩
  rcases List.mem_append.mp inside with before | last
  · exact offered n before
  · rw [List.mem_singleton.mp last]
    exact offered_of_listNodes listed next member

/-! The calls. -/

/-- A rotation is refused and leaves all but the engine as it was, or it moves the engine to
the fresh exit and records it. -/
theorem rotateCircuit_cases (codec : Multihop.Codec) (a : App F) (call : Rotating F) :
    ((∃ err, (a.rotateCircuit codec call).1 = some err) ∧
        ∃ engine, (a.rotateCircuit codec call).2 = { a with engine }) ∨
      ∃ e next e', a.engine = some e ∧ a.nextExit codec call.look = .ok next ∧
        e.rotateEndpoint next.endpoint call.now call.applied call.rebound = (none, e') ∧
        a.rotateCircuit codec call =
          (none, { a with engine := some e' }.commitRotation next call.now) := by
  unfold App.rotateCircuit
  split
  · exact .inl ⟨⟨_, rfl⟩, a.engine, rfl⟩
  · next e wired =>
    split
    · exact .inl ⟨⟨_, rfl⟩, a.engine, rfl⟩
    · next next planned =>
      split
      · next err e' rotated => exact .inl ⟨⟨_, rfl⟩, some e', rfl⟩
      · next e' rotated => exact .inr ⟨e, next, e', wired, planned, rotated, rfl⟩

variable {call : Rotating F}

theorem rotateCircuit_refused {a : App F} {err : Error F}
    (planned : a.nextExit codec call.look = .error err) : (a.rotateCircuit codec call).2 = a := by
  unfold App.rotateCircuit
  split
  · rfl
  · rw [planned]

/-- While the engine runs and does what it is told, a rotation with a plan succeeds: the peer
gets the new endpoint and keeps its key. -/
theorem rotateCircuit_ok {a : App F} {p : Tunnel.Peer} {next : NodeInfo F}
    (running : a.runningPeer = some p) (planned : a.nextExit codec call.look = .ok next)
    (applied : call.applied = .ok ()) (rebound : call.rebound = .ok ()) :
    ∃ e', a.rotateCircuit codec call =
        (none, { a with engine := some e' }.commitRotation next call.now) ∧
      ({ a with engine := some e' }.commitRotation next call.now).runningPeer =
        some { p with endpoint := next.endpoint } := by
  obtain ⟨e, rest, wired, up, peers⟩ := runningPeer_iff.mp running
  obtain ⟨_, kept, _, sound⟩ := of_planRotation planned
  have given : next.endpoint ≠ "" := (sound.accepted.dialable next (by simp)).endpoint
  obtain ⟨e', rotated, up', peers'⟩ := Tunnel.Engine.rotateEndpoint_eq call.now given up peers
  refine ⟨e', ?_, runningPeer_iff.mpr ⟨e', rest, rfl, up', peers'⟩⟩
  simp only [App.rotateCircuit, wired, planned, applied, rebound, rotated]

/-- A rotation is refused, or there is no node to show, or the node gives way to the fresh exit
and the peer to one with its endpoint. -/
theorem shown_rotateCircuit {a : App F} (applied : call.applied = .ok ())
    (rebound : call.rebound = .ok ()) (running : ∀ n, a.node = some n → ∃ p,
      a.runningPeer = some p) :
    (∃ err, a.nextExit codec call.look = .error err) ∧ (a.rotateCircuit codec call).2 = a ∨
      a.node = none ∧ (a.rotateCircuit codec call).2.node = none ∨
      ∃ n p next, a.node = some n ∧ a.runningPeer = some p ∧ a.nextExit codec call.look = .ok next ∧
        (a.rotateCircuit codec call).2.node = some next ∧
        (a.rotateCircuit codec call).2.runningPeer = some { p with endpoint := next.endpoint } := by
  cases planned : a.nextExit codec call.look with
  | error err => exact .inl ⟨⟨err, rfl⟩, rotateCircuit_refused planned⟩
  | ok next =>
    cases shown : a.node with
    | none =>
      refine .inr (.inl ⟨rfl, ?_⟩)
      rcases rotateCircuit_cases codec a call with ⟨_, engine, same⟩ | ⟨_, _, _, _, _, _, whole⟩
      · rw [same]
        exact shown
      · rw [whole]
        simp [App.commitRotation, shown]
    | some n =>
      obtain ⟨p, up⟩ := running n shown
      obtain ⟨e', whole, moved⟩ := rotateCircuit_ok up planned applied rebound
      refine .inr (.inr ⟨n, p, next, rfl, up, rfl, ?_, by rw [whole]; exact moved⟩)
      rw [whole]
      simp [App.commitRotation, shown]

/-- What a call can do to the circuit. -/
inductive Circuit.Move (codec : Multihop.Codec) (provider : Provider F) (c : Circuit F) :
    Circuit F → Prop
  | same : Move codec provider c c
  | set (path : List (NodeInfo F)) (clock : Clock) (sound : Sound codec provider path) :
      Move codec provider c (c.succeed (.ofNodes path clock))
  | rotate (next : NodeInfo F) (now : Time) (kept : List (NodeInfo F))
      (names : kept.map NodeInfo.nodeID = c.hops.dropLast)
      (sound : Sound codec provider (kept ++ [next])) : Move codec provider c (c.rotate next now)
  | reset : Move codec provider c { c with guardPinned := false, guardSince := 0 }
  | clear : Move codec provider c .zero

theorem move_rotateCircuit (codec : Multihop.Codec) (a : App F) (call : Rotating F) :
    Circuit.Move codec a.nodes a.circuit (a.rotateCircuit codec call).2.circuit := by
  rcases rotateCircuit_cases codec a call with
    ⟨_, engine, same⟩ | ⟨e, next, e', wired, planned, rotated, whole⟩
  · rw [same]
    exact .same
  · obtain ⟨_, kept, names, sound⟩ := of_planRotation planned
    rw [whole]
    exact .rotate next call.now kept names sound

variable {Key Addr Net : Type} (lib : Library F Key Addr Net)

/-- Only the engine changes before leak protection. -/
theorem of_raise {a : App F} {call : Connecting F} :
    (∀ err b, a.raise lib call = .error (err, b) → ∃ engine, b = { a with engine }) ∧
      ∀ node b, a.raise lib call = .ok (node, b) → a.node = none ∧
        ∃ e e' priv, a.engine = some e ∧ a.target lib call = .ok node ∧
          e.start lib.parsers
            ⟨a.wgConfig node priv, call.now, call.created, call.stop, call.handshake⟩ = (none, e') ∧
          b = { a with engine := some e' } := by
  unfold App.raise
  constructor
  · intro err b raised
    repeat' split at raised
    all_goals cases raised
    all_goals exact ⟨_, rfl⟩
  · intro node b raised
    split at raised
    · cases raised
    · next idle =>
      split at raised
      · cases raised
      · next e wired =>
        split at raised
        · cases raised
        · next node' chosen =>
          split at raised
          · cases raised
          · next priv drawn =>
            split at raised
            · cases raised
            · next e' started =>
              cases raised
              exact ⟨by simpa using idle, e, e', priv, wired, chosen, started, rfl⟩

theorem connect_frame (a : App F) (call : Connecting F) (enforced : Except String Unit) :
    (a.connect lib call enforced).2.cfg = a.cfg ∧ (a.connect lib call enforced).2.nodes = a.nodes ∧
      (a.connect lib call enforced).2.circuit = a.circuit := by
  obtain ⟨refused, raised⟩ := @of_raise F _ _ _ _ lib a call
  unfold App.connect
  split
  · next err b failed =>
    obtain ⟨engine, rfl⟩ := refused err b failed
    exact ⟨rfl, rfl, rfl⟩
  · next node b up =>
    obtain ⟨_, _, e', _, _, _, _, rfl⟩ := raised node b up
    cases enforced <;> exact ⟨rfl, rfl, rfl⟩

/-- Every call of the client makes one of the moves of its circuit. -/
theorem move_step (a : App F) (op : Op F) :
    Circuit.Move lib.codec a.nodes a.circuit (step lib a op).circuit := by
  cases op with
  | connect call enforced =>
    have same : (step lib a (.connect call enforced)).circuit = a.circuit :=
      (connect_frame lib a call enforced).2.2
    rw [same]
    exact .same
  | build call =>
    simp only [step, Op.run, App.buildCircuitHops]
    split
    · exact .same
    · split
      · exact .same
      · next path planned => exact .set path call.clock (sound_of_planHops planned)
  | auto call =>
    simp only [step, Op.run, App.autoCircuitHops]
    split
    · exact .same
    · next path planned => exact .set path call.clock (sound_of_planAuto planned)
  | rotate call => exact move_rotateCircuit lib.codec a call
  | maybeAutoRotate now call =>
    simp only [step, Op.run, App.maybeAutoRotate]
    split
    · exact move_rotateCircuit lib.codec a call
    · exact .same
  | resetGuard => exact .reset
  | disconnect call =>
    rcases (disconnect_frame a call).2.2 with same | cleared
    · simp only [step, Op.run, same]
      exact .same
    · simp only [step, Op.run, cleared]
      exact .clear

/-- No call changes the settings or the node provider. -/
theorem fixed_step (a : App F) (op : Op F) :
    (step lib a op).cfg = a.cfg ∧ (step lib a op).nodes = a.nodes := by
  have rotated : ∀ call, (a.rotateCircuit lib.codec call).2.cfg = a.cfg ∧
      (a.rotateCircuit lib.codec call).2.nodes = a.nodes := by
    intro call
    rcases rotateCircuit_cases lib.codec a call with ⟨_, engine, same⟩ | ⟨_, _, _, _, _, _, whole⟩
    · rw [same]
      exact ⟨rfl, rfl⟩
    · rw [whole]
      exact ⟨rfl, rfl⟩
  cases op with
  | connect call enforced =>
    obtain ⟨cfg, nodes, _⟩ := connect_frame lib a call enforced
    exact ⟨cfg, nodes⟩
  | build call =>
    simp only [step, Op.run, App.buildCircuitHops]
    split
    · exact ⟨rfl, rfl⟩
    · split <;> exact ⟨rfl, rfl⟩
  | auto call =>
    simp only [step, Op.run, App.autoCircuitHops]
    split <;> exact ⟨rfl, rfl⟩
  | rotate call => exact rotated call
  | maybeAutoRotate now call =>
    simp only [step, Op.run, App.maybeAutoRotate]
    split
    · exact rotated call
    · exact ⟨rfl, rfl⟩
  | resetGuard => exact ⟨rfl, rfl⟩
  | disconnect call =>
    obtain ⟨cfg, nodes, _⟩ := disconnect_frame a call
    exact ⟨cfg, nodes⟩

theorem offered_target {a : App F} {call : Connecting F} {node : NodeInfo F}
    (chosen : a.target lib call = .ok node) : Offered a.nodes node := by
  obtain ⟨n, picked, chosen⟩ := of_bind_ok chosen
  have offered : Offered a.nodes n := by
    unfold App.pick at picked
    split at picked
    · obtain ⟨nodes, listed, selected⟩ := of_bind_ok picked
      exact offered_of_listNodes listed n (mem_of_select selected)
    · exact (of_findNode picked).2
  cases probed : call.probed with
  | none =>
    rw [probed] at chosen
    cases chosen
    exact offered
  | some latency =>
    rw [probed] at chosen
    cases chosen
    obtain ⟨nodes, provider, m, member, o, rfl⟩ := offered
    exact ⟨nodes, provider, m, member, ⟨some latency, some _⟩, rfl⟩

theorem run_of_rotation {a : App F} {op : Op F}
    (rotating : op.rotation a = some call) : op.run lib a = a.rotateCircuit lib.codec call := by
  cases op with
  | rotate call' =>
    cases rotating
    rfl
  | maybeAutoRotate now call' =>
    simp only [Op.rotation] at rotating
    split at rotating
    · next due =>
      cases rotating
      exact if_pos due
    · cases rotating
  | connect | build | auto | resetGuard | disconnect => cases rotating

/-- The node that is shown after `Connect` was shown before, or it has just been dialled. -/
theorem shown_connect {a : App F} {call : Connecting F} {enforced : Except String Unit}
    {n : NodeInfo F} (shown : (a.connect lib call enforced).2.node = some n) :
    a.node = some n ∧ (a.connect lib call enforced).2.engine = a.engine ∨
      (a.connect lib call enforced).2.talksTo n := by
  obtain ⟨refused, raised⟩ := @of_raise F _ _ _ _ lib a call
  unfold App.connect at shown ⊢
  cases out : a.raise lib call with
  | error failed =>
    obtain ⟨err, b⟩ := failed
    simp only [out] at shown ⊢
    obtain ⟨engine, same⟩ := refused err b out
    have before : a.node = some n := by
      rw [same] at shown
      exact shown
    have untouched : a.raise lib call = .error (.alreadyConnected, a) := by
      rw [App.raise, if_pos (by simp [before])]
    rw [untouched] at out
    cases out
    exact .inl ⟨before, rfl⟩
  | ok up =>
    obtain ⟨node, b⟩ := up
    simp only [out] at shown ⊢
    obtain ⟨idle, e, e', priv, wired, chosen, started, rfl⟩ := raised node b out
    cases enforced with
    | error text =>
      rw [show a.node = none from idle] at shown
      cases shown
    | ok =>
      cases shown
      obtain ⟨running, cfg⟩ := Tunnel.Engine.of_start started
      refine .inr ⟨⟨n.wgPubkey, n.endpoint, ["0.0.0.0/0"], 25⟩, runningPeer_iff.mpr ?_, rfl, rfl⟩
      exact ⟨e', [], rfl, running, by rw [cfg]; rfl⟩

/-- A call on the circuit alone that does not rotate leaves the node and the engine. -/
theorem quiet_step {a : App F} {op : Op F} (quiet : op.onCircuit = true)
    (still : op.rotation a = none) :
    (step lib a op).node = a.node ∧ (step lib a op).engine = a.engine := by
  cases op with
  | build call =>
    simp only [step, Op.run, App.buildCircuitHops]
    split
    · exact ⟨rfl, rfl⟩
    · split <;> exact ⟨rfl, rfl⟩
  | auto call =>
    simp only [step, Op.run, App.autoCircuitHops]
    split <;> exact ⟨rfl, rfl⟩
  | rotate call => cases still
  | maybeAutoRotate now call =>
    have notDue : ¬ a.rotationDue now = true := fun due => by simp [Op.rotation, due] at still
    have same : a.maybeAutoRotate lib.codec now call = (none, a) := if_neg notDue
    simp [step, Op.run, same]
  | resetGuard => exact ⟨rfl, rfl⟩
  | connect | disconnect => cases quiet

/-- The node that is shown after a call without rotation was shown before, with the engine as
it was, or it has just been dialled. -/
theorem shown_step {a : App F} {op : Op F} {n : NodeInfo F} (faithful : op.faithful = true)
    (still : op.rotation a = none) (shown : (step lib a op).node = some n) :
    a.node = some n ∧ (step lib a op).engine = a.engine ∨ (step lib a op).talksTo n := by
  cases quiet : op.onCircuit with
  | true =>
    obtain ⟨node, engine⟩ := quiet_step lib quiet still
    exact .inl ⟨node ▸ shown, engine⟩
  | false =>
    cases op with
    | connect call enforced => exact shown_connect lib shown
    | disconnect call =>
      rw [show (step lib a (.disconnect call)).node = none from node_disconnect a faithful] at shown
      cases shown
    | build | auto | rotate | maybeAutoRotate | resetGuard => cases quiet

end VeilNet.Source.Client
