import VeilNet.Source.Client.Effects
import VeilNet.Lib.Run

/-!
# The tunnel and the node it shows

The engine's peer has the key of the node that was dialled. A rotation gives it the endpoint of
the fresh exit and shows that exit, but the key stays. So the app shows the node it talks to
exactly as long as every rotation picks a node with the key of the one shown.
-/
namespace VeilNet.Guarantees.ShownNode
open Lib Source Source.Client

section runs
variable {F : Type} [GoFloatDiff F] {codec : Multihop.Codec}

/-- The engine talks to the node that the app shows. -/
def Truthful (a : App F) : Prop := ∀ n, a.node = some n → a.talksTo n

/-- Where the call rotates while a node is shown, the fresh exit has that node's key. -/
def KeepsKey (codec : Multihop.Codec) (a : App F) (op : Op F) : Prop :=
  ∀ call next n, op.rotation a = some call → a.nextExit codec call.look = .ok next →
    a.node = some n → next.wgPubkey = n.wgPubkey

theorem truthful_rotate_iff {a : App F} {call : Rotating F} (applied : call.applied = .ok ())
    (rebound : call.rebound = .ok ()) (truthful : Truthful a) :
    Truthful (a.rotateCircuit codec call).2 ↔
      ∀ next n, a.nextExit codec call.look = .ok next → a.node = some n →
        next.wgPubkey = n.wgPubkey := by
  have running : ∀ n, a.node = some n → ∃ p, a.runningPeer = some p := fun n shown =>
    (truthful n shown).imp fun p talks => talks.1
  rcases shown_rotateCircuit applied rebound running with
    ⟨⟨err, refused⟩, same⟩ | ⟨hidden, hidden'⟩ | ⟨n, p, next, shown, up, planned, shown', moved⟩
  · rw [same, refused]
    exact iff_of_true truthful nofun
  · rw [Truthful, hidden, hidden']
    exact iff_of_true nofun nofun
  · obtain ⟨_, up', key, _⟩ := truthful n shown
    rw [up] at up'
    cases up'
    constructor
    · intro after next' n' same same'
      rw [planned] at same
      rw [shown] at same'
      cases same
      cases same'
      obtain ⟨p', up', key', _⟩ := after next shown'
      rw [moved] at up'
      cases up'
      exact key'.symm.trans key
    · intro sameKey n' visible
      rw [shown'] at visible
      cases visible
      exact ⟨_, moved, key.trans (sameKey next n planned shown).symm, rfl⟩

/-- A call keeps the app truthful exactly when it keeps the key. -/
theorem truthful_step_iff {Key Addr Net : Type} (lib : Library F Key Addr Net) {a : App F}
    {op : Op F} (faithful : op.faithful = true) (truthful : Truthful a) :
    Truthful (step lib a op) ↔ KeepsKey lib.codec a op := by
  cases rotating : op.rotation a with
  | none =>
    refine iff_of_true (fun n shown => ?_) fun call next n rotates => ?_
    · rcases shown_step lib faithful rotating shown with ⟨before, engine⟩ | dialled
      · obtain ⟨p, running, same⟩ := truthful n before
        exact ⟨p, by rw [App.runningPeer, engine]; exact running, same⟩
      · exact dialled
    · rw [rotating] at rotates
      cases rotates
  | some call =>
    obtain ⟨applied, rebound⟩ := faithful_of_rotation faithful rotating
    rw [step, run_of_rotation lib rotating, truthful_rotate_iff applied rebound truthful]
    constructor
    · intro keeps call' next n rotates
      rw [rotating] at rotates
      cases rotates
      exact keeps next n
    · intro keeps next n
      exact keeps call next n rotating

end runs

/-- In a run from a new app with an engine that does what it is told: whenever a node is shown,
the engine's peer has its key and endpoint, exactly if every rotation meanwhile picks a node with
its key. -/
theorem truthful_iff {F Key Addr Net : Type} [GoFloatDiff F] (lib : Library F Key Addr Net)
    (cfg : Settings) (nodes : Provider F) (engine : Option Tunnel.Engine) (ops : List (Op F))
    (faithful : ∀ op ∈ ops, op.faithful = true) :
    Run.Throughout (step lib) Truthful (newApp cfg nodes engine) ops ↔
      Run.Along (step lib) (KeepsKey lib.codec) (newApp cfg nodes engine) ops := by
  have premise : Run.Along (step lib) (fun _ op => op.faithful = true)
      (newApp cfg nodes engine) ops :=
    Run.along_of_mem fun op member _ => faithful op member
  have start : Truthful (newApp cfg nodes engine) := nofun
  have keeps : ∀ (a : App F) (op : Op F), op.faithful = true → True → Truthful a →
      (Truthful (step lib a op) ↔ KeepsKey lib.codec a op) :=
    fun a op faithful _ truthful => truthful_step_iff lib faithful truthful
  exact Run.throughout_iff_along trivial start (fun _ _ _ _ => trivial) keeps premise

section instances

/-- Two nodes, with IDs, keys and endpoints of their own. -/
def twoNodes : App ℚ := someApp ["a", "b"]

def dial : Op ℚ := someConnect "a"

def rotation : Op ℚ := .rotate (rotatingAt 5)

/-- Without a circuit, the rotation picks the node that is shown. -/
theorem truthful_after_rotation :
    Run.Throughout (step (.plain ℚ)) Truthful twoNodes [dial, rotation] := by
  have picked : ((step (.plain ℚ) twoNodes dial).nextExit (Library.plain ℚ).codec
      (rotatingAt 5).look).toOption.map NodeInfo.wgPubkey = some "key-a" := by decide +kernel
  have dialled : (step (.plain ℚ) twoNodes dial).node.map NodeInfo.wgPubkey = some "key-a" := by
    decide
  have first : KeepsKey (Library.plain ℚ).codec twoNodes dial := by
    intro call next n rotating
    cases rotating
  have second : KeepsKey (Library.plain ℚ).codec (step (.plain ℚ) twoNodes dial) rotation := by
    intro call next n rotating planned shown
    cases rotating
    rw [planned] at picked
    rw [shown] at dialled
    exact Option.some.inj (picked.trans dialled.symm)
  exact (truthful_iff (.plain ℚ) _ _ _ [dial, rotation] (by decide)).mpr ⟨first, second, trivial⟩

/-- With a circuit over the node, the rotation shows another node, and the peer has the key of
the first. -/
theorem key_stays :
    let a := Run.run (step (.plain ℚ)) twoNodes
      [dial, .build ⟨["a"], fun _ => unobserved, ⟨4, 4⟩⟩, rotation]
    a.node.map NodeInfo.wgPubkey = some "key-b" ∧
      a.node.map NodeInfo.endpoint = some "b.example:51820" ∧
      a.runningPeer.map Tunnel.Peer.publicKey = some "key-a" ∧
      a.runningPeer.map Tunnel.Peer.endpoint = some "b.example:51820" := by
  decide

end instances

end VeilNet.Guarantees.ShownNode
