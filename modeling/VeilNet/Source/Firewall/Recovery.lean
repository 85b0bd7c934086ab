import VeilNet.Source.Firewall.Effects

/-!
`Enable` records the default policies in the sentinel file as a text, and `Disable` restores them
from there. A file goes only after they are back, so what is kept at every moment of `Disable` is
kept when the process dies.
-/
namespace VeilNet.Source.Firewall
open Lib
open Script (Fated ensures_of_only)

/-- The text that stands for the policies in the sentinel. -/
def recordOf : Defaults → String
  | .linux .. => "accept"
  | .windows profiles => Windows.policyText profiles.domainProfile.outbound

/-- What recovery needs: `orig` is recorded as a text that gives it back. -/
structure Restoring (p : Platform) (orig : Defaults) : Prop where
  named : recordOf orig ≠ ""
  removes : ∀ (c : OsCommand) (h : Host), c.removes = true → h.defaults p = orig →
    (c.run h).2.defaults p = orig
  policy : ∀ h : Host, h.defaults p = orig → p.backend.currentPolicy.Ensures works
    (fun _ => True) (fun r _ => r = .ok (recordOf orig)) h
  restores : ∀ h : Host, (p.backend.restore (recordOf orig)).Ensures works (fun _ => True)
    (fun _ h => h.defaults p = orig) h

theorem restoring_linux : Restoring .linux (.linux none none .accept .accept) := by
  have other : recordOf (.linux none none .accept .accept) ≠ "veilnet-drop" := by decide
  refine ⟨by decide, ?_, ?_, fun h => Linux.ensures_restore other h⟩
  · intro c h removes same
    have silent : c.setsDefault = false := by cases c <;> first | rfl | cases removes
    simp only [Host.defaults, Defaults.linux.injEq] at same
    obtain ⟨nftOutput, nftInput, output, input⟩ := same
    have output' : (c.run h).2.iptables.output.policy = .accept :=
      (iptables_run silent .output).trans output
    have input' : (c.run h).2.iptables.input.policy = .accept :=
      (iptables_run silent .input).trans input
    rcases nft_removes (h := h) removes with nft | nft <;>
      simp_all [Host.defaults, Host.nftPolicy]
  · intro h same
    simp only [Host.defaults, Defaults.linux.injEq] at same
    exact (Linux.ensures_currentPolicy same.1 same.2.1).ends fun _ _ _ h => h.1

theorem restoring_windows (outbound : Outbound) :
    Restoring .windows (.windows ⟨⟨.block, outbound⟩, ⟨.block, outbound⟩, ⟨.block, outbound⟩⟩) := by
  have known : ProfilePolicy.ofText (Windows.policyText outbound) = some ⟨.block, outbound⟩ := by
    cases outbound <;> decide
  refine ⟨by cases outbound <;> decide, ?_, ?_, Windows.ensures_restore known⟩
  · intro c h removes same
    have silent : c.setsDefault = false := by cases c <;> first | rfl | cases removes
    exact (congrArg Defaults.windows (profiles_run silent)).trans same
  · intro h same
    have profiles := Defaults.windows.inj same
    exact (Windows.ensures_currentPolicy profiles).ends fun _ _ _ h => h.1

section books
variable {p : Platform} {orig : Defaults} {dir : StateDir} {h : Host}

/-- The sentinel says how to give `orig` back. -/
def Recorded (p : Platform) (orig : Defaults) (dir : StateDir) (h : Host) : Prop :=
  Restoring p orig ∧
    ∃ s, h.sentinel.load dir.paths = some s ∧ s.rules ≠ [] ∧ s.policy = recordOf orig

/-- The original policies are recorded or in force. -/
structure Kept (p : Platform) (orig : Defaults) (dir : StateDir) (h : Host) : Prop where
  legacy : h.sentinel.legacy = none
  books : Recorded p orig dir h ∨ h.sentinel.load dir.paths = none ∧ h.defaults p = orig

theorem Recorded.congr {h' : Host} (sentinel : h'.sentinel = h.sentinel)
    (recorded : Recorded p orig dir h) : Recorded p orig dir h' := by
  unfold Recorded
  rw [sentinel]
  exact recorded

theorem Kept.congr {h' : Host} (sentinel : h'.sentinel = h.sentinel)
    (defaults : h.defaults p = orig → h'.defaults p = orig) (kept : Kept p orig dir h) :
    Kept p orig dir h' := by
  refine ⟨by rw [sentinel]; exact kept.legacy, ?_⟩
  rcases kept.books with recorded | ⟨absent, same⟩
  · exact .inl (recorded.congr sentinel)
  · exact .inr ⟨by rw [sentinel]; exact absent, defaults same⟩

theorem Kept.removeFile (kept : Kept p orig dir h) (same : h.defaults p = orig) (place : Place) :
    Kept p orig dir (works (.file (.remove place)) h).2 := by
  cases place with
  | primary =>
    have sentinel : (works (.file (.remove .primary)) h).2.sentinel = Files.empty := by
      simp [works, Command.act, FileOp.act, Files.put, Files.empty, kept.legacy]
    refine ⟨by rw [sentinel]; rfl, .inr ⟨?_, same⟩⟩
    rw [sentinel]
    exact Files.load_empty _
  | legacy =>
    have sentinel : (works (.file (.remove .legacy)) h).2.sentinel = h.sentinel := by
      simp [works, Command.act, FileOp.act, Files.put, ← kept.legacy]
    exact kept.congr sentinel fun same => same

theorem ensures_removeFiles (kept : Kept p orig dir h) (same : h.defaults p = orig)
    (places : List Place) :
    (Manager.removeFiles places).Ensures works (Kept p orig dir)
      (fun _ h => Kept p orig dir h ∧ h.defaults p = orig) h := by
  have removed := ensures_removeFiles_of (fun h => Kept p orig dir h ∧ h.defaults p = orig) places
    (fun place _ ⟨kept, same⟩ => ⟨kept.removeFile same place, same⟩) ⟨kept, same⟩
  exact removed.mono (fun _ h => h.1) fun _ _ _ h => h

theorem ensures_recorded {α : Type} {x : Fw α} (only : x.Only (Command.Of fun _ => true))
    (legacy : h.sentinel.legacy = none) (recorded : Recorded p orig dir h) :
    x.Ensures works (Kept p orig dir)
      (fun _ h => h.sentinel.legacy = none ∧ Recorded p orig dir h) h := by
  have keeps : ∀ (c : OsCommand) (h : Host), true = true →
      h.sentinel.legacy = none ∧ Recorded p orig dir h →
      (c.run h).2.sentinel.legacy = none ∧ Recorded p orig dir (c.run h).2 := by
    intro c h _ ⟨legacy, recorded⟩
    exact ⟨by rw [sentinel_run]; exact legacy, recorded.congr (sentinel_run c h)⟩
  exact (ensures_of_class works _ only keeps ⟨legacy, recorded⟩).mono
    (fun _ h => ⟨h.1, .inl h.2⟩) fun _ _ _ h => h

/-- `Disable` gives the policies back, and what is recorded stays until they are. -/
theorem ensures_disable {m : Manager} (kept : Kept p orig m.dir h)
    (active : m.active = true → Recorded p orig m.dir h) :
    (m.disable p.backend).Ensures works (Kept p orig m.dir)
      (fun r h => r = (.ok (), { m with active := false, mode := .off }) ∧
        Kept p orig m.dir h ∧ h.defaults p = orig) h := by
  have finish : ∀ h, Kept p orig m.dir h → h.defaults p = orig →
      (do
        Manager.removeFiles m.sentinelPaths
        pure (.ok (), { m with active := false, mode := .off }) :
        Fw (Except String Unit × Manager)).Ensures works (Kept p orig m.dir)
        (fun r h => r = (.ok (), { m with active := false, mode := .off }) ∧
          Kept p orig m.dir h ∧ h.defaults p = orig) h := fun h kept same =>
    (ensures_removeFiles kept same _).seq fun _ h kept same => ⟨kept, rfl, same⟩
  refine (ensures_readSentinel m kept).seq ?_
  rintro s h' - ⟨rfl, same⟩
  rw [same]
  rcases kept.books with recorded | ⟨absent, same⟩
  · have ⟨restoring, s, loaded, rules, policy⟩ := recorded
    rw [show h.sentinel.load m.sentinelPaths = some s from loaded, Option.getD_some]
    have removed : (m.disableRules p.backend s).Ensures works (Kept p orig m.dir)
        (fun _ h => h.sentinel.legacy = none ∧ Recorded p orig m.dir h) h := by
      rw [Manager.disableRules, if_pos rules]
      exact ensures_recorded (Script.Only.bind (only_class (p.only_remove _) fun _ _ => rfl)
        fun _ => trivial) kept.legacy recorded
    refine removed.seq fun _ h _ ⟨legacy, recorded⟩ => ?_
    have restored : (Manager.disablePolicy p.backend s).Ensures works (Kept p orig m.dir)
        (fun _ h => (h.sentinel.legacy = none ∧ Recorded p orig m.dir h) ∧ h.defaults p = orig)
        h := by
      rw [Manager.disablePolicy, policy, if_pos restoring.named]
      have only : (p.backend.restore (recordOf orig)).Only (Command.Of fun _ => true) :=
        p.only_restore rfl (fun _ => rfl) rfl
      have books := ensures_recorded only legacy recorded
      exact ((books.and (restoring.restores h)).mono (fun _ h => h.1) fun _ _ _ h => h).seq
        fun _ h kept done => ⟨kept, done⟩
    exact restored.seq fun _ h kept done => finish h kept done.2
  · rw [show h.sentinel.load m.sentinelPaths = none from absent, Option.getD_none]
    have idle : m.active = false := by
      by_contra active'
      obtain ⟨_, s, loaded, _⟩ := active (by simpa using active')
      rw [absent] at loaded
      cases loaded
    have rules : m.disableRules p.backend ⟨[], "", "", .off⟩ = pure () := by
      simp [Manager.disableRules, idle]
    have policy : Manager.disablePolicy p.backend ⟨[], "", "", .off⟩ = pure () := rfl
    rw [rules, policy]
    exact finish h kept same

end books

section unrecorded
variable {dir : StateDir} {policy : Hook → Policy} {h : Host}

/-- Without a sentinel, the policies of iptables are as they are. -/
structure Unrecorded (dir : StateDir) (policy : Hook → Policy) (h : Host) : Prop where
  legacy : h.sentinel.legacy = none
  unloaded : h.sentinel.load dir.paths = none
  policies : ∀ hook, (h.iptables.chain hook).policy = policy hook

variable (unrecorded : Unrecorded dir policy h)
include unrecorded

theorem Unrecorded.os {c : OsCommand}
    (removes : c.removes = true) : Unrecorded dir policy (works (.os c) h).2 := by
  have silent : c.setsDefault = false := by cases c <;> first | rfl | cases removes
  have sentinel : (works (.os c) h).2.sentinel = h.sentinel := sentinel_run c h
  refine ⟨?_, ?_, fun hook => (iptables_run silent hook).trans (unrecorded.policies hook)⟩
  · rw [sentinel]
    exact unrecorded.legacy
  · rw [sentinel]
    exact unrecorded.unloaded

theorem Unrecorded.removeFile (place : Place) :
    Unrecorded dir policy (works (.file (.remove place)) h).2 := by
  obtain ⟨legacy, unloaded, policies⟩ := unrecorded
  refine ⟨?_, ?_, policies⟩
  · cases place
    · exact legacy
    · rfl
  · cases place <;> cases dir <;>
      simp_all [works, Command.act, FileOp.act, StateDir.paths, Files.load, Files.get, Files.put]

theorem Unrecorded.removeFiles (places : List Place) :
    (Manager.removeFiles places).Ends works
      (fun _ h' => Unrecorded dir policy h' ∧ h'.nft = h.nft) h := by
  have removed := ensures_removeFiles_of
      (fun h' => Unrecorded dir policy h' ∧ h'.nft = h.nft) places
    (fun place _ ⟨unrecorded, nft⟩ => ⟨unrecorded.removeFile place, nft⟩) ⟨unrecorded, rfl⟩
  exact removed.ends fun _ _ _ h => h

theorem Unrecorded.remove (names : List String) :
    (Linux.remove names).Ends works (fun _ h' => Unrecorded dir policy h' ∧ h'.nft = none) h := by
  have still := ensures_of_class works (Unrecorded dir policy) (Linux.only_remove names)
    (fun _ _ removes unrecorded => Unrecorded.os unrecorded removes) unrecorded
  exact (still.and (Linux.ensures_remove names h)).ends fun _ _ _ h => h

omit unrecorded in
/-- Without a sentinel, `Disable` takes the table away if it is active, and nothing else. -/
theorem ensures_disable_unrecorded {m : Manager} (unrecorded : Unrecorded m.dir policy h) :
    (m.disable linuxBackend).Ends works
      (fun r h' => r = (.ok (), { m with active := false, mode := .off }) ∧
        Unrecorded m.dir policy h' ∧ h'.nft = if m.active then none else h.nft) h := by
  refine (ensures_readSentinel m trivial).seq ?_
  rintro s h₁ - ⟨rfl, same⟩
  rw [same, show h.sentinel.load m.sentinelPaths = none from unrecorded.unloaded, Option.getD_none]
  have unrestored : Manager.disablePolicy linuxBackend ⟨[], "", "", .off⟩ = pure () := rfl
  have removed : (m.disableRules linuxBackend ⟨[], "", "", .off⟩).Ends works
      (fun _ h' => Unrecorded m.dir policy h' ∧ h'.nft = if m.active then none else h.nft) h := by
    rw [Manager.disableRules, if_neg (not_not.mpr rfl)]
    cases m.active with
    | false => exact ⟨trivial, unrecorded, rfl⟩
    | true => exact (unrecorded.remove _).seq fun _ h' _ kept => ⟨trivial, kept⟩
  refine removed.seq fun _ h₁ _ ⟨unrecorded, nft⟩ => ?_
  rw [unrestored]
  refine (unrecorded.removeFiles m.sentinelPaths).seq fun _ h' _ ⟨unrecorded, kept⟩ => ?_
  exact ⟨trivial, rfl, unrecorded, kept.trans nft⟩

end unrecorded

end VeilNet.Source.Firewall
