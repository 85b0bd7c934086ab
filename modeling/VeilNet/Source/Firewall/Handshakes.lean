import VeilNet.Source.Firewall.Effects

/-!
The endpoint that the kill-switch rules let through: how it is read off the rules, and what
the functions of the kill switch do to it when every command works.
-/
namespace VeilNet.Source.Firewall
open Lib Script

/-- The address and the port of an endpoint rule of nftables, which has its comment last. -/
def nftEndpoint (rule : List String) : Option (String × String) :=
  if rule.getLast? = some "\"veilnet-ks-endpoint\"" then some (rule.getD 5 "", rule.getD 2 "")
  else none

/-- The same for iptables, where `-j ACCEPT` follows the comment. -/
def iptablesEndpoint (rule : List String) : Option (String × String) :=
  if rule.reverse[2]? = some "veilnet-ks-endpoint" then some (rule.getD 3 "", rule.getD 5 "")
    else none

/-- The same for the Windows firewall; the values follow `remoteip=` and `remoteport=`. -/
def netshEndpoint (rule : List String) : Option (String × String) :=
  if rule[2]? = some "name=VeilNet-KS-Allow-Endpoint" then
    some (String.ofList ((rule.getD 6 "").toList.drop 9),
      String.ofList ((rule.getD 7 "").toList.drop 11))
  else none

/-- The endpoints of the rules of iptables. -/
def Host.fallback (h : Host) : List (String × String) :=
  h.iptables.output.rules.filterMap iptablesEndpoint

/-- The endpoints that the installed rules let through. -/
def Host.handshakes (h : Host) : Platform → List (String × String)
  | .linux =>
    ((h.nft.bind Table.output).elim [] fun c => c.rules.filterMap nftEndpoint) ++ h.fallback
  | .windows => h.netshRules.filterMap netshEndpoint

/-- No rule lets an endpoint through, and there is no table of the kill switch. -/
def Host.Clean (h : Host) : Platform → Prop
  | .linux => h.nft = none ∧ h.fallback = []
  | .windows => ∀ rule ∈ h.netshRules, "name=VeilNet-KS-Allow-Endpoint" ∉ rule

/-- One endpoint is let through, by a rule of the first choice. -/
def Host.Locked (h : Host) (ip port : String) : Platform → Prop
  | .linux =>
    (∃ c, h.nft.bind Table.output = some c ∧ c.rules.filterMap nftEndpoint = [(ip, port)]) ∧
      h.fallback = []
  | .windows => h.netshRules.filterMap netshEndpoint = [(ip, port)]

theorem Host.Locked.handshakes {h : Host} {ip port : String} {p : Platform}
    (locked : h.Locked ip port p) : h.handshakes p = [(ip, port)] := by
  cases p with
  | windows => exact locked
  | linux =>
    obtain ⟨⟨c, chain, rules⟩, fallback⟩ := locked
    simp [Host.handshakes, chain, rules, fallback]

def Platform.endpointRule : Platform → String
  | .linux => "veilnet-ks-endpoint"
  | .windows => "VeilNet-KS-Allow-Endpoint"

theorem Platform.endpointRule_mem (p : Platform) (spec : Spec) :
    p.endpointRule ∈ p.backend.ruleNames spec := by
  cases p with
  | linux => exact List.mem_append_left _ List.mem_cons_self
  | windows =>
    refine List.mem_flatMap.mpr ⟨_, List.mem_cons_self, List.mem_filterMap.mpr
      ⟨"name=VeilNet-KS-Allow-Endpoint", by simp, ?_⟩⟩
    decide

section commands
variable {h : Host} {c : OsCommand} {p : Platform}

/-- The commands that make tables, chains and rules. -/
def OsCommand.installs : OsCommand → Bool
  | .nftAddTable | .nftAddChain _ | .nftAddRule _ _ | .iptablesInsert _ _ | .netshAdd _ => true
  | .nftList | .nftDelete | .iptablesPolicy _ _ | .iptablesDelete _ _ | .netshDelete _
  | .netshPolicy _ | .netshShow => false

theorem fallback_run (kept : c.installs = false) (free : h.fallback = []) :
    (c.run h).2.fallback = [] := by
  cases c with
  | iptablesPolicy hook policy => cases hook <;> exact free
  | iptablesDelete hook rule =>
    simp only [OsCommand.run]
    split
    · cases hook with
      | input => exact free
      | output =>
        have shorter := (List.erase_sublist (a := rule) (l := h.iptables.output.rules)).filterMap
          iptablesEndpoint
        rw [show h.iptables.output.rules.filterMap iptablesEndpoint = [] from free] at shorter
        exact List.sublist_nil.mp shorter
    · exact free
  | nftList | nftDelete | netshDelete | netshPolicy =>
    simp only [OsCommand.run]
    split <;> exact free
  | netshShow => exact free
  | nftAddTable | nftAddChain | nftAddRule | iptablesInsert | netshAdd => cases kept

theorem clean_run (kept : c.installs = false) (clean : h.Clean p) : (c.run h).2.Clean p := by
  cases p with
  | linux =>
    refine ⟨?_, fallback_run kept clean.2⟩
    have absent := clean.1
    cases c with
    | nftList | nftDelete | iptablesDelete | netshDelete | netshPolicy =>
      simp only [OsCommand.run, absent]
      try split
      all_goals first | exact absent | rfl
    | iptablesPolicy | netshShow => exact absent
    | nftAddTable | nftAddChain | nftAddRule | iptablesInsert | netshAdd => cases kept
  | windows =>
    cases c with
    | netshDelete name =>
      simp only [OsCommand.run]
      split
      · exact fun rule member => clean rule (List.mem_filter.mp member).1
      · exact clean
    | nftList | nftDelete | iptablesDelete | netshPolicy =>
      simp only [OsCommand.run]
      split <;> exact clean
    | iptablesPolicy | netshShow => exact clean
    | nftAddTable | nftAddChain | nftAddRule | iptablesInsert | netshAdd => cases kept

def OsCommand.blocks : OsCommand → Bool
  | .nftAddTable | .nftAddChain _ | .iptablesPolicy _ _ | .netshPolicy _ => true
  | .nftAddRule _ _ | .iptablesInsert _ _ | .netshAdd _ | .nftList | .nftDelete | .iptablesDelete _
      _
  | .netshDelete _ | .netshShow => false

theorem locked_run {ip port : String} (blocks : c.blocks = true) (locked : h.Locked ip port p) :
    (c.run h).2.Locked ip port p := by
  cases p with
  | linux =>
    obtain ⟨⟨chain, output, rules⟩, free⟩ := locked
    obtain ⟨t, table, output⟩ := Option.bind_eq_some_iff.mp output
    cases c with
    | nftAddTable => exact ⟨⟨chain, by simp [OsCommand.run, table, output], rules⟩, free⟩
    | nftAddChain hook =>
      simp only [OsCommand.run, table]
      cases hook with
      | output => exact ⟨⟨⟨.drop, chain.rules⟩, by simp [Table.addChain, output], rules⟩, free⟩
      | input => exact ⟨⟨chain, by simp [Table.addChain, output], rules⟩, free⟩
    | iptablesPolicy hook policy =>
      exact ⟨⟨chain, by simp [OsCommand.run, table, output], rules⟩, by cases hook <;> exact free⟩
    | netshPolicy policy =>
      simp only [OsCommand.run]
      split <;> exact ⟨⟨chain, by simp [table, output], rules⟩, free⟩
    | nftAddRule | iptablesInsert | netshAdd | nftList | nftDelete | iptablesDelete | netshDelete
    | netshShow => cases blocks
  | windows =>
    cases c with
    | nftAddTable | iptablesPolicy => exact locked
    | nftAddChain | netshPolicy =>
      simp only [OsCommand.run]
      split <;> exact locked
    | nftAddRule | iptablesInsert | netshAdd | nftList | nftDelete | iptablesDelete | netshDelete
    | netshShow => cases blocks

end commands

/-! The backends. -/

namespace Linux

/-- The rules of the output chain that `enableNft` adds. -/
def outputRules (spec : Spec) : List (List String) :=
  [["udp", "dport", toString spec.endpointPort, "ip", "daddr", spec.endpointIP, "accept", "comment",
      "\"veilnet-ks-endpoint\""],
    ["ip", "saddr", spec.tunAddr, "accept", "comment", "\"veilnet-ks-tunnel\""],
    ["udp", "dport", "67", "ip", "daddr", "255.255.255.255", "accept", "comment",
      "\"veilnet-ks-dhcp\""]] ++
    if spec.lanAllowed then
      [["ip", "daddr", "10.0.0.0/8,172.16.0.0/12,192.168.0.0/16", "accept", "comment",
        "\"veilnet-ks-lan\""]]
    else []

/-- On a host without the table, `enableNft` makes it with these rules. -/
theorem exec_enableNft (spec : Spec) {h : Host} (absent : h.nft = none) :
    ((enableNft spec).exec works h).1 = .ok () ∧
      ((enableNft spec).exec works h).2.nft.bind Table.output = some ⟨.drop, outputRules spec⟩ ∧
      ((enableNft spec).exec works h).2.iptables = h.iptables := by
  obtain ⟨nft, iptables, profiles, netshRules, sentinel⟩ := h
  obtain rfl : nft = none := absent
  obtain ⟨endpointIP, endpointPort, tunAddr, lanAllowed⟩ := spec
  cases lanAllowed <;> exact ⟨rfl, rfl, rfl⟩

theorem exec_enable (spec : Spec) {h : Host} (absent : h.nft = none) :
    (enable spec).exec works h = (.ok (), ((enableNft spec).exec works h).2) := by
  rw [enable, exec_bind, (exec_enableNft spec absent).1]
  rfl

theorem endpoint_outputRules (spec : Spec) :
    (outputRules spec).filterMap nftEndpoint = [(spec.endpointIP, toString spec.endpointPort)] := by
  unfold outputRules
  split <;> simp [nftEndpoint]

end Linux

namespace Windows

theorem exec_enable (spec : Spec) (h : Host) :
    (enable spec).exec works h = (.ok (),
      { h with netshRules := h.netshRules ++ allowRules spec }) := by
  have steps : ∀ (rules : List (List String)) (h : Host),
      (runSteps (rules.map .netshAdd)).exec works h =
        (.ok (), { h with netshRules := h.netshRules ++ rules }) := by
    intro rules
    induction rules with
    | nil =>
      intro h
      rw [List.append_nil]
      rfl
    | cons rule rest ih =>
      intro h
      rw [List.map_cons, runSteps, exec_bind]
      refine (ih _).trans ?_
      simp [Firewall.run, works, Command.act, OsCommand.run]
  rw [enable, exec_bind, steps]
  rfl

theorem endpoint_allowRules (spec : Spec) :
    (allowRules spec).filterMap netshEndpoint =
      [(spec.endpointIP, toString spec.endpointPort)] := by
  unfold allowRules
  split <;> simp [netshEndpoint, String.toList_append]

theorem netshEndpoint_eq_none {rule : List String}
    (other : "name=VeilNet-KS-Allow-Endpoint" ∉ rule) : netshEndpoint rule = none := by
  unfold netshEndpoint
  split
  · next named => exact absurd (List.mem_of_getElem? named) other
  · rfl

end Windows

namespace Platform
variable (p : Platform)

theorem endpoint_of_clean {h : Host} (clean : h.Clean p) : h.handshakes p = [] := by
  cases p with
  | linux => simp [Host.handshakes, clean.1, clean.2]
  | windows =>
    exact List.filterMap_eq_nil_iff.mpr fun rule member =>
      Windows.netshEndpoint_eq_none (clean rule member)

/-- `Enable` lets through the handshakes of its endpoint and of no other. -/
theorem ensures_enable_locked {h : Host} (spec : Spec) (clean : h.Clean p) :
    (p.backend.enable spec).Ends works
      (fun r h => r = .ok () ∧ h.Locked spec.endpointIP (toString spec.endpointPort) p) h := by
  refine (ensures_exec _ h).mono (fun _ h => h) fun r h' _ whole => ?_
  cases p with
  | linux =>
    obtain ⟨_, output, iptables⟩ := Linux.exec_enableNft spec clean.1
    have whole := whole.trans (Linux.exec_enable spec clean.1)
    cases whole
    refine ⟨rfl, ⟨⟨_, output, Linux.endpoint_outputRules spec⟩, ?_⟩⟩
    rw [Host.fallback, iptables]
    exact clean.2
  | windows =>
    have whole := whole.trans (Windows.exec_enable spec h)
    cases whole
    refine ⟨rfl, ?_⟩
    have before : h.netshRules.filterMap netshEndpoint = [] := endpoint_of_clean .windows clean
    simp [Host.Locked, before, Windows.endpoint_allowRules]

theorem only_setBlock_blocks : p.backend.setBlock.Only (Command.Of OsCommand.blocks) := by
  cases p with
  | linux =>
    have each : ∀ c ∈ [OsCommand.nftAddTable, .nftAddChain .output, .nftAddChain .input],
        c.blocks = true := by decide
    exact Linux.only_setBlockFrom each fun _ => rfl
  | windows => exact Only.bind ((only_perform _).mpr rfl) fun _ => trivial

theorem ensures_engage_locked {h : Host} (spec : Spec) (clean : h.Clean p) :
    (Manager.engage p.backend spec).Ends works
      (fun r h => r = .ok () ∧ h.Locked spec.endpointIP (toString spec.endpointPort) p) h := by
  refine (p.ensures_enable_locked spec clean).seq ?_
  rintro _ h _ ⟨rfl, locked⟩
  have still := ensures_of_class works (·.Locked spec.endpointIP (toString spec.endpointPort) p)
    p.only_setBlock_blocks (fun _ _ blocks locked => locked_run blocks locked) locked
  have blocked : p.backend.setBlock.Ends works (fun r h => (r = .ok () ∧ h.denies p = true) ∧
        h.Locked spec.endpointIP (toString spec.endpointPort) p) h :=
    ((p.ensures_setBlock h).and still).ends fun _ _ _ out => out
  refine blocked.seq ?_
  rintro _ h _ ⟨⟨rfl, _⟩, locked⟩
  exact ⟨trivial, rfl, locked⟩

end Platform

/-! The manager. -/

section manager
variable {p : Platform} {h : Host}

def Command.installs : Command → Bool
  | .os c => c.installs
  | .file _ => false

theorem ensures_clean {α : Type} {x : Fw α} (only : x.Only fun c => c.installs = false)
    (clean : h.Clean p) : x.Ends works (fun _ h => h.Clean p) h := by
  have keeps : ∀ (c : Command) (h : Host), c.installs = false → h.Clean p →
      (works c h).2.Clean p := by
    intro c h kept clean
    cases c with
    | os c => exact clean_run kept clean
    | file op => cases p <;> exact clean
  exact (ensures_of_only only keeps clean).ends fun _ _ _ clean => clean

theorem only_remove_keeps (p : Platform) (names : List String) :
    (p.backend.remove names).Only fun c => c.installs = false := by
  refine only_class (p.only_remove names) fun c removes => ?_
  cases c <;> first | rfl | cases removes

theorem only_finish_keeps (p : Platform) (m : Manager) (s : Sentinel) :
    (do
      Manager.disablePolicy p.backend s
      Manager.removeFiles m.sentinelPaths
      pure (.ok (), { m with active := false, mode := .off }) :
      Fw (Except String Unit × Manager)).Only fun c => c.installs = false := by
  refine Only.bind ?_ fun _ => Only.bind (only_removeFiles fun _ => rfl) fun _ => trivial
  unfold Manager.disablePolicy
  split
  · exact Only.bind (p.only_restore rfl (fun _ => rfl) rfl) fun _ => trivial
  · trivial

/-- The removal of the endpoint rule leaves the firewall clean. -/
theorem ensures_remove_locked {ip port : String} {names : List String} (locked : h.Locked ip port p)
    (named : p.endpointRule ∈ names) :
    (p.backend.remove names).Ends works (fun _ h => h.Clean p) h := by
  cases p with
  | linux =>
    have keeps : ∀ (c : Command) (h : Host), c.installs = false → h.fallback = [] →
        (works c h).2.fallback = [] := by
      intro c h kept free
      cases c with
      | os c => exact fallback_run kept free
      | file op => exact free
    have free := ensures_of_only (only_remove_keeps .linux names) keeps locked.2
    exact ((Linux.ensures_remove names h).and free).ends fun _ _ _ out => out
  | windows =>
    clear locked
    change (Windows.remove names).Ensures works _ _ h
    induction names generalizing h with
    | nil => cases named
    | cons name rest ih =>
      refine Ensures.step trivial ?_
      rcases List.mem_cons.mp named with rfl | later
      · have gone : (works (.os (.netshDelete "VeilNet-KS-Allow-Endpoint")) h).2.Clean
            .windows := by
          simp only [works, Command.act, OsCommand.run]
          split
          · intro rule member
            simpa using (List.mem_filter.mp member).2
          · next absent =>
            intro rule member named
            exact absent (List.any_eq_true.mpr ⟨rule, member, by simpa using named⟩)
        exact (ensures_clean (only_remove_keeps .windows rest) gone).seq fun _ _ _ clean =>
          ⟨trivial, clean⟩
      · exact (ih later).seq fun _ _ _ clean => ⟨trivial, clean⟩

/-- `Disable` would remove the endpoint rule: the sentinel names it, or there is no sentinel and
the manager knows that it is active. -/
def Removable (p : Platform) (m : Manager) (h : Host) : Prop :=
  p.endpointRule ∈ ((h.sentinel.load m.sentinelPaths).getD ⟨[], "", "", .off⟩).rules ∨
    ((h.sentinel.load m.sentinelPaths).getD ⟨[], "", "", .off⟩).rules = [] ∧ m.active = true

theorem ensures_disable_clean (m : Manager) (clean : h.Clean p) :
    (m.disable p.backend).Ends works (fun _ h => h.Clean p) h := by
  refine ensures_clean (Only.bind ⟨rfl, fun _ => trivial⟩ fun s => ?_) clean
  refine Only.bind ?_ fun _ => only_finish_keeps p m s
  unfold Manager.disableRules
  split
  · exact Only.bind (only_remove_keeps p _) fun _ => trivial
  · split
    · exact Only.bind (only_remove_keeps p _) fun _ => trivial
    · trivial

/-- `Disable` takes the rule of the endpoint away. -/
theorem ensures_disable_locked {ip port : String} {m : Manager} (locked : h.Locked ip port p)
    (removable : Removable p m h) :
    (m.disable p.backend).Ends works (fun _ h => h.Clean p) h := by
  refine (ensures_readSentinel m trivial).seq ?_
  rintro s h' _ ⟨rfl, rfl⟩
  have cleared : ∀ s, p.endpointRule ∈ s.rules ∨ s.rules = [] ∧ m.active = true →
      (m.disableRules p.backend s).Ends works (fun _ h => h.Clean p) h' := by
    intro s removable
    unfold Manager.disableRules
    rcases removable with named | ⟨empty, active⟩
    · rw [if_pos (List.ne_nil_of_mem named)]
      exact (ensures_remove_locked locked named).seq fun _ _ _ clean => ⟨trivial, clean⟩
    · rw [if_neg (not_not.mpr empty), if_pos active]
      exact (ensures_remove_locked locked (p.endpointRule_mem _)).seq fun _ _ _ clean =>
        ⟨trivial, clean⟩
  exact (cleared _ removable).seq fun _ _ _ clean => ensures_clean (only_finish_keeps p m _) clean

/-- What `Enable` leaves: the endpoint is let through and `Disable` would remove its rule, or it
failed and nothing is let through. -/
def Enabled (p : Platform) (ip : String) (port : ℤ) (r : Except String Unit × Manager) (h : Host) :
    Prop :=
  r.1 = .ok () ∧ h.Locked ip (toString port) p ∧ Removable p r.2 h ∨
    (∃ err, r.1 = .error err) ∧ h.Clean p

theorem ensures_enable_clean (m : Manager) {mode : Mode} (on : mode ≠ .off) (ip : String) (port : ℤ)
    (tunAddr : String) (clean : h.Clean p) :
    (m.enable p.backend mode ip port tunAddr).Ends works (Enabled p ip port) h := by
  rw [Manager.enable, if_neg on]
  split
  · exact ⟨trivial, .inr ⟨⟨_, rfl⟩, clean⟩⟩
  · have stale : (m.removeStale p.backend).Only fun c => c.installs = false := by
      refine Only.bind ⟨rfl, fun _ => trivial⟩ fun s => ?_
      split
      · trivial
      · exact Only.bind (only_remove_keeps p _) fun _ => only_removeFiles fun _ => rfl
    have policy : p.backend.currentPolicy.Only fun c => c.installs = false := by
      refine only_class p.only_currentPolicy fun c looks => ?_
      cases c <;> first | rfl | cases looks
    refine (ensures_clean stale clean).seq fun _ h _ clean => ?_
    refine (ensures_clean policy clean).seq fun policy h _ clean => ?_
    cases policy with
    | error err => exact ⟨trivial, .inr ⟨⟨_, rfl⟩, clean⟩⟩
    | ok policy =>
      refine (p.ensures_engage_locked _ clean).seq ?_
      rintro _ h _ ⟨rfl, locked⟩
      have named := p.endpointRule_mem ⟨ip, port, tunAddr, m.lanAllowed⟩
      have written : ∀ s : Sentinel, p.endpointRule ∈ s.rules →
          (m.writeSentinel s).Ends works
            (fun _ h => h.Locked ip (toString port) p ∧
            Removable p { m with mode, active := true } h) h := by
        intro s named
        unfold Manager.writeSentinel
        cases dir : m.dir with
        | homeless =>
          have paths : m.sentinelPaths = [] := by rw [Manager.sentinelPaths, dir]; rfl
          rw [paths]
          refine ⟨trivial, locked, .inr ⟨?_, rfl⟩⟩
          simp [Manager.sentinelPaths, StateDir.paths, Files.load]
        | single | migrating =>
          simp only [Manager.sentinelPaths, dir, StateDir.paths]
          refine ⟨trivial, trivial, by cases p <;> exact locked, .inl ?_⟩
          simpa [Manager.sentinelPaths, dir, StateDir.paths, Files.load, works, Command.act,
            FileOp.act, Files.put, Files.get] using named
      exact (written _ named).seq fun _ h _ out => ⟨trivial, .inl ⟨rfl, out⟩⟩

end manager

end VeilNet.Source.Firewall
