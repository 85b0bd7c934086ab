import VeilNet.Lib.GoIP
import VeilNet.Lib.Outcome
import VeilNet.Source.Nodes.Ipam

/-!
The operator's settings as text: `Config.Validate` of `internal/nodes/config.go`, and
`NewIPAM` of `internal/nodes/ipam.go` from its CIDR text on. What a text means to
the `net` package is a parameter.
-/
namespace VeilNet.Source.Nodes
open Lib Lib.GoIP Lib.Outcome

/-- Readings of the `net` package: an address without a zone, and
`net.SplitHostPort`. -/
structure NetText where
  parseAddr : String → Option Addr
  splitHostPort : String → Except String (String × String)

/-- The fields of `Config` that `Validate` checks. -/
structure Settings where
  nodeType : String
  maxClients : ℤ
  cgnat : String
  wgAddress : String
  mgmtBind : String
  allowRemote : Bool
  maxSessionMinutes : ℤ
  rateLimitKbps : ℤ
  rateBurstKB : ℤ

inductive SettingsError where
  | nodeType (got : String)
  | maxClients
  | badCgnat
  | badWGAddress (got : String)
  | mgmtBindRequired
  | badMgmtBind (text : String)
  | remoteBind
  | maxSessionMinutes
  | rateLimits
  deriving DecidableEq

def isLoopbackBind (net : NetText) (addr : String) : Bool :=
  match net.splitHostPort addr with
  | .error _ => false
  | .ok (host, _) =>
    if host = "" ∨ host = "localhost" then true
    else (net.parseAddr host).any fun ip => isLoopback ip.as16

namespace Settings

def validate (net : NetText) (c : Settings) : Except SettingsError Unit := do
  refuseIf (c.nodeType ≠ "EXIT" ∧ c.nodeType ≠ "RELAY") (.nodeType c.nodeType)
  refuseIf (c.maxClients ≤ 0 ∨ c.maxClients > 10000) .maxClients
  refuseIf (parseCIDR net.parseAddr c.cgnat = none) .badCgnat
  refuseIf (net.parseAddr c.wgAddress = none) (.badWGAddress c.wgAddress)
  refuseIf (c.mgmtBind = "") .mgmtBindRequired
  let _ ← (net.splitHostPort c.mgmtBind).mapError .badMgmtBind
  refuseIf (c.allowRemote = false ∧ isLoopbackBind net c.mgmtBind = false) .remoteBind
  refuseIf (c.maxSessionMinutes < 0) .maxSessionMinutes
  refuseIf (c.rateLimitKbps < 0 ∨ c.rateBurstKB < 0) .rateLimits

end Settings

inductive PoolError where
  | badCIDR | notIPv4 | rangeTooSmall

/-- `NewIPAM`; the outer error is a panic. -/
def newIPAM (text : IPText) (net : NetText) (cidr : String) :
    Except Panic (Except PoolError IPAM) :=
  match parseCIDR net.parseAddr cidr with
  | none => .ok (.error .badCIDR)
  | some (ip, networkMask) =>
    let ip4 := to4 ip
    if ip4 = [] then .ok (.error .notIPv4)
    else do
      let mask ← uint32 networkMask
      let base ← uint32 (applyMask ip4 networkMask)
      let size := ~~~mask + 1
      return if size < 8 then .error .rangeTooSmall
        else .ok { base, size, next := 2, used := ∅, serverIP := text.format (base + 1) }

variable {net : NetText} {cidr : String}

theorem Settings.validate_ok {c : Settings} (accepted : c.validate net = .ok ()) :
    ∃ addr ones, readCIDR net.parseAddr c.cgnat = some (addr, ones) := by
  unfold Settings.validate at accepted
  obtain ⟨_, _, accepted⟩ := of_bind_ok accepted
  obtain ⟨_, _, accepted⟩ := of_bind_ok accepted
  obtain ⟨_, parsed, _⟩ := of_bind_ok accepted
  have present := of_refuseIf_ok parsed
  rw [parseCIDR, Option.map_eq_none_iff] at present
  obtain ⟨⟨addr, ones⟩, found⟩ := Option.ne_none_iff_exists'.mp present
  exact ⟨addr, ones, found⟩

theorem newIPAM_v4 (text : IPText) {a : UInt32} {ones : ℕ}
    (range : readCIDR net.parseAddr cidr = some (.v4 a, ones)) :
    ∃ mask, uint32 (cidrMask ones 32) = .ok mask ∧
      newIPAM text net cidr =
        .ok (match IPAM.newIPAM text a mask with
          | none => .error .rangeTooSmall
          | some pool => .ok pool) := by
  have four : (cidrMask ones 32).length = 4 := length_cidrMask ones 32
  obtain ⟨mask, ofMask⟩ := uint32_ok_iff.mpr four.ge
  have ofIP : uint32 (octetList a) = .ok a := congrArg Except.ok (IPText.ofOctets_octets a)
  have base := uint32_applyMask rfl four ofIP ofMask
  refine ⟨mask, ofMask, ?_⟩
  have parsed : parseCIDR net.parseAddr cidr = some ((Addr.v4 a).as16, cidrMask ones 32) := by
    rw [parseCIDR, range]
    rfl
  have some : octetList a ≠ [] := List.cons_ne_nil _ _
  simp only [newIPAM, parsed, to4_as16_v4, if_neg some, ofMask, base]
  unfold IPAM.newIPAM
  dsimp only
  by_cases small : ~~~mask + 1 < 8
  · rw [if_pos small]
    exact congrArg Except.ok (if_pos small)
  · rw [if_neg small]
    exact congrArg Except.ok (if_neg small)

end VeilNet.Source.Nodes
