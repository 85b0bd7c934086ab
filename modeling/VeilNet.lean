import VeilNet.Guarantees.SettlementInterleaving
import VeilNet.Guarantees.SettlementProtocol
import VeilNet.Guarantees.TokenReuse
import VeilNet.Guarantees.AddressPool
import VeilNet.Guarantees.PeerTable
import VeilNet.Guarantees.Restarts
import VeilNet.Guarantees.ClientCap
import VeilNet.Guarantees.NodeBinding
import VeilNet.Guarantees.EgressPolicy
import VeilNet.Guarantees.RegistryFile
import VeilNet.Guarantees.HonestNode
import VeilNet.Guarantees.GuardedRotation
import VeilNet.Guarantees.RotatorUpdates
import VeilNet.Guarantees.DefaultPolicy
import VeilNet.Guarantees.KillswitchHolds
import VeilNet.Guarantees.AllowList
import VeilNet.Guarantees.Resolvers
import VeilNet.Guarantees.RouteRecovery
import VeilNet.Guarantees.AlwaysOn
import VeilNet.Guarantees.FailedConnect
import VeilNet.Guarantees.CrashRestart
import VeilNet.Guarantees.OneApproval
import VeilNet.Guarantees.HourlyBudget
import VeilNet.Guarantees.FreshHandshake
import VeilNet.Guarantees.StopIsFinal
import VeilNet.Guarantees.NoLeak
import VeilNet.Guarantees.StickyGuard
import VeilNet.Guarantees.ShownNode
import VeilNet.Guarantees.CircuitRaces
import VeilNet.Guarantees.EndpointRule
import VeilNet.Guarantees.TokenOracle
import VeilNet.Guarantees.FundedCredit
import VeilNet.Guarantees.DelimitedText
import VeilNet.Guarantees.RouteSettlement
import VeilNet.Guarantees.RefusedAuthorize
import VeilNet.Guarantees.ConfigSafety
import VeilNet.Guarantees.RateBound
import VeilNet.Guarantees.ReplyRouting
import VeilNet.Guarantees.StoredRoutes
import VeilNet.Guarantees.EvidenceBinding
import VeilNet.Guarantees.RegistryRetry
import VeilNet.Guarantees.RegistryReload
import VeilNet.Guarantees.ActiveCounts
import VeilNet.Guarantees.NodeSelection
import VeilNet.Guarantees.BlocklistRestart
import VeilNet.Guarantees.PairSelection
import VeilNet.Guarantees.KeptHops
import VeilNet.Guarantees.HopTokens
import VeilNet.Guarantees.Watchdog
import VeilNet.Guarantees.FailedRotation
import VeilNet.Guarantees.IptablesResidue
import VeilNet.Guarantees.ConfigTexts
import VeilNet.Guarantees.WindowLimit
import VeilNet.Guarantees.Shaping
import VeilNet.Guarantees.AutoCircuit
import VeilNet.Guarantees.RotationInterval
import VeilNet.Guarantees.ConfiguredServers
import VeilNet.Guarantees.DataPlanes
import VeilNet.Guarantees.Challenges
