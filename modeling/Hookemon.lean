import Hookemon.Core.Checked
import Hookemon.Core.Reentrancy
import Hookemon.Core.Trace
import Hookemon.Core.CarriedFloor
import Hookemon.Core.RollingWindow
import Hookemon.Core.Timelock
import Hookemon.Core.Numerals
import Hookemon.Core.Words
import Hookemon.Core.SumTree
import Hookemon.Contracts.Basic
import Hookemon.Contracts.FeeAccounting
import Hookemon.Contracts.FeeStreams
import Hookemon.Contracts.MoneyRoles
import Hookemon.Contracts.CanonicalMarket
import Hookemon.Contracts.ProcessClaims
import Hookemon.Contracts.HookemonHook
import Hookemon.Contracts.HookSolvency
import Hookemon.Contracts.SwapPairing
import Hookemon.Contracts.ClaimLimits
import Hookemon.Contracts.OperationsRotation
import Hookemon.Contracts.CanonicalMerkleSum
import Hookemon.Core.ProRata
import Hookemon.Js.Text
import Hookemon.Js.Hex
import Hookemon.Js.BigInt
import Hookemon.Payout.Keccak
import Hookemon.Payout.ManifestCodec
import Hookemon.Runner.Scheduler
import Hookemon.Runner.PayoutPlan
import Hookemon.Js.Number
import Hookemon.Js.Value
import Hookemon.Js.Json
import Hookemon.Runner.CanonicalJson
import Hookemon.Runner.CycleJournal
import Hookemon.Core.Runs
import Hookemon.Runner.ExclusiveLease
import Hookemon.Contracts.PegCycleAuthorization
import Hookemon.Core.Allotment
import Hookemon.Contracts.PayoutCommitment
import Hookemon.Contracts.HolderSettlement
import Hookemon.Contracts.PegCycleEscrow
import Hookemon.Contracts.PegCycleVault
import Hookemon.Contracts.PegCycleSafety
import Hookemon.Core.Scan
import Hookemon.Runner.OperatorConfiguration
import Hookemon.Runner.PolicyCustody
import Hookemon.Runner.PolicyEngine
import Hookemon.Runner.PolicyLedgers
import Hookemon.Runner.CanonicalBounds
import Hookemon.Runner.ConfigurationBounds
import Hookemon.Runner.PolicyRecording
import Hookemon.Adapters.AccountingProjection
import Hookemon.Adapters.ProjectedCustody
import Hookemon.Runner.PolicyDecisions
import Hookemon.Adapters.ProjectedPolicy
import Hookemon.Js.Date
import Hookemon.Runner.CanonicalOrder
import Hookemon.Runner.CycleRecords
import Hookemon.Runner.CycleStore
import Hookemon.Runner.DurableIndex
import Hookemon.Runner.IndexFile
import Hookemon.Runner.DurableStore
import Hookemon.Runner.CommitAtomicity
import Hookemon.Runner.StoreWorld
import Hookemon.Runner.IndexHistory
import Hookemon.Runner.CycleFile
import Hookemon.Runner.WorldFiles
import Hookemon.Runner.SharedJournals
import Hookemon.Runner.ConsumedEvidence
import Hookemon.Runner.Reopening
import Hookemon.Core.Service
import Hookemon.Core.Replay
import Hookemon.Repository.ChainAttempts
import Hookemon.Repository.SignOnly
import Hookemon.Repository.SignOnlyGrants
import Hookemon.Repository.Admission
import Hookemon.Repository.QuoteRefresh
import Hookemon.Repository.GlobalKeys
import Hookemon.Repository.StandingAuthority
import Hookemon.Core.Growing
import Hookemon.Repository.ProcessUsdClaims
import Hookemon.Core.Leases
import Hookemon.Repository.WalletNonce
import Hookemon.Repository.StageAttempts
import Hookemon.Core.WindowSearch
import Hookemon.Contracts.ExactOutput
import Hookemon.Contracts.ClaimCapacity
import Hookemon.Core.TreeLevels
import Hookemon.Payout.Distribution
import Hookemon.Core.Slices
import Hookemon.Runner.ProRataDistribution
import Hookemon.Core.Transfers
import Hookemon.Runner.SnapshotText
import Hookemon.Runner.TransferFold
import Hookemon.Runner.HolderSnapshot
import Hookemon.Runner.RewardSelection
import Hookemon.Js.Map
import Hookemon.Core.Histories
import Hookemon.Runner.CycleEvidence
import Hookemon.Runner.CycleState
import Hookemon.Runner.CycleActions
import Hookemon.Runner.CycleClosing
import Hookemon.Runner.CycleMutations
import Hookemon.Runner.CycleReducer
import Hookemon.Runner.EvidenceLedger
import Hookemon.Runner.LedgerIntegrity
import Hookemon.Runner.MutationHistory
import Hookemon.Runner.RetiredEvidence
import Hookemon.Runner.BuybackApproval
import Hookemon.Signing.Revalidation
import Hookemon.Signing.MovedValue
import Hookemon.Collector.DeliveryOrder
import Hookemon.Repository.GeneratedPacks
import Hookemon.Repository.HeldRepeats
