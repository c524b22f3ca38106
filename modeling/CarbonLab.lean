import CarbonLab.Lib.Json
import CarbonLab.Lib.JsonToken
import CarbonLab.Lib.JsonText
import CarbonLab.Lib.Bytes
import CarbonLab.Lib.JsonRead
import CarbonLab.Lib.JsonKeyed
import CarbonLab.Lib.Utf8
import CarbonLab.Lib.Program
import CarbonLab.Lib.Cuts
import CarbonLab.Lib.Batches
import CarbonLab.Lib.FileSystem
import CarbonLab.Lib.Glob
import CarbonLab.Lib.HashChain
import CarbonLab.Lib.Interleaving
import CarbonLab.Lib.Raises
import CarbonLab.Lib.Reads
import CarbonLab.Lib.Lines
import CarbonLab.Lib.Links
import CarbonLab.Lib.LinkPaths
import CarbonLab.Lib.RealPath
import CarbonLab.Lib.Inodes
import CarbonLab.Lib.LinkedList
import CarbonLab.Lib.Regex
import CarbonLab.Lib.Transition
import CarbonLab.Scheduler.State
import CarbonLab.Scheduler.ChannelQueue
import CarbonLab.Scheduler.BlockedLinks
import CarbonLab.Scheduler.BlockedRuns
import CarbonLab.Scheduler.RunQueue
import CarbonLab.Scheduler.Machine
import CarbonLab.Scheduler.Chain
import CarbonLab.Scheduler.Orderly
import CarbonLab.Scheduler.ListChanges
import CarbonLab.Scheduler.Switching
import CarbonLab.Scheduler.RunLoop
import CarbonLab.Scheduler.Yield
import CarbonLab.Scheduler.Operations
import CarbonLab.Scheduler.ChannelCalls
import CarbonLab.Scheduler.ChannelFrame
import CarbonLab.Scheduler.OperationFrame
import CarbonLab.Scheduler.CloseState
import CarbonLab.Scheduler.CloseRuns
import CarbonLab.Scheduler.OrderedRuns
import CarbonLab.Scheduler.Exclusivity
import CarbonLab.Scheduler.Scheduling
import CarbonLab.Scheduler.Requests
import CarbonLab.Scheduler.QueueSafety
import CarbonLab.Scheduler.Beside
import CarbonLab.Scheduler.BesideSteps
import CarbonLab.Scheduler.MainLoop
import CarbonLab.Scheduler.TimeLimit
import CarbonLab.Scheduler.OffMain
import CarbonLab.Scheduler.Limits
import CarbonLab.Scheduler.LimitsSteps
import CarbonLab.Scheduler.TaskletLimit
import CarbonLab.Aegis.Host
import CarbonLab.Aegis.FileLock
import CarbonLab.Aegis.AtomicFiles
import CarbonLab.Aegis.Recovery
import CarbonLab.Aegis.RecoveryDecision
import CarbonLab.Aegis.RecoveryOrder
import CarbonLab.Aegis.RecoveryExact
import CarbonLab.Aegis.Redaction
import CarbonLab.Aegis.Seal
import CarbonLab.Aegis.Dynamic
import CarbonLab.Aegis.Evidence
import CarbonLab.Aegis.EvidenceChain
import CarbonLab.Aegis.EvidenceRuns
import CarbonLab.Aegis.EvidenceAppend
import CarbonLab.Aegis.EvidenceRecovery
import CarbonLab.Aegis.EvidenceTail
import CarbonLab.Aegis.Assurance
import CarbonLab.Aegis.Review
import CarbonLab.Aegis.StateMachine
import CarbonLab.Aegis.TaskSchema
import CarbonLab.Aegis.TaskFields
import CarbonLab.Aegis.FailClosed
import CarbonLab.Aegis.FailClosedTask
import CarbonLab.Aegis.StateStore
import CarbonLab.Aegis.TaskSave
import CarbonLab.Aegis.TaskFacts
import CarbonLab.Aegis.AnchorChain
import CarbonLab.Aegis.SaveLoad
import CarbonLab.Aegis.Rollback
import CarbonLab.Aegis.AppendOnly
import CarbonLab.Aegis.StoreCalls
import CarbonLab.Aegis.Frozen
import CarbonLab.Aegis.NextEpoch
import CarbonLab.Aegis.Implement
import CarbonLab.Aegis.Implementable
import CarbonLab.Aegis.ImplementCalls
import CarbonLab.Aegis.CycleStep
import CarbonLab.Aegis.SteadySave
import CarbonLab.Aegis.Resave
import CarbonLab.Aegis.CycleRecord
import CarbonLab.Aegis.CycleSave
import CarbonLab.Aegis.CycleCalls
import CarbonLab.Aegis.CycleGrammar
import CarbonLab.Aegis.Subagent
import CarbonLab.Aegis.SubagentRuns
import CarbonLab.Aegis.OneChild
import CarbonLab.Aegis.ChildHandoff
import CarbonLab.Aegis.ChildRecovery
import CarbonLab.Aegis.WriteScope
import CarbonLab.Aegis.ProjectContract
import CarbonLab.Aegis.GitStatus
import CarbonLab.Aegis.DirtyFiles
import CarbonLab.Aegis.StatusParse
import CarbonLab.Aegis.PathSpelling
import CarbonLab.Aegis.DirtyProtection
import CarbonLab.Aegis.WriteAuthority
import CarbonLab.Aegis.PolicyGates
import CarbonLab.Aegis.PolicyMonotone
import CarbonLab.Aegis.Manifest
import CarbonLab.Aegis.ManifestCodec
import CarbonLab.Aegis.ManifestRoundTrip
import CarbonLab.Aegis.ContentDigest
import CarbonLab.Aegis.Bootstrap
import CarbonLab.Aegis.BootstrapScan
import CarbonLab.Aegis.BootstrapPlan
import CarbonLab.Aegis.BootstrapSettles
import CarbonLab.Aegis.ConfinedPath
import CarbonLab.Aegis.Governance
import CarbonLab.Aegis.KeyProbe
import CarbonLab.Aegis.ModuleVersion
import CarbonLab.Aegis.ModuleGraph
import CarbonLab.Aegis.ArgvRedaction
import CarbonLab.Aegis.ContextCache
import CarbonLab.Aegis.Transaction
import CarbonLab.Aegis.TransactionJournal
import CarbonLab.Aegis.TransactionPreflight
import CarbonLab.Aegis.AtomicCuts
import CarbonLab.Aegis.TransactionRecovery
import CarbonLab.Aegis.TransactionCommit
import CarbonLab.Aegis.TransactionRuns
