import EdgeSentinel.Library.Run
import EdgeSentinel.Library.Proc
import EdgeSentinel.Library.Coroutine
import EdgeSentinel.Library.Keyed
import EdgeSentinel.Library.Slots
import EdgeSentinel.Library.Window
import EdgeSentinel.Library.FixedWidth
import EdgeSentinel.Library.Unwinding
import EdgeSentinel.Library.Text
import EdgeSentinel.Library.Json
import EdgeSentinel.Library.JsonRoundtrip
import EdgeSentinel.Core.State
import EdgeSentinel.Core.Events
import EdgeSentinel.Core.EventBus
import EdgeSentinel.Proofs.Core.Publication
import EdgeSentinel.Core.Lifecycle
import EdgeSentinel.Proofs.Core.StateChangeHandlers
import EdgeSentinel.Persistence.Database
import EdgeSentinel.Proofs.Persistence.Database
import EdgeSentinel.Persistence.Transactions
import EdgeSentinel.Proofs.Persistence.Transaction
import EdgeSentinel.Persistence.Jobs
import EdgeSentinel.Proofs.Persistence.OneJob
import EdgeSentinel.Proofs.Persistence.Serial
import EdgeSentinel.Persistence.Migrations
import EdgeSentinel.Proofs.Persistence.CrashSafety
import EdgeSentinel.Proofs.Persistence.Upgrades
import EdgeSentinel.Persistence.SavedStates
import EdgeSentinel.Core.Runtime
import EdgeSentinel.Proofs.Core.Interruptions
import EdgeSentinel.Proofs.Core.Start
import EdgeSentinel.Proofs.Core.Stop
import EdgeSentinel.Proofs.Core.Life
import EdgeSentinel.Core.Status
import EdgeSentinel.Proofs.Core.Status
import EdgeSentinel.Resilience.CircuitBreaker
import EdgeSentinel.Proofs.Resilience.TrialCalls
import EdgeSentinel.Proofs.Resilience.Transitions
import EdgeSentinel.Proofs.Resilience.Cooldown
import EdgeSentinel.Durability.Journal
import EdgeSentinel.Durability.Operations
import EdgeSentinel.Proofs.Durability.Executions
import EdgeSentinel.Proofs.Durability.AtLeastOnce
import EdgeSentinel.Proofs.Durability.MaxAttempts
import EdgeSentinel.Proofs.Durability.Finality
import EdgeSentinel.Proofs.Durability.Arguments
import EdgeSentinel.Durability.Table
import EdgeSentinel.Proofs.Durability.ReplaySet
import EdgeSentinel.Durability.Pruning
import EdgeSentinel.Proofs.Durability.Pruning
import EdgeSentinel.Durability.Recovery
import EdgeSentinel.Proofs.Durability.Recovery
import EdgeSentinel.Durability.Signature
import EdgeSentinel.Proofs.Durability.Rebinding
import EdgeSentinel.Durability.Nesting
import EdgeSentinel.Proofs.Durability.Nesting
import EdgeSentinel.Monitoring.Monitors
import EdgeSentinel.Monitoring.Fleet
import EdgeSentinel.Proofs.Monitoring.Masking
import EdgeSentinel.Monitoring.Solo
import EdgeSentinel.Proofs.Monitoring.Settling
import EdgeSentinel.Proofs.Monitoring.Connectivity
import EdgeSentinel.Proofs.Monitoring.Pressure
import EdgeSentinel.Monitoring.Checks
import EdgeSentinel.Proofs.Monitoring.Episodes
import EdgeSentinel.Monitoring.NetworkChecks
import EdgeSentinel.Proofs.Monitoring.NetworkReports
import EdgeSentinel.Monitoring.Polling
import EdgeSentinel.Proofs.Monitoring.OneLoop
import EdgeSentinel.Monitoring.Memory
import EdgeSentinel.Proofs.Monitoring.MemoryUsed
import EdgeSentinel.Resilience.Restore
import EdgeSentinel.Proofs.Resilience.Survival
import EdgeSentinel.Resilience.SharedStore
import EdgeSentinel.Proofs.Resilience.SharedStore
import EdgeSentinel.Resilience.Backoff
import EdgeSentinel.Resilience.Retry
import EdgeSentinel.Resilience.Calls
import EdgeSentinel.Resilience.Reliable
import EdgeSentinel.Proofs.Resilience.FailureCount
import EdgeSentinel.Proofs.Resilience.Sequential
import EdgeSentinel.Proofs.Resilience.EndToEnd
import EdgeSentinel.Resilience.Timeout
import EdgeSentinel.Proofs.Resilience.Transparency
import EdgeSentinel.Resilience.Decorators
import EdgeSentinel.Proofs.Resilience.Isolation
import EdgeSentinel.Process.Supervisor
import EdgeSentinel.Proofs.Process.Turns
import EdgeSentinel.Proofs.Process.StopFinal
import EdgeSentinel.Proofs.Process.Delays
import EdgeSentinel.Proofs.Process.CrashLoop
import EdgeSentinel.Process.Watchdog
import EdgeSentinel.Proofs.Process.Vigilance
import EdgeSentinel.Process.Rounds
import EdgeSentinel.Proofs.Process.Alternation
import EdgeSentinel.Subsystems.Crew
import EdgeSentinel.Subsystems.Ensemble
import EdgeSentinel.Proofs.Subsystems.Shutdown
import EdgeSentinel.Proofs.Subsystems.Plans
import EdgeSentinel.Diagnostics.Incidents
import EdgeSentinel.Diagnostics.StateChanges
import EdgeSentinel.Proofs.Diagnostics.History
import EdgeSentinel.Diagnostics.Timeline
import EdgeSentinel.Proofs.Diagnostics.Replay
import EdgeSentinel.Proofs.Diagnostics.Segmentation
import EdgeSentinel.Proofs.Diagnostics.LiveView
import EdgeSentinel.Proofs.Diagnostics.Lives
import EdgeSentinel.Proofs.Diagnostics.SeverityScan
import EdgeSentinel.Proofs.Diagnostics.PrunedTimeline
import EdgeSentinel.Diagnostics.Timestamps
import EdgeSentinel.Proofs.Diagnostics.TimeBounds
import EdgeSentinel.Diagnostics.EventText
import EdgeSentinel.Proofs.Diagnostics.EventText
import EdgeSentinel.Diagnostics.Observers
import EdgeSentinel.Proofs.Diagnostics.Observers
import EdgeSentinel.Integrations.Forwarders
import EdgeSentinel.Proofs.Integrations.Forwarders
import EdgeSentinel.Diagnostics.Report
import EdgeSentinel.Proofs.Diagnostics.Downtime
