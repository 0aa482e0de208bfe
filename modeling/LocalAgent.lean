import LocalAgent.Runtime.ApprovalControllerDurable
import LocalAgent.Runtime.BlockingExecutor
import LocalAgent.Runtime.BudgetAdmission
import LocalAgent.Runtime.BudgetProjection
import LocalAgent.Runtime.ChannelEmitters
import LocalAgent.Runtime.ContextMessages
import LocalAgent.Runtime.DeliveryRuns
import LocalAgent.Runtime.DurableExecutionRuns
import LocalAgent.Runtime.ExternalExecutionRuns
import LocalAgent.Runtime.GuardianLimitsRuns
import LocalAgent.Runtime.GuardianSchedulerRuns
import LocalAgent.Runtime.IncidentAcceptance
import LocalAgent.Runtime.IncidentAdmissionRuns
import LocalAgent.Runtime.IncidentGroupingRuns
import LocalAgent.Runtime.LoopBatchRuns
import LocalAgent.Runtime.LoopBudgetRuns
import LocalAgent.Runtime.LoopDeliveryRuns
import LocalAgent.Runtime.McpClientRuns
import LocalAgent.Runtime.McpLifecycleRuns
import LocalAgent.Runtime.MemoryDependencies
import LocalAgent.Runtime.ModelRoutingChain
import LocalAgent.Runtime.NightlyBatchRuns
import LocalAgent.Runtime.OutputGateRuns
import LocalAgent.Runtime.ParallelExecutionRuns
import LocalAgent.Runtime.RecoveryTail
import LocalAgent.Runtime.Representatives
import LocalAgent.Runtime.RequestPayload
import LocalAgent.Runtime.RetrievalUsage
import LocalAgent.Runtime.SchedulerPropagation
import LocalAgent.Runtime.SnapshotStore
import LocalAgent.Runtime.StateClock
import LocalAgent.Runtime.StateRestore
import LocalAgent.Runtime.StepResultRuns
import LocalAgent.Runtime.TextWindows
import LocalAgent.Runtime.ToolAttempt
import LocalAgent.Runtime.ToolConcurrencyRuns
import LocalAgent.Runtime.ToolOutputText
import LocalAgent.Runtime.ToolRecovery
import LocalAgent.Runtime.TraceExportDispatcherRuns
import LocalAgent.Runtime.TriageExecutionRuns
