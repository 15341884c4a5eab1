import AgentCorp.Access.Accounts
import AgentCorp.Access.Seeds
import AgentCorp.Chat.Pagination
import AgentCorp.Chat.ToolTranscript
import AgentCorp.Chat.TurnOutcome
import AgentCorp.Conversations.Privacy
import AgentCorp.Executions.TerminalStates
import AgentCorp.Frontend.Http
import AgentCorp.Knowledge.Pieces
import AgentCorp.Knowledge.Replacement
import AgentCorp.Knowledge.Uploads
import AgentCorp.Lib.TaskGroup
import AgentCorp.Memory.Retrieval
import AgentCorp.MultiAgent.Delegation
import AgentCorp.MultiAgent.Enrolment
import AgentCorp.MultiAgent.MessageBus
import AgentCorp.MultiAgent.SessionCompletion
import AgentCorp.MultiAgent.SessionLifecycle
import AgentCorp.MultiAgent.SharedContext
import AgentCorp.Observability.Metrics
import AgentCorp.Observability.Tracing
import AgentCorp.Providers.AllowList
import AgentCorp.Providers.Failover
import AgentCorp.Providers.GroqStream
import AgentCorp.Rag.ContextBudget
import AgentCorp.Rag.DeletedDocuments
import AgentCorp.Rag.EmbeddingStatus
import AgentCorp.Rag.Provenance
import AgentCorp.Runtime.Analysis
import AgentCorp.Runtime.CapabilityChain
import AgentCorp.Runtime.CompletionStamps
import AgentCorp.Runtime.ConfidenceRange
import AgentCorp.Runtime.ConsolidationOrder
import AgentCorp.Runtime.DiagnosticsBalance
import AgentCorp.Runtime.Dominance
import AgentCorp.Runtime.GovernanceMonotone
import AgentCorp.Runtime.GovernanceSafety
import AgentCorp.Runtime.Observatory
import AgentCorp.Runtime.PlanRevisions
import AgentCorp.Runtime.ReportConsistency
import AgentCorp.Runtime.StagePipelines
import AgentCorp.Runtime.TaskQueueOrder
import AgentCorp.Security.Encryption
import AgentCorp.Security.IpAllowList
import AgentCorp.Security.Pii
import AgentCorp.Security.PolicyCache
import AgentCorp.Security.PolicyEngine
import AgentCorp.Security.QuotaRaces
import AgentCorp.Security.RateLimiter
import AgentCorp.Security.RateLimiterMemory
import AgentCorp.Security.SplicedPhrases
import AgentCorp.Streaming.ChatStreams
import AgentCorp.Streaming.StreamConnection
import AgentCorp.Streaming.StreamRuns
import AgentCorp.Tools.NestingGuard
import AgentCorp.Tools.ToolDiscovery
import AgentCorp.Tools.ToolDispatcher
import AgentCorp.Tools.ToolExecutor
import AgentCorp.Tools.ToolRegistry
import AgentCorp.Tools.ToolSerializer
import AgentCorp.Tools.ToolValidator
import AgentCorp.Workflow.ContextLog
import AgentCorp.Workflow.Creation
import AgentCorp.Workflow.Islands
import AgentCorp.Workflow.Replay
import AgentCorp.Workflow.RetryAccounting
import AgentCorp.Workflow.TenantIsolation
import AgentCorp.Workflow.TransitionSelection
