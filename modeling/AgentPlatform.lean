import AgentPlatform.Lib.Interleaving
import AgentPlatform.Lib.Unwinding
import AgentPlatform.Lib.StateGraph
import AgentPlatform.Lib.TokenBucket
import AgentPlatform.Lib.Regex
import AgentPlatform.Lib.RegexWords
import AgentPlatform.Lib.Substitution
import AgentPlatform.Lib.Phrases
import AgentPlatform.Lib.Rego
import AgentPlatform.Lib.Effect
import AgentPlatform.Lib.KeyedStore
import AgentPlatform.Lib.Transitions
import AgentPlatform.Lib.SignedSums
import AgentPlatform.Lib.Ranking
import AgentPlatform.Lib.Delimited
import AgentPlatform.Python.Value
import AgentPlatform.Python.Numbers
import AgentPlatform.Security.Rbac
import AgentPlatform.Security.Pii
import AgentPlatform.Security.Detectors
import AgentPlatform.Security.MaskedText
import AgentPlatform.Security.Leaks
import AgentPlatform.Security.Completeness
import AgentPlatform.Security.Redaction
import AgentPlatform.Security.Guardrails
import AgentPlatform.Security.Heuristics
import AgentPlatform.Security.Tokens
import AgentPlatform.Gateway.Models
import AgentPlatform.Gateway.Factory
import AgentPlatform.Gateway.Failover
import AgentPlatform.Gateway.Degradation
import AgentPlatform.Gateway.Accounting
import AgentPlatform.Gateway.OpenAi
import AgentPlatform.Gateway.Providers
import AgentPlatform.Tools.Base
import AgentPlatform.Tools.Authz
import AgentPlatform.Tools.Catalog
import AgentPlatform.Tools.AuthzLaw
import AgentPlatform.Tools.Policy
import AgentPlatform.Tools.Retrieval
import AgentPlatform.Tools.Figures
import AgentPlatform.Decisioning.Eligibility
import AgentPlatform.Decisioning.Coherence
import AgentPlatform.Decisioning.Applications
import AgentPlatform.Decisioning.Offers
import AgentPlatform.Decisioning.Evidence
import AgentPlatform.Decisioning.Fraud
import AgentPlatform.Decisioning.Signals
import AgentPlatform.Rag.VectorStore
import AgentPlatform.Rag.Pipeline
import AgentPlatform.Rag.TenantIsolation
import AgentPlatform.Rag.Records
import AgentPlatform.Rag.OpenSearch
import AgentPlatform.Rag.Replacement
import AgentPlatform.Rag.Uploads
import AgentPlatform.Rag.Chunks
import AgentPlatform.Rag.TopK
import AgentPlatform.Events.Broker
import AgentPlatform.Middleware.RateLimit
import AgentPlatform.Middleware.RedisCounters
import AgentPlatform.Middleware.LocalLimiter
import AgentPlatform.Middleware.Windows
import AgentPlatform.Agents.Memory
import AgentPlatform.Agents.Process
import AgentPlatform.Agents.Base
import AgentPlatform.Agents.Specialized
import AgentPlatform.Agents.Router
import AgentPlatform.Agents.Supervisor
import AgentPlatform.Agents.Dialogue
import AgentPlatform.Agents.Confinement
import AgentPlatform.Agents.Approval
import AgentPlatform.Agents.Identifiers
import AgentPlatform.Agents.Namespaces
import AgentPlatform.Agents.History
import AgentPlatform.Agents.Invocations
import AgentPlatform.Agents.Snapshots
import AgentPlatform.Agents.Endings
import AgentPlatform.Agents.Serialization
import AgentPlatform.Graph.State
import AgentPlatform.Graph.Tools
import AgentPlatform.Graph.Supervisor
import AgentPlatform.Graph.Follow
import AgentPlatform.Graph.Refinement
import AgentPlatform.Agents.Transcript
import AgentPlatform.Graph.Replay
import AgentPlatform.Graph.GuardCoverage
import AgentPlatform.Graph.Isolation
import AgentPlatform.Graph.Agreement
import AgentPlatform.Graph.Paths
import AgentPlatform.Graph.SideBySide
import AgentPlatform.Graph.Insistence
import AgentPlatform.Graph.Advertised
import AgentPlatform.Graph.Surfacing
import AgentPlatform.Graph.Turn
import AgentPlatform.Graph.Halting
import AgentPlatform.Graph.StoredReplies
import AgentPlatform.Agents.FailedTurns
import AgentPlatform.Services.Audit
import AgentPlatform.Services.Documents
import AgentPlatform.Services.AgentService
import AgentPlatform.Services.Routing
import AgentPlatform.Services.Delivered
import AgentPlatform.Services.Continuity
import AgentPlatform.Services.Scripted
import AgentPlatform.Services.Tenancy
import AgentPlatform.Api.Dependencies
import AgentPlatform.Api.Sessions
import AgentPlatform.Api.Identity
import AgentPlatform.Api.Chats
import AgentPlatform.Api.TenantWrites
import AgentPlatform.Api.Escalation
import AgentPlatform.Api.Correlation
import AgentPlatform.Api.Application
import AgentPlatform.Api.Provenance
