import LlmPort.Transition.Run
import LlmPort.Transition.Upsert
import LlmPort.Transition.LatestWins
import LlmPort.Transition.Holding
import LlmPort.Ranking.Greedy
import LlmPort.Ranking.Recent
import LlmPort.Text.Replace
import LlmPort.Files.Directory
import LlmPort.Files.Path
import LlmPort.Backend.NodeControl.Credentials
import LlmPort.Backend.NodeControl.HealthEvents
import LlmPort.Backend.NodeControl.Scheduling
import LlmPort.Backend.NodeControl.Model
import LlmPort.Backend.NodeControl.Dao
import LlmPort.Backend.NodeControl.Service
import LlmPort.Backend.NodeControl.Rows
import LlmPort.Backend.NodeControl.Runtimes
import LlmPort.Backend.Llm.Lifecycle
import LlmPort.Backend.Llm.GatewaySync
import LlmPort.Backend.Llm.Provisioning
import LlmPort.Backend.Finality
import LlmPort.Backend.LatestCommand
import LlmPort.Backend.Enrollment
import LlmPort.Backend.NodeAvailability
import LlmPort.Backend.Publication
import LlmPort.Backend.RuntimeHome
import LlmPort.Backend.ControlPlane
import LlmPort.NodeAgent.Dispatcher
import LlmPort.NodeAgent.HandleRuns
import LlmPort.NodeAgent.HealthSupervisor
import LlmPort.NodeAgent.ContainerNames
import LlmPort.NodeStream.System
import LlmPort.NodeStream.WellFormed
import LlmPort.NodeStream.Agreement
import LlmPort.NodeStream.LastLifecycle
import LlmPort.NodeStream.ProfileSync
import LlmPort.NodeStream.CredentialRotation
import LlmPort.NodeStream.HealthConvergence
import LlmPort.Pii.Service
import LlmPort.Pii.Tokenize
import LlmPort.Gateway.Lease
import LlmPort.Gateway.LeaseRuns
import LlmPort.Gateway.LeaseAccounting
import LlmPort.Gateway.StreamBuffer
import LlmPort.Gateway.StreamResume
import LlmPort.Gateway.ClientBroker
import LlmPort.Gateway.ToolCallMatching
import LlmPort.Gateway.PiiPolicy
import LlmPort.Gateway.PiiClamp
import LlmPort.Gateway.RequestRun
import LlmPort.Gateway.RequestBooks
import LlmPort.Gateway.Egress
import LlmPort.Gateway.SessionPii
import LlmPort.Gateway.ToolPolicy
import LlmPort.Gateway.ToolRouter
import LlmPort.Gateway.ToolAvailability
import LlmPort.Gateway.ClientRegistry
import LlmPort.Gateway.SessionContext
import LlmPort.Gateway.SessionRetry
import LlmPort.Gateway.SessionIsolation
import LlmPort.Gateway.Summaries
import LlmPort.Gateway.Sessions
import LlmPort.ModelSync.Manifest
import LlmPort.ModelSync.Puller
import LlmPort.ModelSync.RoundTrip
import LlmPort.Mcp.PrivacyProxy
import LlmPort.Backend.Llm.BaseUrl
import LlmPort.Gateway.Adapter
import LlmPort.Gateway.RateLimiter
import LlmPort.Mcp.Discovery
import LlmPort.Gateway.McpClient
import LlmPort.Gateway.ToolLoop
import LlmPort.Gateway.ToolTranscript
import LlmPort.Gateway.SkillTools
import LlmPort.Mcp.Names
import LlmPort.Gateway.ToolNames
import LlmPort.Gateway.Embeddings
import LlmPort.Backend.Llm.Reconcile
import LlmPort.Backend.NodeControl.UuidText
import LlmPort.Backend.GatewayMirror
import LlmPort.Backend.RoutingRules
import LlmPort.Backend.RoutingCommands
import LlmPort.Backend.RoutingRequests
import LlmPort.Backend.RoutingReports
import LlmPort.Backend.RoutingRuns
import LlmPort.Skills.Frontmatter
import LlmPort.Skills.Exchange
import LlmPort.Backend.SystemSettings.Registry
import LlmPort.Backend.SystemSettings.Service
import LlmPort.Backend.RagLite.Tables
import LlmPort.Backend.RagLite.FileStore
import LlmPort.Backend.RagLite.Sessions
import LlmPort.Backend.RagLite.Ingest
import LlmPort.Backend.RagLite.IngestOnce
import LlmPort.Backend.RagLite.Search
import LlmPort.Backend.Downloads.Scanner
import LlmPort.Backend.Downloads.Sessions
import LlmPort.Backend.Downloads.Artifacts
import LlmPort.Backend.Downloads.Cancellation
import LlmPort.Backend.RagLite.Outcome
import LlmPort.Backend.Downloads.Outcome
import LlmPort.Backend.JobOutcomes
import LlmPort.Gateway.StreamTokens
import LlmPort.Backend.NodeIsolation
import LlmPort.Skills.Dao
import LlmPort.Skills.Admin
import LlmPort.Skills.PublishedCap
import LlmPort.Skills.TenantIsolation
import LlmPort.Backend.DispatchListing
import LlmPort.Backend.ReaperPatience
import LlmPort.NodeAgent.EventDelivery
import LlmPort.NodeAgent.ResultStore
import LlmPort.NodeAgent.RuntimeManager
import LlmPort.NodeAgent.ImageAllowlist
import LlmPort.NodeAgent.RejectedDeploy
import LlmPort.NodeAgent.EndpointAgreement
import LlmPort.ModelSync.Integrity
import LlmPort.Files.Disk
import LlmPort.ModelSync.StorePull
import LlmPort.ModelSync.Containment
import LlmPort.ModelSync.BlobNames
import LlmPort.Gateway.RecentHistory
import LlmPort.Gateway.ContextBudget
import LlmPort.Pii.Coverage
import LlmPort.Pii.TokenMapping
import LlmPort.Gateway.PolicyOrder
import LlmPort.Mcp.RedactMode
import LlmPort.Text.JsonLoads
import LlmPort.Gateway.NonstreamSse
import LlmPort.Gateway.PolicyRules
import LlmPort.Gateway.PriceCatalog
import LlmPort.Gateway.PriceCoherence
import LlmPort.Ranking.Overrides
import LlmPort.Ranking.TopK
import LlmPort.Skills.Resolve
import LlmPort.Skills.Resolution
import LlmPort.Ranking.Retention
import LlmPort.Skills.VersionHistory
import LlmPort.Backend.RagLite.ChunkCoverage
import LlmPort.Backend.RagLite.Embedding
import LlmPort.Backend.RagLite.Alignment
import LlmPort.Backend.Logs.LogQL
import LlmPort.Text.Pattern
import LlmPort.Backend.Logs.Allowlist
import LlmPort.Text.Document
import LlmPort.Backend.Llm.Monitoring
import LlmPort.Backend.Llm.ProvisionAtomicity
import LlmPort.Backend.Llm.MonitoringSync
import LlmPort.Cli.EnvFile
import LlmPort.Cli.EnvGen
import LlmPort.Cli.EnvRegeneration
import LlmPort.Cli.Backup
import LlmPort.Cli.BackupHonesty
import LlmPort.Backend.Docker.PullTracker
import LlmPort.Backend.Docker.PullStreams
import LlmPort.Backend.Rbac
import LlmPort.Frontend.ChatClient
import LlmPort.Backend.Llm.VllmAdapter
import LlmPort.Frontend.ChatStream
import LlmPort.Backend.Llm.VllmFlags
import LlmPort.NodeAgent.VllmFlags
import LlmPort.Backend.RagLite.Collections
import LlmPort.Backend.RagLite.CollectionUpdate
import LlmPort.Backend.CommandKeys
import LlmPort.Backend.PendingDeployment
import LlmPort.NodeAgent.ContainerLogs
import LlmPort.Backend.Notifications.Outbox
import LlmPort.Backend.Notifications.Delivery
import LlmPort.Backend.Notifications.Alerts
import LlmPort.Backend.Containers
import LlmPort.Backend.Stacks
import LlmPort.Mcp.Connections
import LlmPort.Gateway.Attachments
import LlmPort.Backend.Llm.TraceStream
