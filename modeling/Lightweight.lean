import Lightweight.Transition
import Lightweight.MinByKey
import Lightweight.Gateway.Scheduler
import Lightweight.Gateway.SchedulerSteps
import Lightweight.Gateway.SchedulerSlots
import Lightweight.Gateway.SchedulerEffects
import Lightweight.Gateway.SchedulerCapacity
import Lightweight.Gateway.SchedulerWork
import Lightweight.Gateway.SchedulerPause
import Lightweight.Gateway.ModelManager
import Lightweight.Gateway.SchedulerOrder
import Lightweight.Gateway.SchedulerAccounts
import Lightweight.Gateway.Residency
import Lightweight.Framing
import Lightweight.Spelling
import Lightweight.Utf8
import Lightweight.Core.Sse
import Lightweight.Core.SseChunks
import Lightweight.Core.SseRoundTrip
import Lightweight.Core.SseBytes
import Lightweight.Router.Json
import Lightweight.Router.FrameRewriter
import Lightweight.Router.RewriterFrames
import Lightweight.Router.RewriterEvents
import Lightweight.Router.RewriterEnding
import Lightweight.Catalog.Alias
import Lightweight.Router.Domain
import Lightweight.Router.Health
import Lightweight.Router.HealthHistory
import Lightweight.Router.Capability
import Lightweight.Router.HealthReads
import Lightweight.Router.Select
import Lightweight.Router.SelectPlans
import Lightweight.Router.Summary
import Lightweight.Router.Placement
import Lightweight.Router.PlacementPlans
import Lightweight.Router.Controller
import Lightweight.Core.ModelId
import Lightweight.Catalog.Store
import Lightweight.Catalog.FreeId
import Lightweight.Catalog.Names
import Lightweight.Gateway.CatalogChanges
import Lightweight.Gateway.CatalogNames
import Lightweight.Router.Affinity
import Lightweight.Router.Attempt
import Lightweight.Router.AttemptWalk
import Lightweight.Router.Fallback
import Lightweight.Router.RouteRequest
import Lightweight.Router.RequestChain
import Lightweight.Router.AffinityRuns
import Lightweight.Router.Config
import Lightweight.Router.ConfigTopology
import Lightweight.Router.ConfigAccepted
import Lightweight.Router.LeastBusyRuns
import Lightweight.Backend.Upstream
import Lightweight.Backend.UpstreamStream
import Lightweight.Api.Stream
import Lightweight.Gateway.StreamEncoder
import Lightweight.Gateway.StreamGrammar
import Lightweight.Gateway.Aggregate
import Lightweight.Gateway.ChatAgreement
import Lightweight.Inference.Generation
import Lightweight.Gather
import Lightweight.Core.Ggml
import Lightweight.Word64
import Lightweight.Fallible
import Lightweight.Gguf.Reader
import Lightweight.Gguf.TensorRanges
import Lightweight.Gguf.Format
import Lightweight.Gguf.Parses
import Lightweight.Gguf.Values
import Lightweight.Gguf.RoundTrip
import Lightweight.Gguf.Truncation
import Lightweight.Core.Runtime
import Lightweight.Gguf.Metadata
import Lightweight.Memory.Estimator
import Lightweight.Memory.KvBounds
import Lightweight.Bench.Apply
import Lightweight.Gateway.LoadModel
import Lightweight.Gateway.FittedContext
import Lightweight.Backend.Supervisor
import Lightweight.Gateway.EngineContext
import Lightweight.Store.ApiKeys
import Lightweight.Gateway.KeyRequests
import Lightweight.Download.Fetch
import Lightweight.Download.Attempts
import Lightweight.Download.Runs
import Lightweight.Keyed
import Lightweight.Gateway.Limits
import Lightweight.Api.Completions
import Lightweight.Gateway.Completions
import Lightweight.Gateway.CompletionsAgreement
import Lightweight.Store.Atomic
import Lightweight.Gateway.RequestRecord
import Lightweight.Binary64
import Lightweight.Gateway.TimingDurations
import Lightweight.Backend.Process
import Lightweight.Gateway.ResidentFile
import Lightweight.Broadcast
import Lightweight.Gateway.JobWatch
import Lightweight.Router.Classifier
import Lightweight.Router.Scoring
import Lightweight.Router.AutoRoute
import Lightweight.Router.ClassifierReading
import Lightweight.Router.ClassifierSettings
import Lightweight.Router.SettingsRequests
import Lightweight.Router.SettingsStart
import Lightweight.Digraph
import Lightweight.Router.FallbackCycles
import Lightweight.Rotation
import Lightweight.Router.LoadOrder
import Lightweight.Router.RoundRobinRuns
import Lightweight.Api.Chat
import Lightweight.Router.Requirements
import Lightweight.Router.AutoDecision
import Lightweight.Gateway.SchedulerPositions
import Lightweight.Gateway.BindConfig
import Lightweight.Filesystem
import Lightweight.Backend.Acquire
import Lightweight.Backend.AcquireConfined
import Lightweight.Backend.AcquireAttempts
import Lightweight.Release.Update
import Lightweight.Release.RollBack
import Lightweight.Desktop.Supervisor
import Lightweight.Desktop.StartedProcesses
import Lightweight.ZeroPadded
import Lightweight.Release.Version
import Lightweight.Gateway.ToolCallChunks
import Lightweight.Memory.Remedies
import Lightweight.Memory.SuggestedContext
import Lightweight.Gguf.Arrays
import Lightweight.Gateway.RetryAfter
import Lightweight.Store.JsonText
import Lightweight.Store.Settings
import Lightweight.Bench.Fit
import Lightweight.Gateway.ModelDetail
import Lightweight.Answered
import Lightweight.Api.ToolAnswers
import Lightweight.Gateway.Logs
import Lightweight.Newest
import Lightweight.Collect
import Lightweight.Router.FallbackLists
import Lightweight.Router.PanelClassifier
import Lightweight.Router.PanelFallback
import Lightweight.Router.PanelCycles
import Lightweight.Router.PanelFallbackAgrees
import Lightweight.Router.AutoNames
import Lightweight.Router.PanelRunning
import Lightweight.Router.ClassifierAccepted
import Lightweight.Router.PanelClassifierAgrees
import Lightweight.Utf8Stream
import Lightweight.Store.JsonPrinter
import Lightweight.Api.ChunkJson
import Lightweight.Gateway.WireFrames
import Lightweight.Panel.ChatReader
import Lightweight.Panel.ChatReply
import Lightweight.Router.GatewayRelay
import Lightweight.Histogram
import Lightweight.Gateway.Tally
import Lightweight.TextFormat
import Lightweight.Router.Exposition
import Lightweight.Gateway.Drain
import Lightweight.Store.Documents
import Lightweight.Store.Conversations
import Lightweight.Gateway.ConversationRequests
import Lightweight.Panel.Poll
import Lightweight.Gateway.JobBook
import Lightweight.Gateway.Web
import Lightweight.Backend.EngineStart
import Lightweight.Router.NodeAnswers
import Lightweight.Panel.LiveFeed
