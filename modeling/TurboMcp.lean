import TurboMcp.Lib.Runs
import TurboMcp.Lib.Unwinding
import TurboMcp.Lib.Paging
import TurboMcp.Lib.Dict
import TurboMcp.Lib.Records
import TurboMcp.Lib.Fresh
import TurboMcp.Lib.Recency
import TurboMcp.Lib.Lines
import TurboMcp.Lib.Text
import TurboMcp.Lib.Search
import TurboMcp.Lib.Captures
import TurboMcp.Lib.Descent
import TurboMcp.Lib.Fuel
import TurboMcp.Lib.Base64
import TurboMcp.Lib.Base64Url
import TurboMcp.Lib.Program
import TurboMcp.Lib.Traces
import TurboMcp.Lib.Resume
import TurboMcp.Lib.Protocol
import TurboMcp.Lib.Pool
import TurboMcp.Lib.Courses
import TurboMcp.Lib.Logged
import TurboMcp.Lib.Buckets
import TurboMcp.Lib.Cells
import TurboMcp.Core.Json
import TurboMcp.Core.Nesting
import TurboMcp.Core.Serde
import TurboMcp.Core.ProtocolVersion
import TurboMcp.Core.JsonRpc
import TurboMcp.Core.Frames
import TurboMcp.Core.Error
import TurboMcp.Core.Context
import TurboMcp.Core.Meta
import TurboMcp.Core.Scopes
import TurboMcp.Core.Float
import TurboMcp.Core.Printed
import TurboMcp.Protocol.Neutral
import TurboMcp.Protocol.Wire
import TurboMcp.Protocol.Convert
import TurboMcp.Protocol.Reread
import TurboMcp.Protocol.Content
import TurboMcp.Protocol.Tools
import TurboMcp.Protocol.ToolSchemas
import TurboMcp.Protocol.Listings
import TurboMcp.Protocol.Presence
import TurboMcp.Service.McpHeaders
import TurboMcp.Service.Outbound
import TurboMcp.Service.Driver
import TurboMcp.Service.Deadlock
import TurboMcp.Service.Delivery
import TurboMcp.Service.Writer
import TurboMcp.Transport.Line
import TurboMcp.Transport.LineReads
import TurboMcp.Transport.Http
import TurboMcp.Transport.Headers
import TurboMcp.Transport.PeerIp
import TurboMcp.Transport.RequestPost
import TurboMcp.Transport.Endpoint
import TurboMcp.Transport.Guards
import TurboMcp.Transport.Budgets
import TurboMcp.Transport.WebSocket
import TurboMcp.Telemetry.Metrics
import TurboMcp.Server.Params
import TurboMcp.Server.Effect
import TurboMcp.Server.Capability
import TurboMcp.Server.Handshake
import TurboMcp.Server.Dispatcher
import TurboMcp.Server.Replies
import TurboMcp.Server.Adapter
import TurboMcp.Server.OneResponse
import TurboMcp.Server.Asserted
import TurboMcp.Server.TrustBoundary
import TurboMcp.Server.Session
import TurboMcp.Server.SessionHistory
import TurboMcp.Server.Subscriptions
import TurboMcp.Server.Inflight
import TurboMcp.Server.PendingRequests
import TurboMcp.Server.Progress
import TurboMcp.Server.UriTemplate
import TurboMcp.Server.StateSigner
import TurboMcp.Server.StateGate
import TurboMcp.Server.Tasks
import TurboMcp.Server.TaskWaits
import TurboMcp.Server.TaskIsolation
import TurboMcp.Server.TaskPaging
import TurboMcp.Server.TaskAnswers
import TurboMcp.Server.TaskSupport
import TurboMcp.Server.Handler
import TurboMcp.Server.Serve
import TurboMcp.Server.Footprint
import TurboMcp.Server.Discipline
import TurboMcp.Server.Roles
import TurboMcp.ExtTasks.Store
import TurboMcp.ExtTasks.StoreConsistency
import TurboMcp.ExtTasks.Lifecycle
import TurboMcp.ExtTasks.Inputs
import TurboMcp.ExtTasks.Subs
import TurboMcp.Client.Actor
import TurboMcp.Client.Handshake
import TurboMcp.Client.Input
import TurboMcp.Client.Driving
import TurboMcp.Client.Watching
import TurboMcp.Client.Cache
import TurboMcp.Client.HeaderParams
import TurboMcp.Client.HeaderSchemas
import TurboMcp.Client.Tools
import TurboMcp.Client.Http
import TurboMcp.Client.HttpReply
import TurboMcp.System.Peers
import TurboMcp.System.Unparking
import TurboMcp.System.Link
import TurboMcp.System.Negotiation
import TurboMcp.System.Inline
import TurboMcp.ExtTasks.Dispatch
import TurboMcp.System.Mediation
import TurboMcp.System.TaskAgreement
import TurboMcp.System.Sections
import TurboMcp.System.Server
import TurboMcp.System.Discipline
import TurboMcp.System.Roles
import TurboMcp.System.Streams
import TurboMcp.System.Routes
import TurboMcp.System.Sessions
import TurboMcp.System.Acknowledged
import TurboMcp.System.Silence
import TurboMcp.System.Recording
import TurboMcp.System.Closing
import TurboMcp.System.Listen
import TurboMcp.System.Pushing
import TurboMcp.System.TaskHistory
import TurboMcp.System.Shown
import TurboMcp.System.StatusOrder
import TurboMcp.System.FinalStatus
import TurboMcp.System.Reclaiming
import TurboMcp.System.Coalescing
import TurboMcp.System.HeaderMirrors
import TurboMcp.System.HeaderRecovery
import TurboMcp.System.VersionHeader
import TurboMcp.System.Caching
import TurboMcp.Protocol.Initialize
import TurboMcp.Server.Contexts
import TurboMcp.System.Contexts
import TurboMcp.System.Converging
import TurboMcp.System.Capabilities
import TurboMcp.System.Handout
import TurboMcp.System.SessionVersion
import TurboMcp.System.Cancelling
import TurboMcp.System.CancelledListen
import TurboMcp.System.Backstop
import TurboMcp.Auth.Principal
import TurboMcp.Auth.Challenge
import TurboMcp.Auth.ChallengeGrammar
import TurboMcp.Auth.ResourceServer
import TurboMcp.Auth.Discovery
import TurboMcp.Auth.Flow
import TurboMcp.Auth.Engine
import TurboMcp.Auth.Binding
import TurboMcp.Auth.Jwks
import TurboMcp.ExtTasks.Requests
import TurboMcp.System.Elicitation
import TurboMcp.Codegen.Normalize
import TurboMcp.Codegen.Members
import TurboMcp.Codegen.Walks
import TurboMcp.Codegen.Flattening
import TurboMcp.Client.Stranding
