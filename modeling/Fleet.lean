import Fleet.Api.Atomicity
import Fleet.Api.Lineage
import Fleet.Api.Supersession
import Fleet.Api.Idempotency
import Fleet.Api.PauseTtl
import Fleet.Api.Timestamps
import Fleet.Api.ContextOrder
import Fleet.Api.Callbacks
import Fleet.Api.StreamReplay
import Fleet.Api.StreamClosing
import Fleet.Api.StreamDelivery
import Fleet.Api.Authority
import Fleet.Api.Frozen
import Fleet.Api.Admission
import Fleet.Api.HeartbeatMonitor
import Fleet.Api.Routes
import Fleet.Api.CallbackDelivery
import Fleet.Api.LinkWalk
import Fleet.Api.KeyExpiry
import Fleet.Api.Progress
import Fleet.Api.Registration
import Fleet.Api.SequenceRange
import Fleet.Api.Workflows
import Fleet.Agent.Dispatching
import Fleet.Agent.SignalHandling
import Fleet.Agent.StopSignals
import Fleet.System.Signing
import Fleet.System.Gate
import Fleet.System.Endings
import Fleet.System.Delivery
import Fleet.System.SignalContract
import Fleet.System.SignalLoop
import Fleet.System.FailureCause
import Fleet.Api.Cursors
import Fleet.System.Timeouts
import Fleet.System.Priority
import Fleet.Api.Inheritance
import Fleet.Agent.StopChecks
import Fleet.Agent.TerminalEvents
import Fleet.Api.CreationErrors
import Fleet.Lib.Lines
import Fleet.Agent.HandlerOutput
import Fleet.Lib.JsonRoundtrip
import Fleet.Lib.EventStream
import Fleet.Api.SseFraming
import Fleet.Api.AuthErrors
import Fleet.Api.Identifiers
import Fleet.Api.References
import Fleet.Api.OfferedActions
import Fleet.Lib.Transactions
import Fleet.Api.Receipts
import Fleet.Api.Concurrency
import Fleet.Api.SharedHistory
import Fleet.Api.Endpoints
import Fleet.Lib.Services
import Fleet.Lib.Isolation
import Fleet.Api.Warrants
import Fleet.Api.TaskRoutes
import Fleet.Api.CatalogRoutes
import Fleet.Api.Service
import Fleet.Api.Compartments
import Fleet.Api.Confinement
import Fleet.Api.Reach
import Fleet.Api.Accountability
import Fleet.System.Attribution
import Fleet.System.Hypermedia
import Fleet.System.Isolation
import Fleet.System.Enrollment
import Fleet.System.SharedService
import Fleet.System.ServedRuns
