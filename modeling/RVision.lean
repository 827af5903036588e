import RVision.Transition.Machine
import RVision.Transition.Threads
import RVision.Transition.Logs
import RVision.Transition.Lock
import RVision.Transition.Ownership
import RVision.Transition.Futures
import RVision.Text.Splitting
import RVision.Text.Percent
import RVision.Lines.Db.Statements
import RVision.Lines.Db.Pool
import RVision.Lines.Db.Members
import RVision.Lines.Db.Conservation
import RVision.Lines.Db.Draining
import RVision.Lines.Db.Access
import RVision.Lines.Db.Destructor
import RVision.Lines.Db.Termination
import RVision.Lines.Db.Indexes
import RVision.Lines.Poller
import RVision.Lines.PollerThread
import RVision.Lines.Provider.Cache
import RVision.Lines.Provider.Repetition
import RVision.Lines.Provider.DeltaStream
import RVision.Lines.Provider.Traffic
import RVision.Lines.Provider.Projection
import RVision.Lines.Provider.Pollers
import RVision.Lines.Provider.Readiness
import RVision.Lines.Provider.Tracking
import RVision.Lines.Provider.Storage
import RVision.Lines.Provider.Polling
import RVision.Lines.Provider.Lifetime
import RVision.Rpc.Messages
import RVision.Rpc.Client.Machine
import RVision.Rpc.Client.Handlers
import RVision.Rpc.Client.OperationDiscipline
import RVision.Rpc.Client.MessageStreams
import RVision.Rpc.Client.Lockstep
import RVision.Rpc.Client.Destruction
import RVision.Rpc.Client.Ending
import RVision.Rpc.Client.Throwing
import RVision.Rpc.Server.Subscription
import RVision.Rpc.Server.Machine
import RVision.Rpc.Server.Steps
import RVision.Rpc.Server.History
import RVision.Rpc.Server.WakeUp
import RVision.Rpc.Server.HandOver
import RVision.Rpc.Server.SingleFlight
import RVision.Rpc.Server.EndOfStream
import RVision.Rpc.Server.LastRead
import RVision.Rpc.Server.Shutdown
import RVision.Rpc.Server.Stopping
import RVision.Rpc.Server.Streams
import RVision.Rpc.Server.Responses
import RVision.Rpc.Server.Adoption
import RVision.Rpc.Server.Periods
import RVision.Rpc.Server.RequestOrder
import RVision.Rpc.Server.Turns
import RVision.Session.Machine
import RVision.Session.Channels
import RVision.Session.Faultless
import RVision.Session.Progress
import RVision.Session.Starvation
import RVision.Session.Served
import RVision.Session.Observation
import RVision.Session.Pacing
import RVision.Session.Provenance
import RVision.Session.TurnTaking
import RVision.Session.Answering
import RVision.Session.Replay
import RVision.Session.Accounting
import RVision.Session.Response
import RVision.Session.Service
import RVision.Http.Params
import RVision.Http.Query
import RVision.Http.Dispatcher
import RVision.Http.Server
import RVision.App.Config
import RVision.App.Ready
import RVision.App.Handler
import RVision.App.Startup
import RVision.App.System
import RVision.App.Delivery
import RVision.App.Service
