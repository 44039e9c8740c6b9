import FrProxy.Library.Cell
import FrProxy.Library.KeyedList
import FrProxy.Library.Transition
import FrProxy.Library.Line
import FrProxy.Library.Program
import FrProxy.Library.Frames
import FrProxy.Library.Wire
import FrProxy.Json
import FrProxy.Rapidjson
import FrProxy.Rapidjson.Progress
import FrProxy.Rapidjson.Lexing
import FrProxy.Rapidjson.Reading
import FrProxy.Registry
import FrProxy.Registry.RoundTrip
import FrProxy.Registry.Elements
import FrProxy.RegistryCache
import FrProxy.RegistryCache.Directory
import FrProxy.RegistryCache.Purge
import FrProxy.RegistryCache.Znodes
import FrProxy.RegistryCache.Refresh
import FrProxy.RegistryCache.Stamps
import FrProxy.RegistryCache.Emptied
import FrProxy.RegistryCache.Backup
import FrProxy.SkipBuffer
import FrProxy.SkipBuffer.SingleFlight
import FrProxy.SkipBuffer.Wraparound
import FrProxy.LogSender
import FrProxy.LogSender.Delivery
import FrProxy.LogSender.Cap
import FrProxy.StateBag
import FrProxy.ClientPool
import FrProxy.ClientPool.System
import FrProxy.ClientPool.Containers
import FrProxy.ClientPool.Borrows
import FrProxy.ClientPool.Owners
import FrProxy.ClientPool.Limit
import FrProxy.ClientPool.Timed
import FrProxy.ClientPool.Turnover
import FrProxy.ClientPool.Eviction
import FrProxy.ClientPool.Opening
import FrProxy.ClientPool.SingleCaller
import FrProxy.ZkClient
import FrProxy.ZkClient.Trace
import FrProxy.ZkClient.Frames
import FrProxy.ZkClient.Tree
import FrProxy.ZkClient.InstanceData
import FrProxy.ZkClient.Invariants
import FrProxy.ZkClient.Nesting
import FrProxy.ZkClient.Flapping
import FrProxy.ZkClient.Endless
import FrProxy.ZkClient.Replay
import FrProxy.ZkClient.Reconnect
import FrProxy.ZkClient.Visits
import FrProxy.ZkClient.Growth
import FrProxy.Watcher
import FrProxy.Watcher.Rearm
import FrProxy.ZkClient.Foreign
import FrProxy.Watcher.Sessions
import FrProxy.Watcher.Expiry
import FrProxy.ZkClient.Recorded
import FrProxy.Watcher.Recreation
import FrProxy.ServerHandler
import FrProxy.ServerHandler.Trace
import FrProxy.ZkClient.PoolRuns
import FrProxy.ServerHandler.Losses
import FrProxy.Watcher.Histories
import FrProxy.ServerHandler.Convergence
import FrProxy.ServerHandler.Registration
import FrProxy.Rapidjson.Prefix
import FrProxy.RegistryCache.Interrupted
import FrProxy.ZkClient.Vanished
import FrProxy.ZkClient.AllServices
import FrProxy.ZkClient.Rebuilt
import FrProxy.RegistryProxy
import FrProxy.RegistryProxy.Answers
import FrProxy.ServerHandler.Tasks
import FrProxy.ServerHandler.Borrowing
import FrProxy.ServerHandler.Provenance
import FrProxy.ServerHandler.Runs
import FrProxy.ServerHandler.Lifetimes
import FrProxy.ServerHandler.Tracking
import FrProxy.ServerHandler.Stabilization
import FrProxy.ServerHandler.Outage
import FrProxy.TaskScheduler
import FrProxy.TaskScheduler.Passes
import FrProxy.Rapidjson.Grammar
import FrProxy.Rapidjson.Numbers
import FrProxy.Rapidjson.Documents
import FrProxy.LogSender.Shutdown
import FrProxy.ServerHandler.Serving
import FrProxy.ZkClient.Rereading
import FrProxy.ServerHandler.Watching
import FrProxy.ServerHandler.Notices
import FrProxy.ServerHandler.Routine
import FrProxy.ServerHandler.Watched
