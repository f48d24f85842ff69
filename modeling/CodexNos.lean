import CodexNos.Scheduler.TimerHeap
import CodexNos.Scheduler.FdTable
import CodexNos.Lib.BoundedMap
import CodexNos.Lib.LastWins
import CodexNos.Kv.Refinement
import CodexNos.Kv.Interleaving
import CodexNos.Kv.SlotAllocation
import CodexNos.Ipc.LinkOrder
import CodexNos.Ipc.LinkDrain
import CodexNos.Ipc.EdgeTriggered
import CodexNos.Log.RingOrder
import CodexNos.Node.Lifecycle
import CodexNos.Node.LifecycleSafety
import CodexNos.Scheduler.RunLoop
import CodexNos.Scheduler.Wakeup
import CodexNos.Scheduler.Registration
import CodexNos.Memory.Pool
import CodexNos.Memory.PoolInvariant
import CodexNos.Ipc.Connection
import CodexNos.Ipc.TxOrder
import CodexNos.Ipc.ReplyLifetime
import CodexNos.Ipc.ConnPool
import CodexNos.Ipc.ShmOrder
import CodexNos.Messaging.Layer
import CodexNos.Messaging.Conservation
import CodexNos.Messaging.Replies
import CodexNos.Messaging.Arrivals
import CodexNos.Messaging.Correlation
import CodexNos.Lib.SwapRemove
import CodexNos.Node.Bookkeeping
import CodexNos.Node.Registrations
import CodexNos.Node.Soundness
import CodexNos.Node.Startup
import CodexNos.Node.BookkeepingSafety
import CodexNos.Scheduler.Firing
import CodexNos.Scheduler.Membership
import CodexNos.Scheduler.StopEffect
import CodexNos.Ipc.Incarnations
import CodexNos.Log.Accounting
import CodexNos.Log.Refinement
import CodexNos.Kv.InformationFlow
import CodexNos.Lib.RawMemory
import CodexNos.Messaging.Envelope
import CodexNos.Ipc.Receive
import CodexNos.Ipc.Transports
import CodexNos.Messaging.Senders
import CodexNos.Node.Instances
import CodexNos.Node.Courses
import CodexNos.Node.Tracking
import CodexNos.Node.CallbackOrder
import CodexNos.Config.Accepted
import CodexNos.Lib.CString
import CodexNos.Lib.Sentinel
import CodexNos.Config.Resolve
import CodexNos.Config.Manifest
import CodexNos.Config.RoundTrip
import CodexNos.Memory.Geometry
import CodexNos.Messaging.ThreadQueue
import CodexNos.Messaging.Purging
import CodexNos.Node.ServiceRegistry
import CodexNos.Scheduler.PurgeWakeup
import CodexNos.Kv.Callbacks
import CodexNos.Manager.Processes
import CodexNos.Manager.Tracking
import CodexNos.Config.Fallback
import CodexNos.Config.InputOrder
import CodexNos.Config.Layout
import CodexNos.Node.Bringup
import CodexNos.Memory.BestFit
import CodexNos.Scheduler.Cancelling
import CodexNos.Scheduler.Expiry
import CodexNos.Kv.Creation
import CodexNos.Kv.Subscriptions
import CodexNos.Ipc.Backoff
import CodexNos.Ipc.Packets
import CodexNos.Config.Placement
import CodexNos.Config.Reading
import CodexNos.Config.Deployment
import CodexNos.Config.PlainRouting
import CodexNos.Lib.CStr
import CodexNos.Lib.Interning
import CodexNos.Kv.Tables
import CodexNos.Scheduler.FdInterest
import CodexNos.Config.Acceptance
import CodexNos.Config.Macros
import CodexNos.Ipc.ShmNames
import CodexNos.Ipc.Traffic
import CodexNos.Components.Handlers
import CodexNos.Components.Balance
import CodexNos.Components.Runs
import CodexNos.Cli.History
import CodexNos.Cli.Completion
import CodexNos.Cli.LineEditor
import CodexNos.Lib.Mixing
import CodexNos.Cli.Script
import CodexNos.Components.Desk
import CodexNos.Components.Persistence
import CodexNos.Components.Quiescence
import CodexNos.Kv.Hash
import CodexNos.Kv.Pointers
import CodexNos.Kv.EngineRuns
