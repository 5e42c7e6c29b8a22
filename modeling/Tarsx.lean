import Tarsx.Buffer
import Tarsx.Foundation.Run
import Tarsx.BufferSpec
import Tarsx.BufferQueue
import Tarsx.Connection
import Tarsx.ConnectionFrames
import Tarsx.ConnectionDelivery
import Tarsx.ConnectionSafety
import Tarsx.Foundation.Cuts
import Tarsx.Transceiver
import Tarsx.TransceiverStream
import Tarsx.ResponseLoop
import Tarsx.Responses
import Tarsx.TimeoutQueue
import Tarsx.ObjectProxy
import Tarsx.RequestOrder
import Tarsx.NetThread
import Tarsx.AcceptLoop
import Tarsx.NetThreadEffects
import Tarsx.ConnectionClose
import Tarsx.NetThreadUids
import Tarsx.NetThreadPointers
import Tarsx.Foundation.CircularWindow
import Tarsx.LoopQueue
import Tarsx.Communicator
import Tarsx.CommunicatorWakeups
import Tarsx.CoroutineScheduler
import Tarsx.SchedulerLists
import Tarsx.SchedulerInvariant
import Tarsx.SchedulerRuns
import Tarsx.SchedulerGrowth
import Tarsx.Foundation.BoundedFifo
import Tarsx.LoopQueueFifo
import Tarsx.LoopQueueConcurrent
import Tarsx.Foundation.DueOrder
import Tarsx.TimeoutQueueTable
import Tarsx.TimeoutQueueRuns
import Tarsx.RequestLedger
import Tarsx.CorrelationId
import Tarsx.Foundation.Interning
import Tarsx.ObjectProxyFactory
import Tarsx.ClientConnection
import Tarsx.PendingWrites
import Tarsx.ConnectionResponses
import Tarsx.ServantHandle
import Tarsx.NetThreadSockets
import Tarsx.RequestOrigins
import Tarsx.RequestDelivery
import Tarsx.Monitor
import Tarsx.MonitorPeriods
import Tarsx.SyncCall
import Tarsx.Registry
import Tarsx.RegisterFields
import Tarsx.Dispatch
import Tarsx.ServantManager
import Tarsx.Foundation.PartialInverse
import Tarsx.AdapterBindings
import Tarsx.ConnectionFlush
import Tarsx.SendBatches
import Tarsx.ClientCall
import Tarsx.EpollServer
import Tarsx.SleepEntries
import Tarsx.TimedWakeups
import Tarsx.HandleBatches
import Tarsx.HandledRequests
import Tarsx.Condition
import Tarsx.ThreadDeque
import Tarsx.ThreadDequeWaits
import Tarsx.AsyncProcThread
import Tarsx.SchedulerThreads
import Tarsx.SchedulerWakeups
import Tarsx.Foundation.ServedInOrder
import Tarsx.SchedulerTurns
import Tarsx.SchedulerOrder
import Tarsx.Foundation.ByteMemory
import Tarsx.Foundation.Processor
import Tarsx.FContext
import Tarsx.ContextSwitch
import Tarsx.Foundation.Switching
import Tarsx.SchedulerSwitches
import Tarsx.CoroutineThread
import Tarsx.Foundation.Tally
import Tarsx.SchedulerPasses
import Tarsx.SchedulerReturns
