import Runite.Lib.Transition
import Runite.Lib.Counting
import Runite.Lib.Marking
import Runite.Lib.Table
import Runite.Lib.Terminator
import Runite.Lib.Polling
import Runite.Lib.Program
import Runite.Lib.IndexedHeap
import Runite.Lib.IndexedHeapSpec
import Runite.Lib.RingBuffer
import Runite.Lib.WaitQueue
import Runite.Lib.HandOff
import Runite.Lib.SequentialCursor
import Runite.Task
import Runite.Sync.RwLock
import Runite.Sync.Cancellation
import Runite.Sync.CancellationTree
import Runite.Sync.RwLockExclusion
import Runite.Sync.RwLockProgress
import Runite.Sync.RwLockAccounting
import Runite.Sync.CancellationWaiters
import Runite.Sync.Mutex
import Runite.Sync.Semaphore
import Runite.Sync.Notify
import Runite.Sync.OnceCell
import Runite.Io.Operation
import Runite.Io.WriteState
import Runite.Io.ReadState
import Runite.Io.ReadIntegrity
import Runite.Io.Traits
import Runite.Io.BufReader
import Runite.Io.BufReaderStream
import Runite.Io.Lines
import Runite.Io.ReadLine
import Runite.Io.BufWriter
import Runite.Io.BufWriterStream
import Runite.Io.Recorded
import Runite.Io.Copy
import Runite.Io.CopyStreams
import Runite.Lib.Chronicle
import Runite.Io.Compat
import Runite.Io.CompatTrace
import Runite.Io.CompatWrites
import Runite.Io.CompatSession
import Runite.Io.Cursor
import Runite.Io.WriteCases
import Runite.Io.WriteRuns
import Runite.Io.WriteCredit
import Runite.Io.WriteErrors
import Runite.Io.WriteOnce
import Runite.Io.WriteWakes
import Runite.Io.WriteHistory
import Runite.Io.WriteOrder
import Runite.Io.Writers
import Runite.Io.CloseErrors
import Runite.Io.SoleWriter
import Runite.Channel.Mpsc
import Runite.Channel.MpscSystem
import Runite.Channel.MpscWaiters
import Runite.Channel.MpscHandles
import Runite.Channel.MpscParked
import Runite.Channel.MpscDelivery
import Runite.Channel.Oneshot
import Runite.Channel.Watch
import Runite.Channel.WatchUpdates
import Runite.Channel.WatchParked
import Runite.Channel.Broadcast
import Runite.Channel.BroadcastAccounting
import Runite.Op.Completion
import Runite.Op.CompletionProtocol
import Runite.Op.CompletionProgress
import Runite.Runtime.ThreadShared
import Runite.Runtime.RemoteQueue
import Runite.Runtime.RunLoop
import Runite.Runtime.IdleCommit
import Runite.Runtime.Notifications
import Runite.Runtime.FutureTask
import Runite.Runtime.TaskLifecycle
import Runite.Runtime.TaskOutcome
import Runite.Runtime.TaskWaker
import Runite.Runtime.TimerHeap
import Runite.Runtime.Timers
import Runite.Runtime.TimerContract
import Runite.Runtime.TimerCallbacks
import Runite.Runtime.TimerMap
import Runite.Linux.Token
import Runite.Linux.DriverTimer
import Runite.Linux.TimerCoverage
import Runite.Linux.Uring
import Runite.Linux.UringSubmission
import Runite.Linux.UringLedger
import Runite.Linux.UringStaging
import Runite.Linux.UringCompletion
import Runite.Linux.Driver
import Runite.Linux.Transfer
import Runite.Sys.Blocking
import Runite.Sys.BlockingOutcomes
import Runite.Sys.BlockingProgress
import Runite.Stdio.StdinReader
import Runite.Stdio.ReaderProtocol
import Runite.Stdio.Stdin
import Runite.Stdio.StdinLines
import Runite.Tls.Stream
import Runite.Tls.Stable
import Runite.Tls.Session
import Runite.Tls.Records
import Runite.Tls.Socket
import Runite.Tls.Parts
import Runite.Fs.File
import Runite.Fs.FileWrites
import Runite.Fs.FileCursor
import Runite.Fs.FileRewind
import Runite.Fs.Positioned
import Runite.Fs.ReadDir
import Runite.Fs.ReadDirCases
import Runite.Fs.ReadDirControl
import Runite.Fs.ReadDirOrder
import Runite.Fs.ReadDirStream
import Runite.Net.StreamShutdown
import Runite.Net.HyperStream
import Runite.Net.HyperCalls
import Runite.Net.HyperWrites
import Runite.Lib.Sequence
import Runite.Lib.SwapRemove
import Runite.Lib.RoundRobin
import Runite.Macros.Pattern
import Runite.Macros.Alternatives
import Runite.Macros.Select
import Runite.Macros.SelectPoll
import Runite.Macros.SelectRounds
import Runite.Signal.Unix
import Runite.Signal.Registry
import Runite.Time.Duration
import Runite.Time.Interval
import Runite.Time.KernelTimeout
import Runite.Runtime.TaskSteps
import Runite.Runtime.JoinSet
import Runite.Runtime.JoinSetOutcomes
import Runite.Runtime.WorkerJoin
import Runite.Runtime.WorkerJoinWakes
import Runite.Lib.Stuttering
import Runite.Runtime.EventLoops
import Runite.Runtime.EventLoopOrder
import Runite.Macos.Waiters
import Runite.Macos.Driver
import Runite.Macos.Readiness
import Runite.Io.Ext
import Runite.Io.ExtStreams
import Runite.Runtime.TimeoutPlace
import Runite.Time.Sleep
import Runite.Time.SleepContract
import Runite.Time.SleepProgress
import Runite.Signal.RegistryCalls
import Runite.Signal.Deliveries
import Runite.Signal.DeliverySteps
import Runite.Signal.SignalRuns
import Runite.Signal.Windows
import Runite.Signal.WindowsWakes
import Runite.Signal.WindowsReports
import Runite.Signal.WindowsEvents
import Runite.Signal.WindowsRuns
import Runite.Linux.DriverOperations
import Runite.Linux.DriverRuns
