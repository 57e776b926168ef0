import Norns.Types
import Norns.Lib.Run
import Norns.Lib.Program
import Norns.Lib.Mealy
import Norns.Lib.ThreadPool
import Norns.Lib.Table
import Norns.Lib.CircularBuffer
import Norns.Lib.BoostPath
import Norns.Lib.FileTree
import Norns.Lib.ByteOrder
import Norns.Lib.SharedMutex
import Norns.PathNormalize
import Norns.PosixFs
import Norns.LocalCopy
import Norns.CopyFile
import Norns.Resource
import Norns.TaskManager
import Norns.Request
import Norns.Urd
import Norns.Status
import Norns.Client
import Norns.Rpc
import Norns.RemoteTransfer
import Norns.TaskIds
import Norns.Response
import Norns.Submission
import Norns.Framing
import Norns.Command
import Norns.Session
import Norns.Locks
import Norns.Daemon
import Norns.Task
import Norns.GlobalStats
import Norns.Bandwidth
import Norns.Jobs
import Norns.Pool
import Norns.Binding
import Norns.TarExtract
import Norns.FileTransfer
import Norns.TempFile
import Norns.ByteCount
import Norns.Failures
import Norns.Config
import Norns.ClientConfig
import Norns.Lib.Loop
import Norns.CopyLoops
import Norns.RegionCleanup
import Norns.Effects
import Norns.Lib.TreeWalk
import Norns.DirectoryCopy
import Norns.Wait
import Norns.Lib.Rounding
import Norns.ParseSize
import Norns.Listener
import Norns.ControlApi
import Norns.PoolStop
import Norns.DryRun
import Norns.JobCalls
import Norns.MemoryPush
import Norns.Launch
import Norns.Namespaces
import Norns.TaskApi
