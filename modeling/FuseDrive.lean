import FuseDrive.Workload
import FuseDrive.WorkerPool
import FuseDrive.LockOrder
import FuseDrive.Exchange
import FuseDrive.Lockstep
import FuseDrive.FileStore
import FuseDrive.Concurrency.Dispatcher
import FuseDrive.Concurrency.Scripts
import FuseDrive.Concurrency.Wakeups
import FuseDrive.Concurrency.InternalLocks
import FuseDrive.Cache.ChunkRequests
import FuseDrive.Cache.ReadAhead
import FuseDrive.Fuse.LocalFiles
import FuseDrive.Fuse.TempFiles
import FuseDrive.Fuse.LostAnswers
import FuseDrive.Cache.PooledReads
import FuseDrive.JournalNames
import FuseDrive.Transition
import FuseDrive.Upload.OwnFate
import FuseDrive.Upload.SingleUpload
import FuseDrive.Upload.EnqueueStops
import FuseDrive.Upload.Tended
import FuseDrive.Upload.Drain
import FuseDrive.Upload.RetryBudget
import FuseDrive.Upload.QueueText
import FuseDrive.Fuse.Handles
import FuseDrive.Cache.RangeRead
import FuseDrive.Cache.Invalidation
import FuseDrive.Cache.SingleDownload
import FuseDrive.Concurrency.ExclusiveScopes
import FuseDrive.Cache.Coherence
import FuseDrive.Cache.CoherentReads
import FuseDrive.Fuse.Journal
import FuseDrive.Fuse.JournalRecovery
import FuseDrive.Fuse.Renaming
import FuseDrive.Fuse.Truncation
import FuseDrive.Fuse.TreeWalk
import FuseDrive.Fuse.Ghosts
import FuseDrive.Fuse.FailedCalls
import FuseDrive.Fuse.SharedHandle
import FuseDrive.Fuse.JournalHolders
import FuseDrive.Fuse.Deletion
import FuseDrive.Fuse.Delivery
import FuseDrive.Cache.PrefetchFates
import FuseDrive.Fuse.DeleteErrors
import FuseDrive.Concurrency.Residue
import FuseDrive.Fuse.DirectoryLoad
import FuseDrive.Fuse.StatsRouting
import FuseDrive.Cache.ReaderFutures
import FuseDrive.Cache.DiskAccess
import FuseDrive.Cache.DiskFaults
import FuseDrive.Fuse.SavedContents
import FuseDrive.Concurrency.LockCondition
import FuseDrive.Fuse.SwapNames
