import FuseDrive.Dict
import FuseDrive.LockOrder

/-!
# The locks inside the program

Every component guards its tables with a lock of its own, and calls others with
the lock in its hands: `set_metadata` has the chunks of a file invalidated,
`truncate` downloads a file, the chunk manager submits its downloads.  The
functions below are what the functions of the program do with locks, with the
branches and the loops left open.  Logging and the standard library count as
work.
-/

namespace FuseDrive.Concurrency

open LockUse Transition

/-! ## The locks and their order -/

inductive Mutex where
  /-- `exclusive_lock(f"file_handle:{file_handle}")` -/
  | fileHandle (fd : Nat)
  /-- `exclusive_lock(f"chunk:{file_id}:{chunk_index}")` -/
  | chunk (fileId : Str) (chunkIndex : Nat)
  /-- `exclusive_lock("fake_A")` and `exclusive_lock("fake_B")` -/
  | fake (name : Char)
  /-- `FuseOps.fd_lock` -/
  | fdLock
  /-- `MemoryMetadataCache._lock` -/
  | cacheLock
  /-- `UploadManager.lock` -/
  | uploadLock
  | activeDownloadsLock
  | memCacheLock
  /-- `LockManager._global_lock` -/
  | globalLock
  /-- `MetricsRegistry._lock` -/
  | metricsLock
  /-- `GoogleDriveQuotaCircuitBreaker._lock` -/
  | breakerLock
deriving DecidableEq

namespace Mutex

/-- Who has a lock takes only locks of higher ranks. -/
def rank : Mutex → Nat
  | fileHandle _ | chunk _ _ | fake _ => 0
  | fdLock => 1
  | cacheLock | uploadLock | activeDownloadsLock => 2
  | memCacheLock => 3
  | globalLock => 4
  | metricsLock | breakerLock => 5

theorem rank_le (mutex : Mutex) : mutex.rank ≤ 5 := by
  unfold rank
  split <;> omega

/-- It is a `threading.RLock`. -/
def isReentrant : Mutex → Bool
  | cacheLock | uploadLock => true
  | fileHandle _ | chunk _ _ | fake _ | fdLock | activeDownloadsLock | memCacheLock
  | globalLock | metricsLock | breakerLock => false

end Mutex

/-! ## What each function does with locks -/

namespace Locks

abbrev Use := LockUse Mutex

namespace MetricsRegistry

def add : Use := .holding .metricsLock .work

def inc : Use := add

def set : Use := .holding .metricsLock .work

def get : Use := .holding .metricsLock .work

end MetricsRegistry

namespace GoogleDriveQuotaCircuitBreaker

/-- `__new__` -/
def new : Use := .holding .breakerLock .work

def trip : Use := .andThen new (.holding .breakerLock .work)

def isQuotaExceeded : Use := .andThen new (.holding .breakerLock .work)

end GoogleDriveQuotaCircuitBreaker

namespace LockManager

def getLock : Use := .holding .globalLock .work

def releaseRef : Use := .holding .globalLock .work

def hasLock : Use := .holding .globalLock .work

/-- An exclusive scope, or a `DeadlockError`.  What waits is `acquire_write`. -/
def exclusiveLock (key : Mutex) (body : Use) : Use :=
  inOrder [getLock, .holding .globalLock .work,
    .either (inOrder [MetricsRegistry.inc, releaseRef])
      (inOrder [.holding key (inOrder [MetricsRegistry.inc, .holding .globalLock .work, body,
        .holding .globalLock .work, MetricsRegistry.add]), .holding .globalLock .work, releaseRef])]

end LockManager

namespace RequestDispatcher

def submit : Use := inOrder [.work, MetricsRegistry.inc, .work]

/-- `shutdown(wait=True)` joins the workers of each pool. -/
def shutdown : Use := .repeatedly .await

end RequestDispatcher

/-- `_execute_with_retry`, whose `_is_retryable` may trip the breaker. -/
def executeWithRetry : Use := .repeatedly (.either GoogleDriveQuotaCircuitBreaker.trip .work)

namespace InMemoryChunkEvictionCache

def updateMetrics : Use := inOrder [MetricsRegistry.set, MetricsRegistry.set, MetricsRegistry.set]

def get : Use := optionally MetricsRegistry.inc

def evictIfNeeded : Use := .repeatedly (.andThen (optionally MetricsRegistry.inc) MetricsRegistry.inc)

def put : Use := .andThen evictIfNeeded updateMetrics

def invalidate : Use := optionally updateMetrics

end InMemoryChunkEvictionCache

/-- `ChunkManager.invalidate_file_chunks_cache`, also the `on_metadata_changed`
of the metadata cache. -/
def invalidateFileChunksCache : Use :=
  .andThen (.holding .memCacheLock (.repeatedly InMemoryChunkEvictionCache.invalidate)) .work

namespace MemoryMetadataCache

def resolvePathToNodeId : Use := .holding .cacheLock .work

def mapPathToNodeId : Use := .holding .cacheLock .work

def getMetadata : Use := .holding .cacheLock .work

def setMetadata : Use := .holding .cacheLock (optionally invalidateFileChunksCache)

def getChildrenPaths : Use := .holding .cacheLock .work

def invalidatePath : Use := .holding .cacheLock .work

def isDirectoryChildrenLoaded : Use := .holding .cacheLock .work

def markDirectoryChildrenLoaded : Use := .holding .cacheLock .work

end MemoryMetadataCache

namespace ChunkManager

def isVideoFileByExtension : Use := optionally MemoryMetadataCache.getMetadata

def readChunkFromDiskCache : Use := .andThen (optionally isVideoFileByExtension) .work

def writeChunkToDiskCache : Use := .andThen (optionally isVideoFileByExtension) .work

def getMemory : Use := .holding .memCacheLock InMemoryChunkEvictionCache.get

def putMemory : Use := .holding .memCacheLock InMemoryChunkEvictionCache.put

def downloadChunkFromDriveApi (fileId : Str) (chunkIndex : Nat) : Use :=
  optionally (LockManager.exclusiveLock (.chunk fileId chunkIndex)
    (.andThen getMemory (optionally (.andThen readChunkFromDiskCache (.either putMemory
      (inOrder [MetricsRegistry.inc, MetricsRegistry.inc, executeWithRetry, MetricsRegistry.add,
        putMemory, writeChunkToDiskCache]))))))

def removeFuture : Use := .holding .activeDownloadsLock .work

/-- `cancelled` is what the callbacks of a promoted prefetch do when its future
is cancelled, under the lock. -/
def scheduleOrGetChunkDownloadTask (cancelled : Use) : Use :=
  .andThen
    (.holding .activeDownloadsLock (.either
      (.andThen (optionally .work) MetricsRegistry.inc)
      (.andThen
        (optionally (inOrder [cancelled, MetricsRegistry.inc, RequestDispatcher.submit]))
        RequestDispatcher.submit)))
    (optionally removeFuture)

def prefetch (cancelled : Use) : Use :=
  .andThen LockManager.hasLock (optionally (.andThen (.holding .memCacheLock .work)
    (optionally (.andThen .work (optionally (scheduleOrGetChunkDownloadTask cancelled))))))

/-- `future.result()` waits for the download. -/
def readContentRangeWithCaching (cancelled : Use) : Use :=
  optionally (.andThen (optionally (.andThen (prefetch cancelled) (prefetch cancelled)))
    (.repeatedly (.andThen getMemory (.either
      (.andThen MetricsRegistry.inc MetricsRegistry.add)
      (.andThen readChunkFromDiskCache (.either
        (inOrder [MetricsRegistry.inc, MetricsRegistry.add, putMemory])
        (inOrder [MetricsRegistry.inc, scheduleOrGetChunkDownloadTask cancelled, .await])))))))

/-- What a worker of a pool does with a download, and then with its future. -/
def downloadTask (fileId : Str) (chunkIndex : Nat) : Use :=
  .andThen (downloadChunkFromDriveApi fileId chunkIndex) (optionally removeFuture)

end ChunkManager

namespace UploadManager

def persistUploadQueueToDisk : Use := .holding .uploadLock (.andThen .work (optionally MetricsRegistry.set))

def loadUploadQueueFromDisk : Use := .holding .uploadLock (.andThen .work MetricsRegistry.set)

def enqueueFileForUpload : Use :=
  .andThen (.holding .uploadLock (.andThen .work persistUploadQueueToDisk)) RequestDispatcher.submit

def processQueue : Use := .holding .uploadLock (.repeatedly (optionally RequestDispatcher.submit))

def getPendingPath : Use := .holding .uploadLock .work

def removeJob : Use := .holding .uploadLock (.andThen .work persistUploadQueueToDisk)

def handleFailure : Use :=
  .holding .uploadLock (optionally (.andThen MetricsRegistry.inc (.either
    (.andThen MetricsRegistry.inc persistUploadQueueToDisk)
    (.andThen persistUploadQueueToDisk .work))))

def executePendingUploadJob : Use :=
  .andThen (.holding .uploadLock .work) (optionally (.either removeJob
    (.andThen executeWithRetry (.either
      (.andThen MetricsRegistry.inc removeJob)
      (.andThen (optionally GoogleDriveQuotaCircuitBreaker.trip) handleFailure)))))

def recoverJournal : Use := .repeatedly (optionally enqueueFileForUpload)

/-- `__init__` -/
def new : Use :=
  inOrder [MetricsRegistry.set, MetricsRegistry.set, MetricsRegistry.set, loadUploadQueueFromDisk,
    recoverJournal, optionally processQueue]

end UploadManager

namespace StatsVFS

def getattr : Use := optionally MetricsRegistry.get

/-- A read of `trigger_deadlock` joins two threads. -/
def read : Use := optionally (.either .await MetricsRegistry.get)

/-- What these two do, each with the keys the other way round. -/
def triggerDeadlock (first second : Char) : Use :=
  LockManager.exclusiveLock (.fake first) (LockManager.exclusiveLock (.fake second) .work)

end StatsVFS

namespace FuseOps

def loadChildren : Use :=
  .andThen MemoryMetadataCache.isDirectoryChildrenLoaded (optionally (inOrder
    [MetricsRegistry.inc, executeWithRetry,
      .repeatedly (.andThen MemoryMetadataCache.mapPathToNodeId MemoryMetadataCache.setMetadata),
      MemoryMetadataCache.markDirectoryChildrenLoaded]))

/-- Up to an ancestor that is known, and down again. -/
def resolvePathToDriveNodeId : Use :=
  .andThen (.repeatedly (.andThen MemoryMetadataCache.resolvePathToNodeId MetricsRegistry.inc))
    (.repeatedly (inOrder [MemoryMetadataCache.isDirectoryChildrenLoaded, optionally loadChildren,
      MemoryMetadataCache.resolvePathToNodeId]))

def getattr : Use :=
  .either StatsVFS.getattr (optionally (inOrder [resolvePathToDriveNodeId, MemoryMetadataCache.getMetadata,
    optionally (.either MemoryMetadataCache.setMetadata
      (.andThen MetricsRegistry.inc (optionally MemoryMetadataCache.setMetadata)))]))

def readdir : Use :=
  optionally (inOrder [resolvePathToDriveNodeId, loadChildren, MemoryMetadataCache.getChildrenPaths])

def openFile : Use :=
  optionally (.either (.andThen .work (.holding .fdLock .work))
    (.andThen MemoryMetadataCache.resolvePathToNodeId (.holding .fdLock .work)))

def ensureDownloaded : Use :=
  optionally (.andThen MemoryMetadataCache.getMetadata (.andThen
    (optionally (.andThen UploadManager.getPendingPath (optionally executeWithRetry))) .work))

def read (fd : Nat) : Use :=
  .either StatsVFS.read (.andThen (.holding .fdLock .work) (.either
    (.andThen .work MetricsRegistry.add)
    (.either
      (LockManager.exclusiveLock (.fileHandle fd)
        (inOrder [ensureDownloaded, .work, MetricsRegistry.add]))
      (.andThen UploadManager.getPendingPath (.either
        (inOrder [MetricsRegistry.inc, .work, MetricsRegistry.add])
        (inOrder [MemoryMetadataCache.getMetadata,
          ChunkManager.readContentRangeWithCaching .work, MetricsRegistry.add]))))))

def write (fd : Nat) : Use :=
  .andThen (.holding .fdLock .work) (.either
    (.andThen .work MetricsRegistry.add)
    (LockManager.exclusiveLock (.fileHandle fd)
      (inOrder [ensureDownloaded, .work, MetricsRegistry.add])))

def release : Use :=
  .andThen (.holding .fdLock .work) (optionally (.andThen .work (optionally (.either
    UploadManager.enqueueFileForUpload
    (inOrder [optionally (.andThen MemoryMetadataCache.getMetadata
        (optionally MemoryMetadataCache.setMetadata)),
      UploadManager.enqueueFileForUpload, invalidateFileChunksCache])))))

def create : Use :=
  .either (.andThen .work (.holding .fdLock .work))
    (inOrder [GoogleDriveQuotaCircuitBreaker.isQuotaExceeded, resolvePathToDriveNodeId,
      MemoryMetadataCache.mapPathToNodeId, MemoryMetadataCache.setMetadata, .holding .fdLock .work])

def truncate : Use :=
  optionally (.andThen resolvePathToDriveNodeId
    (.holding .fdLock (optionally (.andThen ensureDownloaded .work))))

def mkdir : Use :=
  inOrder [GoogleDriveQuotaCircuitBreaker.isQuotaExceeded, resolvePathToDriveNodeId,
    executeWithRetry, MemoryMetadataCache.mapPathToNodeId, MemoryMetadataCache.setMetadata]

def unlink : Use :=
  optionally (inOrder [GoogleDriveQuotaCircuitBreaker.isQuotaExceeded, resolvePathToDriveNodeId,
    executeWithRetry, MemoryMetadataCache.invalidatePath])

/-- Over a Drive file the local-only file is uploaded; otherwise Drive renames,
also after the local branch has found no Drive file. -/
def rename : Use :=
  optionally (.either
    (inOrder [resolvePathToDriveNodeId, .work, UploadManager.enqueueFileForUpload,
      invalidateFileChunksCache, optionally (.andThen MemoryMetadataCache.getMetadata
        (optionally MemoryMetadataCache.setMetadata)), unlink, MemoryMetadataCache.invalidatePath])
    (inOrder [optionally resolvePathToDriveNodeId, GoogleDriveQuotaCircuitBreaker.isQuotaExceeded,
      resolvePathToDriveNodeId, resolvePathToDriveNodeId,
      optionally (.andThen resolvePathToDriveNodeId executeWithRetry),
      MemoryMetadataCache.invalidatePath, MemoryMetadataCache.invalidatePath]))

def rmdir : Use :=
  inOrder [resolvePathToDriveNodeId, executeWithRetry, MemoryMetadataCache.invalidatePath]

end FuseOps

end Locks

/-! ## What the threads run -/

/-- The calls of FUSE, the jobs of the pools, and what the program itself does,
but for the two threads that a read of `trigger_deadlock` starts. -/
inductive Activity where
  | getattr
  | readdir
  | openFile
  | read (fd : Nat)
  | write (fd : Nat)
  | release
  | create
  | truncate
  | mkdir
  | rename
  | unlink
  | rmdir
  | downloadTask (fileId : Str) (chunkIndex : Nat)
  | executePendingUploadJob
  /-- The retry that a timer starts. -/
  | retry
  | newUploadManager
  | shutdown
deriving DecidableEq

namespace Activity

def locks : Activity → LockUse Mutex
  | getattr => Locks.FuseOps.getattr
  | readdir => Locks.FuseOps.readdir
  | openFile => Locks.FuseOps.openFile
  | read fd => Locks.FuseOps.read fd
  | write fd => Locks.FuseOps.write fd
  | release => Locks.FuseOps.release
  | create => Locks.FuseOps.create
  | truncate => Locks.FuseOps.truncate
  | mkdir => Locks.FuseOps.mkdir
  | rename => Locks.FuseOps.rename
  | unlink => Locks.FuseOps.unlink
  | rmdir => Locks.FuseOps.rmdir
  | downloadTask fileId chunkIndex => Locks.ChunkManager.downloadTask fileId chunkIndex
  | executePendingUploadJob => Locks.UploadManager.executePendingUploadJob
  | retry => Locks.RequestDispatcher.submit
  | newUploadManager => Locks.UploadManager.new
  | shutdown => Locks.RequestDispatcher.shutdown

theorem ordered (activity : Activity) :
    activity.locks.Ordered Mutex.rank Mutex.isReentrant [] := by
  cases activity <;> exact of_decide_eq_true rfl

end Activity

/-- A promoted prefetch whose callback is registered takes the lock in its
promoter's hands. -/
example : ¬ (Locks.ChunkManager.scheduleOrGetChunkDownloadTask
    Locks.ChunkManager.removeFuture).Ordered Mutex.rank Mutex.isReentrant [] := by
  decide

/-- The threads that a read of `trigger_deadlock` joins take two keys of one
rank. -/
example : ¬ (Locks.StatsVFS.triggerDeadlock 'A' 'B').Ordered Mutex.rank Mutex.isReentrant [] := by
  decide

section Activities

variable {τ : Type} [DecidableEq τ]

/-- Threads that go through activities one after another. -/
abbrev busy (activities : τ → List Activity) : Threads τ Mutex :=
  .start fun thread => (activities thread).map Activity.locks

/-- The locks inside the program keep nobody waiting for good.  Whoever is not
finished waits, through a chain of owners, for a thread that has a turn, nobody
waits for a download or for a pool with a lock in its hands, and at the end all
locks are free. -/
theorem activities_go_on {activities : τ → List Activity} {state : Threads τ Mutex}
    (reached : Reaches (Threads.step Mutex.isReentrant) (fun _ _ => True) (busy activities)
      state) :
    (∀ thread, (state.threads thread).tasks ≠ [] →
      ∃ runner, Relation.ReflTransGen (state.WaitsFor Mutex.isReentrant) thread runner ∧
        ∃ turn next, state.step Mutex.isReentrant (runner, turn) = some next) ∧
      (∀ mutex thread, state.owners mutex = some thread → ¬ (state.threads thread).Awaits) ∧
      ((∀ thread, (state.threads thread).tasks = []) → ∀ mutex, state.owners mutex = none) := by
  obtain ⟨sound, runners⟩ := exists_runner_of_reaches
    (fun thread program member => by
      obtain ⟨activity, -, rfl⟩ := List.mem_map.mp member
      exact activity.ordered)
    Mutex.rank_le reached
  refine ⟨runners, fun mutex thread owned => sound.not_awaits owned, ?_⟩
  intro finished mutex
  cases owned : state.owners mutex with
  | none => rfl
  | some thread =>
      have isHeld := (sound.owners mutex thread).mp owned
      rw [finished thread] at isHeld
      cases isHeld

/-- A truncation and a write. -/
def truncateAndWrite : Nat → List Activity
  | 0 => [.truncate]
  | 1 => [.write 1000]
  | _ => []

/-- The truncation has `fd_lock` and the write asks for it. -/
def truncateFirst : List (Nat × Turn) :=
  [(0, .first), (0, .proceed), (0, .proceed), (0, .second), (0, .second), (0, .proceed),
    (1, .proceed)]

theorem activities_go_on_truncateAndWrite :
    ∃ state, run (Threads.step Mutex.isReentrant) (busy truncateAndWrite) truncateFirst =
        some state ∧
      state.owners .fdLock = some 0 ∧
      state.step Mutex.isReentrant (1, .proceed) = none ∧
      (∀ thread, (state.threads thread).tasks ≠ [] →
        ∃ runner, Relation.ReflTransGen (state.WaitsFor Mutex.isReentrant) thread runner ∧
          ∃ turn next, state.step Mutex.isReentrant (runner, turn) = some next) ∧
      (∀ mutex thread, state.owners mutex = some thread → ¬ (state.threads thread).Awaits) ∧
      ((∀ thread, (state.threads thread).tasks = []) → ∀ mutex, state.owners mutex = none) := by
  obtain ⟨state, executed⟩ := Option.isSome_iff_exists.mp
    (show (run (Threads.step Mutex.isReentrant) (busy truncateAndWrite) truncateFirst).isSome
      from rfl)
  have refused := look_of_run executed
    (fun state => (state.step Mutex.isReentrant (1, .proceed)).isNone) rfl
  exact ⟨state, executed, look_of_run executed (·.owners .fdLock) rfl,
    Option.isNone_iff_eq_none.mp refused, activities_go_on (Reaches.of_free_run executed)⟩

end Activities

end FuseDrive.Concurrency
