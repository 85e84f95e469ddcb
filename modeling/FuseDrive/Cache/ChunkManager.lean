import FuseDrive.ByteFile
import FuseDrive.Cache.ChunkEviction
import FuseDrive.Transition

/-!
# The chunk manager

`ChunkManager` serves a range of a file from chunks, which it takes from the
memory cache, from the disk cache or from a download task.  This module models
it as a transition system of readers (one for each
`read_content_range_with_caching` call), download tasks (one for each future of
the dispatcher), invalidations and the content of Drive.  A step of a reader
or of a task is what its thread does between two points at which another
thread can intervene; whatever runs under `mem_cache_lock` or
`active_downloads_lock` is one step.

The bytes are never looked at, so they are a parameter `β`.
-/

namespace FuseDrive.Cache

abbrev ChunkKey := Str × Nat

/-- The settings of `ChunkManager.__init__` apart from the memory limits. -/
structure Config where
  chunkSize : Nat
  chunkSize_pos : 0 < chunkSize
  disableDiskCache : Bool

/-- The arguments of `read_content_range_with_caching`. -/
structure ReadCall where
  fileId : Str
  offset : Nat
  length : Nat
  total : Nat
deriving DecidableEq

/-- How an access to the disk cache ends: as it should, with an exception that
`write_chunk_to_disk_cache` catches, or with one it does not. -/
inductive DiskOutcome where
  | success
  | caught
  | raised
deriving DecidableEq

/-- What the surroundings answer to a step: `is_video_file_by_extension`, the
storage and the disk. -/
structure Weather where
  isVideo : Bool
  storageFails : Bool
  disk : DiskOutcome
deriving DecidableEq

/-- Program points of `download_chunk_from_drive_api` and its future.  An
outcome is `none` when the task raised. -/
inductive TaskPoint (β : Type) where
  /-- In the work queue of the pool, where it can be cancelled. -/
  | queued
  | cancelled
  | started
  /-- In `exclusive_lock`, holding a reference to the lock. -/
  | waiting
  | lookMemory
  | lookDisk
  | diskHit (data : List β)
  | request
  | requested
  | fetched (data : List β)
  | stored (data : List β)
  /-- About to leave `exclusive_lock`. -/
  | leaving (outcome : Option (List β))
  | returning (outcome : Option (List β))
  /-- The future has its result. -/
  | done (outcome : Option (List β))

/-- A future and the done-callbacks it has still to run. -/
structure Task (β : Type) where
  fileId : Str
  chunk : Nat
  total : Nat
  isPrefetch : Bool
  point : TaskPoint β
  callbacks : Nat

/-- Program points of `_prefetch`. -/
inductive PrefetchPoint where
  | hasLock
  | memory
  | disk
  | schedule
  | register (task : Nat)
deriving DecidableEq

/-- The next check of `_prefetch`, or the scheduling after the last one. -/
def PrefetchPoint.successor : PrefetchPoint → Option PrefetchPoint
  | .hasLock => some .memory
  | .memory => some .disk
  | .disk => some .schedule
  | .schedule | .register _ => none

/-- Program points of `read_content_range_with_caching`.  `todo` are the
chunks after the current one and `result` the bytes collected so far. -/
inductive ReaderPoint (β : Type) where
  | prefetch (chunk : Nat) (later : List Nat) (point : PrefetchPoint)
  | remember
  | lookMemory (todo : List Nat) (result : List β)
  | lookDisk (chunk : Nat) (todo : List Nat) (result : List β)
  | putMemory (chunk : Nat) (todo : List Nat) (result data : List β)
  | schedule (chunk : Nat) (todo : List Nat) (result : List β)
  | register (chunk : Nat) (todo : List Nat) (result : List β) (task : Nat)
  | await (chunk : Nat) (todo : List Nat) (result : List β) (task : Nat)
  | finished (result : List β)
  | failed
  /-- Waiting for `active_downloads_lock` while holding it. -/
  | frozen

structure Reader (β : Type) where
  call : ReadCall
  point : ReaderPoint β

/-- Program points of `invalidate_file_chunks_cache`. -/
inductive Invalidation where
  | idle
  | cleared (fileId : Str)
  | removing (fileId : Str) (chunks : List Nat)
deriving DecidableEq

/-- A range the storage was asked for, both ends included. -/
structure Request where
  fileId : Str
  first : Nat
  last : Nat
deriving DecidableEq

structure State (β : Type) where
  memory : InMemoryChunkEvictionCache ChunkKey β
  disk : Dict ChunkKey (List β)
  tasks : List (Task β)
  active : Dict ChunkKey (Nat × Bool)
  activeLocked : Bool
  recent : Dict Str (List Int)
  readers : Nat → Option (Reader β)
  invalidations : Nat → Invalidation
  drive : Str → List β
  requests : List Request

variable {β : Type}

def Task.key (task : Task β) : ChunkKey := (task.fileId, task.chunk)

/-- The task is inside `exclusive_lock`. -/
def TaskPoint.holdsLock : TaskPoint β → Bool
  | .lookMemory | .lookDisk | .diskHit _ | .request | .requested | .fetched _
  | .stored _ | .leaving _ => true
  | .queued | .cancelled | .started | .waiting | .returning _ | .done _ => false

/-- The task keeps the lock of its chunk in `LockManager`. -/
def TaskPoint.refersLock : TaskPoint β → Bool
  | .waiting => true
  | point => point.holdsLock

/-! ## Arithmetic of chunks -/

namespace Config

def chunkStart (config : Config) (chunk : Nat) : Nat := chunk * config.chunkSize

/-- The last byte of a chunk of a file of `total` bytes. -/
def chunkEnd (config : Config) (chunk total : Nat) : Nat :=
  min (config.chunkStart chunk + config.chunkSize - 1) (total - 1)

def startChunk (config : Config) (call : ReadCall) : Nat :=
  call.offset / config.chunkSize

/-- `(offset + length - 1) // chunk_size`, which is -1 for an empty range at
the beginning of the file. -/
def endChunk (config : Config) (call : ReadCall) : Int :=
  ((call.offset + call.length : Nat) - 1 : Int) / config.chunkSize

/-- `range(start_chunk, end_chunk + 1)`. -/
def chunks (config : Config) (call : ReadCall) : List Nat :=
  List.range' (config.startChunk call)
    (config.endChunk call + 1 - config.startChunk call).toNat

/-- The part of a chunk that belongs to the range. -/
def piece (config : Config) (call : ReadCall) (chunk : Nat) (data : List β) : List β :=
  let relStart := call.offset - config.chunkStart chunk
  let relEnd := min config.chunkSize (call.offset + call.length - config.chunkStart chunk)
  slice data relStart (relEnd - relStart)

end Config

/-! ## Shared state -/

namespace State

def setTask (state : State β) (index : Nat) (task : Task β) : State β :=
  { state with tasks := state.tasks.set index task }

def setReader (state : State β) (index : Nat) (reader : Reader β) : State β :=
  { state with readers := Function.update state.readers index (some reader) }

def setInvalidation (state : State β) (index : Nat) (point : Invalidation) : State β :=
  { state with invalidations := Function.update state.invalidations index point }

/-- `LockManager.has_lock` of a chunk. -/
def hasLock (state : State β) (key : ChunkKey) : Bool :=
  state.tasks.any fun task => task.key = key && task.point.refersLock

/-- No task holds the lock of a chunk. -/
def lockFree (state : State β) (key : ChunkKey) : Bool :=
  state.tasks.all fun task => !(task.key = key && task.point.holdsLock)

/-- The memory cache after looking for a chunk. -/
def touch (state : State β) (key : ChunkKey) : State β :=
  { state with memory := (state.memory.get key).2 }

def putMemory (state : State β) (key : ChunkKey) (data : List β) (isPrefetch : Bool) :
    State β :=
  { state with memory := state.memory.put key data isPrefetch }

/-- The disk cache is switched off for the file. -/
def diskOff (config : Config) (weather : Weather) : Bool :=
  config.disableDiskCache && !weather.isVideo

/-- An access to the disk cache raises. -/
def diskRaises (config : Config) (weather : Weather) : Bool :=
  !diskOff config weather && weather.disk = .raised

/-- `read_chunk_from_disk_cache`, unless it raises. -/
def readChunkFromDiskCache (config : Config) (weather : Weather) (state : State β)
    (key : ChunkKey) : Option (List β) :=
  if diskOff config weather then none else state.disk.lookup key

/-- `write_chunk_to_disk_cache`, unless it raises. -/
def writeChunkToDiskCache (config : Config) (weather : Weather) (state : State β)
    (key : ChunkKey) (data : List β) : State β :=
  if diskOff config weather ∨ weather.disk = .caught then state
  else { state with disk := state.disk.insert key data }

/-- What `download_file_chunk_from_api` returns for a chunk. -/
def driveChunk (config : Config) (state : State β) (task : Task β) : List β :=
  slice (state.drive task.fileId) (config.chunkStart task.chunk)
    (config.chunkEnd task.chunk task.total + 1 - config.chunkStart task.chunk)

/-! ## `schedule_or_get_chunk_download_task` -/

/-- Hand a task to the dispatcher and note its future. -/
def submit (state : State β) (key : ChunkKey) (total : Nat) (isPrefetch : Bool) :
    State β :=
  { state with
    tasks := state.tasks ++ [⟨key.1, key.2, total, isPrefetch, .queued, 0⟩]
    active := state.active.insert key (state.tasks.length, isPrefetch) }

/-- How `schedule_or_get_chunk_download_task` leaves its critical section. -/
inductive Scheduled where
  /-- It returns the future of a task that was there. -/
  | joined (task : Nat)
  /-- It is about to add the done-callback to the future of a new task. -/
  | submitted (task : Nat)
  /-- A callback of the cancelled future waits for the lock this thread holds. -/
  | deadlocked
deriving DecidableEq

/-- The critical section of `schedule_or_get_chunk_download_task`. -/
def scheduleOrGet (state : State β) (key : ChunkKey) (total : Nat)
    (isPrefetch : Bool) : Scheduled × State β :=
  match state.active.lookup key with
  | none => (.submitted state.tasks.length, state.submit key total isPrefetch)
  | some (index, wasPrefetch) =>
      if !isPrefetch && wasPrefetch then
        match state.tasks[index]? with
        | some task =>
            -- `future.cancel()` succeeds on a queued or cancelled future
            match task.point with
            | .queued =>
                let cancelled := state.setTask index { task with point := .cancelled }
                if 0 < task.callbacks then
                  (.deadlocked, { cancelled with activeLocked := true })
                else
                  (.submitted (state.tasks.length + 1),
                    (cancelled.submit key total false).submit key total isPrefetch)
            | .cancelled =>
                (.submitted (state.tasks.length + 1),
                  (state.submit key total false).submit key total isPrefetch)
            | _ => (.joined index, state)
        | none => (.joined index, state)
      else (.joined index, state)

/-- The done-callback `_remove_future`. -/
def removeFuture (state : State β) (key : ChunkKey) : State β :=
  { state with active := state.active.erase key }

theorem scheduleOrGet_eq {state next : State β} {key : ChunkKey} {total : Nat}
    {isPrefetch : Bool} {scheduled : Scheduled}
    (taken : state.scheduleOrGet key total isPrefetch = (scheduled, next)) :
    next = { state with
      tasks := next.tasks
      active := next.active
      activeLocked := next.activeLocked } := by
  unfold scheduleOrGet at taken
  split at taken
  · cases taken
    rfl
  · split at taken
    · split at taken
      · split at taken
        · simp only at taken
          split at taken <;> cases taken <;> rfl
        · cases taken
          rfl
        · cases taken
          rfl
      · cases taken
        rfl
    · cases taken
      rfl

/-- `future.add_done_callback(_remove_future)`; the callback runs at once when
the future is done, and then needs `active_downloads_lock`. -/
def addDoneCallback (state : State β) (key : ChunkKey) (index : Nat) :
    Option (State β) :=
  match state.tasks[index]? with
  | some task =>
      match task.point with
      | .done _ | .cancelled =>
          if state.activeLocked then none else some (state.removeFuture key)
      | _ => some (state.setTask index { task with callbacks := task.callbacks + 1 })
  | none => none

theorem addDoneCallback_eq {state next : State β} {key : ChunkKey} {index : Nat}
    (added : state.addDoneCallback key index = some next) :
    next = { state with tasks := next.tasks, active := next.active } := by
  unfold addDoneCallback at added
  split at added
  · split at added
    · split at added <;> cases added
      rfl
    · split at added <;> cases added
      rfl
    · cases added
      rfl
  · cases added

/-! ## `invalidate_file_chunks_cache` -/

/-- The part under `mem_cache_lock`. -/
def clearMemory (state : State β) (fileId : Str) : State β :=
  { state with
    memory := (state.memory.cache.keys.filter fun key => key.1 = fileId).foldl
      InMemoryChunkEvictionCache.invalidate state.memory }

/-- The chunk files in the directory of a file. -/
def chunkFiles (state : State β) (fileId : Str) : List Nat :=
  (state.disk.keys.filter fun key => key.1 = fileId).map Prod.snd

def removeChunkFile (state : State β) (key : ChunkKey) : State β :=
  { state with disk := state.disk.erase key }

/-! ## `read_content_range_with_caching` -/

def recentChunks (state : State β) (fileId : Str) : List Int :=
  (state.recent.lookup fileId).getD []

/-- `recent.append(end_chunk)` on a deque of at most ten. -/
def remember (config : Config) (state : State β) (call : ReadCall) : State β :=
  let recent := state.recentChunks call.fileId ++ [config.endChunk call]
  { state with recent := state.recent.insert call.fileId (recent.drop (recent.length - 10)) }

def isSequential (config : Config) (state : State β) (call : ReadCall) : Bool :=
  let recent := state.recentChunks call.fileId
  let start : Int := config.startChunk call
  recent = [] ∨ start ∈ recent ∨ start - 1 ∈ recent ∨ start - 2 ∈ recent

/-- Where a call stands after the decision to prefetch. -/
def firstPoint (config : Config) (state : State β) (call : ReadCall) : ReaderPoint β :=
  if call.total ≤ call.offset then .finished []
  else if state.isSequential config call then
    .prefetch (config.endChunk call + 1).toNat [(config.endChunk call + 2).toNat] .hasLock
  else .remember

end State

/-- Where a reader goes when one `_prefetch` call returns. -/
def afterPrefetch : List Nat → ReaderPoint β
  | [] => .remember
  | chunk :: later => .prefetch chunk later .hasLock

/-! ## Steps -/

/-- The steps.  The numbers name the reader, task or invalidation that moves;
`change` is the environment that gives a Drive file another content. -/
inductive Label (β : Type) where
  | begin (reader : Nat) (call : ReadCall)
  | reader (reader : Nat) (weather : Weather)
  | task (task : Nat) (weather : Weather)
  | callback (task : Nat)
  | invalidate (index : Nat) (fileId : Str)
  | remove (index : Nat)
  | removeFails (index : Nat)
  | change (fileId : Str) (content : List β)

/-- A step of `_prefetch`. -/
def prefetchStep (state : State β) (call : ReadCall) (chunk : Nat) (later : List Nat) :
    PrefetchPoint → Option (State β × ReaderPoint β)
  | .hasLock =>
      if state.hasLock (call.fileId, chunk) then some (state, afterPrefetch later)
      else some (state, .prefetch chunk later .memory)
  | .memory =>
      if (state.memory.cache.lookup (call.fileId, chunk)).isSome then
        some (state, afterPrefetch later)
      else some (state, .prefetch chunk later .disk)
  | .disk =>
      if (state.disk.lookup (call.fileId, chunk)).isSome then
        some (state, afterPrefetch later)
      else some (state, .prefetch chunk later .schedule)
  | .schedule =>
      if state.activeLocked then none
      else
        match state.scheduleOrGet (call.fileId, chunk) call.total true with
        | (.joined _, next) => some (next, afterPrefetch later)
        | (.submitted task, next) => some (next, .prefetch chunk later (.register task))
        | (.deadlocked, next) => some (next, .frozen)
  | .register task =>
      (state.addDoneCallback (call.fileId, chunk) task).map (·, afterPrefetch later)

/-- A step of `read_content_range_with_caching`. -/
def readStep (config : Config) (weather : Weather) (state : State β) (call : ReadCall) :
    ReaderPoint β → Option (State β × ReaderPoint β)
  | .prefetch chunk later point => prefetchStep state call chunk later point
  | .remember =>
      some (state.remember config call, .lookMemory (config.chunks call) [])
  | .lookMemory [] result => some (state, .finished result)
  | .lookMemory (chunk :: todo) result =>
      match (state.memory.get (call.fileId, chunk)).1 with
      | some data =>
          some (state.touch (call.fileId, chunk),
            .lookMemory todo (result ++ config.piece call chunk data))
      | none => some (state, .lookDisk chunk todo result)
  | .lookDisk chunk todo result =>
      if State.diskRaises config weather then some (state, .failed)
      else
        match state.readChunkFromDiskCache config weather (call.fileId, chunk) with
        | some data => some (state, .putMemory chunk todo result data)
        | none => some (state, .schedule chunk todo result)
  | .putMemory chunk todo result data =>
      some (state.putMemory (call.fileId, chunk) data false,
        .lookMemory todo (result ++ config.piece call chunk data))
  | .schedule chunk todo result =>
      if state.activeLocked then none
      else
        match state.scheduleOrGet (call.fileId, chunk) call.total false with
        | (.joined task, next) => some (next, .await chunk todo result task)
        | (.submitted task, next) => some (next, .register chunk todo result task)
        | (.deadlocked, next) => some (next, .frozen)
  | .register chunk todo result task =>
      (state.addDoneCallback (call.fileId, chunk) task).map
        (·, .await chunk todo result task)
  | .await chunk todo result index =>
      match (state.tasks[index]?).map Task.point with
      | some (.done (some data)) =>
          some (state, .lookMemory todo (result ++ config.piece call chunk data))
      | some (.done none) | some .cancelled => some (state, .failed)
      | _ => none
  | .finished _ | .failed | .frozen => none

/-- A step of `download_chunk_from_drive_api` or of its future. -/
def downloadStep (config : Config) (weather : Weather) (state : State β) (task : Task β) :
    TaskPoint β → Option (State β × TaskPoint β)
  | .queued => some (state, .started)
  | .started =>
      if task.total ≤ config.chunkStart task.chunk then some (state, .returning (some []))
      else some (state, .waiting)
  | .waiting => if state.lockFree task.key then some (state, .lookMemory) else none
  | .lookMemory =>
      match (state.memory.get task.key).1 with
      | some data => some (state.touch task.key, .leaving (some data))
      | none => some (state, .lookDisk)
  | .lookDisk =>
      if State.diskRaises config weather then some (state, .leaving none)
      else
        match state.readChunkFromDiskCache config weather task.key with
        | some data => some (state, .diskHit data)
        | none => some (state, .request)
  | .diskHit data =>
      some (state.putMemory task.key data task.isPrefetch, .leaving (some data))
  | .request =>
      some ({ state with
          requests := ⟨task.fileId, config.chunkStart task.chunk,
            config.chunkEnd task.chunk task.total⟩ :: state.requests },
        .requested)
  | .requested =>
      if weather.storageFails then some (state, .leaving none)
      else some (state, .fetched (state.driveChunk config task))
  | .fetched data =>
      some (state.putMemory task.key data task.isPrefetch, .stored data)
  | .stored data =>
      if State.diskRaises config weather then some (state, .leaving none)
      else
        some (state.writeChunkToDiskCache config weather task.key data,
          .leaving (some data))
  | .leaving outcome => some (state, .returning outcome)
  | .returning outcome => some (state, .done outcome)
  | .cancelled | .done _ => none

/-- The worker of a finished task runs a done-callback. -/
def callbackStep (state : State β) (index : Nat) (task : Task β) : Option (State β) :=
  match task.point with
  | .done _ =>
      if state.activeLocked ∨ task.callbacks = 0 then none
      else
        some ((state.removeFuture task.key).setTask index
          { task with callbacks := task.callbacks - 1 })
  | _ => none

/-- A step of `invalidate_file_chunks_cache` after the memory was cleared. -/
def removeStep (state : State β) (index : Nat) : Option (State β) :=
  match state.invalidations index with
  | .idle => none
  | .cleared fileId =>
      some (state.setInvalidation index (.removing fileId (state.chunkFiles fileId)))
  | .removing fileId (chunk :: chunks) =>
      if (state.disk.lookup (fileId, chunk)).isSome then
        some ((state.removeChunkFile (fileId, chunk)).setInvalidation index
          (.removing fileId chunks))
      else
        -- `os.unlink` raises, which ends `shutil.rmtree`
        some (state.setInvalidation index .idle)
  | .removing _ [] => some (state.setInvalidation index .idle)

/-- `shutil.rmtree` raises for a reason that is not in the state: the directory
or a temporary file is gone, or the disk refuses.  The error is logged, and the
call returns with the files that are left. -/
def removeFailsStep (state : State β) (index : Nat) : Option (State β) :=
  match state.invalidations index with
  | .idle => none
  | .cleared _ | .removing _ _ => some (state.setInvalidation index .idle)

/-- The transition system. -/
def step (config : Config) (state : State β) : Label β → Option (State β)
  | .begin index call =>
      match state.readers index with
      | none => some (state.setReader index ⟨call, state.firstPoint config call⟩)
      | some _ => none
  | .reader index weather =>
      (state.readers index).bind fun reader =>
        (readStep config weather state reader.call reader.point).map fun (next, point) =>
          next.setReader index ⟨reader.call, point⟩
  | .task index weather =>
      (state.tasks[index]?).bind fun task =>
        (downloadStep config weather state task task.point).map fun (next, point) =>
          next.setTask index { task with point := point }
  | .callback index => (state.tasks[index]?).bind (callbackStep state index)
  | .invalidate index fileId =>
      match state.invalidations index with
      | .idle =>
          some ((state.clearMemory fileId).setInvalidation index (.cleared fileId))
      | _ => none
  | .remove index => removeStep state index
  | .removeFails index => removeFailsStep state index
  | .change fileId content =>
      some { state with drive := Function.update state.drive fileId content }

/-! ## What a step can do -/

/-- The effect of the steps of `download_chunk_from_drive_api`. -/
inductive Downloaded (config : Config) (weather : Weather) (state : State β)
    (task : Task β) : TaskPoint β → State β → TaskPoint β → Prop where
  | pick : Downloaded config weather state task .queued state .started
  | past (beyond : task.total ≤ config.chunkStart task.chunk) :
      Downloaded config weather state task .started state (.returning (some []))
  | enter (inside : config.chunkStart task.chunk < task.total) :
      Downloaded config weather state task .started state .waiting
  | lock (free : state.lockFree task.key = true) :
      Downloaded config weather state task .waiting state .lookMemory
  | memoryHit {data} (found : state.memory.cache.lookup task.key = some data) :
      Downloaded config weather state task .lookMemory (state.touch task.key)
        (.leaving (some data))
  | memoryMiss (absent : state.memory.cache.lookup task.key = none) :
      Downloaded config weather state task .lookMemory state .lookDisk
  | diskRaised (raised : State.diskRaises config weather = true) :
      Downloaded config weather state task .lookDisk state (.leaving none)
  | diskHit {data} (found : state.disk.lookup task.key = some data) :
      Downloaded config weather state task .lookDisk state (.diskHit data)
  | diskMiss :
      Downloaded config weather state task .lookDisk state .request
  | keep {data} :
      Downloaded config weather state task (.diskHit data)
        (state.putMemory task.key data task.isPrefetch) (.leaving (some data))
  | ask :
      Downloaded config weather state task .request
        { state with
          requests := ⟨task.fileId, config.chunkStart task.chunk,
            config.chunkEnd task.chunk task.total⟩ :: state.requests }
        .requested
  | refused (fails : weather.storageFails = true) :
      Downloaded config weather state task .requested state (.leaving none)
  | reply (answers : weather.storageFails = false) :
      Downloaded config weather state task .requested state
        (.fetched (state.driveChunk config task))
  | store {data} :
      Downloaded config weather state task (.fetched data)
        (state.putMemory task.key data task.isPrefetch) (.stored data)
  | writeRaised {data} (raised : State.diskRaises config weather = true) :
      Downloaded config weather state task (.stored data) state (.leaving none)
  | writeSkipped {data} :
      Downloaded config weather state task (.stored data) state (.leaving (some data))
  | write {data} :
      Downloaded config weather state task (.stored data)
        { state with disk := state.disk.insert task.key data } (.leaving (some data))
  | leave {outcome} :
      Downloaded config weather state task (.leaving outcome) state (.returning outcome)
  | finish {outcome} :
      Downloaded config weather state task (.returning outcome) state (.done outcome)

theorem downloaded_of_downloadStep {config : Config} {weather : Weather}
    {state next : State β} {task : Task β} {point after : TaskPoint β}
    (taken : downloadStep config weather state task point = some (next, after)) :
    Downloaded config weather state task point next after := by
  cases point with
  | queued => cases taken; exact .pick
  | started =>
      simp only [downloadStep] at taken
      split at taken <;> cases taken
      · exact .past ‹_›
      · exact .enter (Nat.lt_of_not_le ‹_›)
  | waiting =>
      simp only [downloadStep] at taken
      split at taken <;> cases taken
      exact .lock ‹_›
  | lookMemory =>
      simp only [downloadStep, InMemoryChunkEvictionCache.get_fst] at taken
      split at taken <;> cases taken
      · exact .memoryHit ‹_›
      · exact .memoryMiss ‹_›
  | lookDisk =>
      simp only [downloadStep] at taken
      split at taken
      · cases taken
        exact .diskRaised ‹_›
      · split at taken <;> cases taken
        · rename_i found
          unfold State.readChunkFromDiskCache at found
          split at found
          · cases found
          · exact .diskHit found
        · exact .diskMiss
  | diskHit data => cases taken; exact .keep
  | request => cases taken; exact .ask
  | requested =>
      simp only [downloadStep] at taken
      split at taken <;> cases taken
      · exact .refused ‹_›
      · exact .reply (Bool.eq_false_iff.mpr ‹_›)
  | fetched data => cases taken; exact .store
  | stored data =>
      simp only [downloadStep] at taken
      split at taken <;> cases taken
      · exact .writeRaised ‹_›
      · unfold State.writeChunkToDiskCache
        split
        · exact .writeSkipped
        · exact .write
  | leaving outcome => cases taken; exact .leave
  | returning outcome => cases taken; exact .finish
  | cancelled | done outcome => cases taken

/-- The effect of the steps of `read_content_range_with_caching`. -/
inductive Moved (config : Config) (weather : Weather) (state : State β)
    (call : ReadCall) : ReaderPoint β → State β → ReaderPoint β → Prop where
  | skipPrefetch {chunk later point} :
      Moved config weather state call (.prefetch chunk later point) state
        (afterPrefetch later)
  | nextPrefetch {chunk later point next} (follows : point.successor = some next) :
      Moved config weather state call (.prefetch chunk later point) state
        (.prefetch chunk later next)
  | prefetchJoined {chunk later task next} (unlocked : state.activeLocked = false)
      (scheduled : state.scheduleOrGet (call.fileId, chunk) call.total true =
        (.joined task, next)) :
      Moved config weather state call (.prefetch chunk later .schedule) next
        (afterPrefetch later)
  | prefetchSubmitted {chunk later task next} (unlocked : state.activeLocked = false)
      (scheduled : state.scheduleOrGet (call.fileId, chunk) call.total true =
        (.submitted task, next)) :
      Moved config weather state call (.prefetch chunk later .schedule) next
        (.prefetch chunk later (.register task))
  | prefetchDeadlocked {chunk later next} (unlocked : state.activeLocked = false)
      (scheduled : state.scheduleOrGet (call.fileId, chunk) call.total true =
        (.deadlocked, next)) :
      Moved config weather state call (.prefetch chunk later .schedule) next .frozen
  | prefetchRegistered {chunk later task next}
      (added : state.addDoneCallback (call.fileId, chunk) task = some next) :
      Moved config weather state call (.prefetch chunk later (.register task)) next
        (afterPrefetch later)
  | remember :
      Moved config weather state call .remember (state.remember config call)
        (.lookMemory (config.chunks call) [])
  | finish {result} :
      Moved config weather state call (.lookMemory [] result) state (.finished result)
  | memoryHit {chunk todo result data}
      (found : state.memory.cache.lookup (call.fileId, chunk) = some data) :
      Moved config weather state call (.lookMemory (chunk :: todo) result)
        (state.touch (call.fileId, chunk))
        (.lookMemory todo (result ++ config.piece call chunk data))
  | memoryMiss {chunk todo result}
      (absent : state.memory.cache.lookup (call.fileId, chunk) = none) :
      Moved config weather state call (.lookMemory (chunk :: todo) result) state
        (.lookDisk chunk todo result)
  | diskRaised {chunk todo result} (raised : State.diskRaises config weather = true) :
      Moved config weather state call (.lookDisk chunk todo result) state .failed
  | diskHit {chunk todo result data}
      (found : state.disk.lookup (call.fileId, chunk) = some data) :
      Moved config weather state call (.lookDisk chunk todo result) state
        (.putMemory chunk todo result data)
  | diskMiss {chunk todo result} :
      Moved config weather state call (.lookDisk chunk todo result) state
        (.schedule chunk todo result)
  | put {chunk todo result data} :
      Moved config weather state call (.putMemory chunk todo result data)
        (state.putMemory (call.fileId, chunk) data false)
        (.lookMemory todo (result ++ config.piece call chunk data))
  | joined {chunk todo result task next} (unlocked : state.activeLocked = false)
      (scheduled : state.scheduleOrGet (call.fileId, chunk) call.total false =
        (.joined task, next)) :
      Moved config weather state call (.schedule chunk todo result) next
        (.await chunk todo result task)
  | submitted {chunk todo result task next} (unlocked : state.activeLocked = false)
      (scheduled : state.scheduleOrGet (call.fileId, chunk) call.total false =
        (.submitted task, next)) :
      Moved config weather state call (.schedule chunk todo result) next
        (.register chunk todo result task)
  | deadlocked {chunk todo result next} (unlocked : state.activeLocked = false)
      (scheduled : state.scheduleOrGet (call.fileId, chunk) call.total false =
        (.deadlocked, next)) :
      Moved config weather state call (.schedule chunk todo result) next .frozen
  | registered {chunk todo result task next}
      (added : state.addDoneCallback (call.fileId, chunk) task = some next) :
      Moved config weather state call (.register chunk todo result task) next
        (.await chunk todo result task)
  | received {chunk todo result index data task}
      (present : state.tasks[index]? = some task)
      (isDone : task.point = .done (some data)) :
      Moved config weather state call (.await chunk todo result index) state
        (.lookMemory todo (result ++ config.piece call chunk data))
  | raised {chunk todo result index task} (present : state.tasks[index]? = some task)
      (isOver : task.point = .done none ∨ task.point = .cancelled) :
      Moved config weather state call (.await chunk todo result index) state .failed

theorem moved_of_prefetchStep {config : Config} {weather : Weather}
    {state next : State β} {call : ReadCall} {chunk : Nat} {later : List Nat}
    {point : PrefetchPoint} {after : ReaderPoint β}
    (taken : prefetchStep state call chunk later point = some (next, after)) :
    Moved config weather state call (.prefetch chunk later point) next after := by
  cases point with
  | hasLock | memory | disk =>
      simp only [prefetchStep] at taken
      split at taken <;> cases taken
      · exact .skipPrefetch
      · exact .nextPrefetch rfl
  | schedule =>
      simp only [prefetchStep] at taken
      split at taken
      · cases taken
      · rename_i locked
        have unlocked : state.activeLocked = false := by simpa using locked
        split at taken <;> cases taken
        · exact .prefetchJoined unlocked ‹_›
        · exact .prefetchSubmitted unlocked ‹_›
        · exact .prefetchDeadlocked unlocked ‹_›
  | register task =>
      simp only [prefetchStep, Option.map_eq_some_iff] at taken
      obtain ⟨added, isAdded, same⟩ := taken
      cases same
      exact .prefetchRegistered isAdded

theorem moved_of_readStep {config : Config} {weather : Weather}
    {state next : State β} {call : ReadCall} {point after : ReaderPoint β}
    (taken : readStep config weather state call point = some (next, after)) :
    Moved config weather state call point next after := by
  cases point with
  | prefetch chunk later point => exact moved_of_prefetchStep taken
  | remember => cases taken; exact .remember
  | lookMemory todo result =>
      cases todo with
      | nil => cases taken; exact .finish
      | cons chunk todo =>
          simp only [readStep, InMemoryChunkEvictionCache.get_fst] at taken
          split at taken <;> cases taken
          · exact .memoryHit ‹_›
          · exact .memoryMiss ‹_›
  | lookDisk chunk todo result =>
      simp only [readStep] at taken
      split at taken
      · cases taken
        exact .diskRaised ‹_›
      · split at taken <;> cases taken
        · rename_i found
          unfold State.readChunkFromDiskCache at found
          split at found
          · cases found
          · exact .diskHit found
        · exact .diskMiss
  | putMemory chunk todo result data => cases taken; exact .put
  | schedule chunk todo result =>
      simp only [readStep] at taken
      split at taken
      · cases taken
      · rename_i locked
        have unlocked : state.activeLocked = false := by simpa using locked
        split at taken <;> cases taken
        · exact .joined unlocked ‹_›
        · exact .submitted unlocked ‹_›
        · exact .deadlocked unlocked ‹_›
  | register chunk todo result task =>
      simp only [readStep, Option.map_eq_some_iff] at taken
      obtain ⟨added, isAdded, same⟩ := taken
      cases same
      exact .registered isAdded
  | await chunk todo result index =>
      simp only [readStep] at taken
      cases present : state.tasks[index]? with
      | none => simp [present] at taken
      | some task =>
          simp only [present, Option.map_some] at taken
          split at taken <;> cases taken
          · rename_i isDone
            exact .received present (Option.some.inj isDone)
          · rename_i isDone
            exact .raised present (Or.inl (Option.some.inj isDone))
          · rename_i isCancelled
            exact .raised present (Or.inr (Option.some.inj isCancelled))
  | finished result | failed | frozen => cases taken

/-- A step of a read leaves the disk cache, the other readers, the
invalidations, Drive and the requests alone. -/
theorem Moved.frame {config : Config} {weather : Weather} {state next : State β}
    {call : ReadCall} {before after : ReaderPoint β}
    (moved : Moved config weather state call before next after) :
    next.disk = state.disk ∧ next.readers = state.readers ∧
      next.invalidations = state.invalidations ∧ next.drive = state.drive ∧
      next.requests = state.requests := by
  cases moved with
  | prefetchJoined _ scheduled | prefetchSubmitted _ scheduled
  | prefetchDeadlocked _ scheduled | joined _ scheduled | submitted _ scheduled
  | deadlocked _ scheduled =>
      rw [State.scheduleOrGet_eq scheduled]
      exact ⟨rfl, rfl, rfl, rfl, rfl⟩
  | prefetchRegistered added | registered added =>
      rw [State.addDoneCallback_eq added]
      exact ⟨rfl, rfl, rfl, rfl, rfl⟩
  | skipPrefetch | nextPrefetch _ | remember | finish | memoryHit _ | memoryMiss _
  | diskRaised _ | diskHit _ | diskMiss | put | received _ _ | raised _ _ =>
      exact ⟨rfl, rfl, rfl, rfl, rfl⟩

/-- A step of a download leaves the tasks, the readers, the invalidations and
Drive alone. -/
theorem Downloaded.frame {config : Config} {weather : Weather} {state next : State β}
    {task : Task β} {before after : TaskPoint β}
    (moved : Downloaded config weather state task before next after) :
    next.tasks = state.tasks ∧ next.readers = state.readers ∧
      next.invalidations = state.invalidations ∧ next.drive = state.drive := by
  cases moved <;> exact ⟨rfl, rfl, rfl, rfl⟩

/-- The effect of every step. -/
inductive Stepped (config : Config) (state : State β) : Label β → State β → Prop where
  | begin {index call} (unused : state.readers index = none) :
      Stepped config state (.begin index call)
        (state.setReader index ⟨call, state.firstPoint config call⟩)
  | reader {index weather reader next point}
      (present : state.readers index = some reader)
      (moved : Moved config weather state reader.call reader.point next point) :
      Stepped config state (.reader index weather)
        (next.setReader index ⟨reader.call, point⟩)
  | task {index weather task next point}
      (present : state.tasks[index]? = some task)
      (moved : Downloaded config weather state task task.point next point) :
      Stepped config state (.task index weather)
        (next.setTask index { task with point := point })
  | callback {index task outcome} (present : state.tasks[index]? = some task)
      (isDone : task.point = .done outcome) (unlocked : state.activeLocked = false)
      (registered : 0 < task.callbacks) :
      Stepped config state (.callback index)
        ((state.removeFuture task.key).setTask index
          { task with callbacks := task.callbacks - 1 })
  | invalidate {index fileId} (idle : state.invalidations index = .idle) :
      Stepped config state (.invalidate index fileId)
        ((state.clearMemory fileId).setInvalidation index (.cleared fileId))
  | list {index fileId} (cleared : state.invalidations index = .cleared fileId) :
      Stepped config state (.remove index)
        (state.setInvalidation index (.removing fileId (state.chunkFiles fileId)))
  | remove {index fileId chunk chunks}
      (removing : state.invalidations index = .removing fileId (chunk :: chunks))
      (present : (state.disk.lookup (fileId, chunk)).isSome) :
      Stepped config state (.remove index)
        ((state.removeChunkFile (fileId, chunk)).setInvalidation index
          (.removing fileId chunks))
  | vanished {index fileId chunk chunks}
      (removing : state.invalidations index = .removing fileId (chunk :: chunks))
      (gone : state.disk.lookup (fileId, chunk) = none) :
      Stepped config state (.remove index) (state.setInvalidation index .idle)
  | removed {index fileId} (removing : state.invalidations index = .removing fileId []) :
      Stepped config state (.remove index) (state.setInvalidation index .idle)
  | removeFails {index} (running : state.invalidations index ≠ .idle) :
      Stepped config state (.removeFails index) (state.setInvalidation index .idle)
  | change {fileId content} :
      Stepped config state (.change fileId content)
        { state with drive := Function.update state.drive fileId content }

theorem stepped_of_step {config : Config} {state next : State β} {label : Label β}
    (taken : step config state label = some next) : Stepped config state label next := by
  cases label with
  | begin index call =>
      simp only [step] at taken
      split at taken <;> cases taken
      exact .begin ‹_›
  | reader index weather =>
      simp only [step, Option.bind_eq_some_iff, Option.map_eq_some_iff] at taken
      obtain ⟨reader, present, ⟨moved, point⟩, success, rfl⟩ := taken
      exact .reader present (moved_of_readStep success)
  | task index weather =>
      simp only [step, Option.bind_eq_some_iff, Option.map_eq_some_iff] at taken
      obtain ⟨task, present, ⟨moved, point⟩, success, rfl⟩ := taken
      exact .task present (downloaded_of_downloadStep success)
  | callback index =>
      simp only [step, Option.bind_eq_some_iff] at taken
      obtain ⟨task, present, success⟩ := taken
      unfold callbackStep at success
      split at success
      · split at success <;> cases success
        rename_i outcome isDone enabled
        rw [not_or] at enabled
        exact .callback present isDone (by simpa using enabled.1)
          (Nat.pos_of_ne_zero enabled.2)
      · cases success
  | invalidate index fileId =>
      simp only [step] at taken
      split at taken <;> cases taken
      exact .invalidate ‹_›
  | remove index =>
      simp only [step, removeStep] at taken
      split at taken
      · cases taken
      · cases taken
        exact .list ‹_›
      · rename_i removing
        split at taken <;> cases taken
        · exact .remove removing ‹_›
        · rename_i gone
          exact .vanished removing (Option.not_isSome_iff_eq_none.mp gone)
      · cases taken
        exact .removed ‹_›
  | removeFails index =>
      simp only [step, removeFailsStep] at taken
      split at taken <;> cases taken
      · exact .removeFails (by simp [*])
      · exact .removeFails (by simp [*])
  | change fileId content =>
      cases taken
      exact .change

theorem Stepped.drive_eq {config : Config} {state next : State β} {label : Label β}
    (stepped : Stepped config state label next)
    (unchanged : ∀ fileId content, label ≠ .change fileId content) :
    next.drive = state.drive := by
  cases stepped with
  | reader present moved => exact moved.frame.2.2.2.1
  | task present moved => exact moved.frame.2.2.2
  | change => exact absurd rfl (unchanged _ _)
  | begin _ | callback _ _ _ _ | invalidate _ | list _ | remove _ _ | vanished _ _ | removed _
  | removeFails _ => rfl

theorem Stepped.reader_of_next {config : Config} {state next : State β} {label : Label β}
    {index : Nat} {later : Reader β} (stepped : Stepped config state label next)
    (present : next.readers index = some later) :
    (∃ before, state.readers index = some before ∧ before.call = later.call) ∨
      label = .begin index later.call := by
  have set {base : State β} (sameReaders : base.readers = state.readers) {moving : Nat}
      {reader : Reader β} (isSet : (base.setReader moving reader).readers index = some later) :
      index = moving ∧ reader = later ∨ state.readers index = some later := by
    change Function.update base.readers moving (some reader) index = some later at isSet
    rw [Function.update_apply, sameReaders] at isSet
    split at isSet
    · rename_i same
      exact Or.inl ⟨same, Option.some.inj isSet⟩
    · exact Or.inr isSet
  cases stepped with
  | begin unused =>
      rcases set rfl present with ⟨same, isLater⟩ | old
      · right
        rw [← isLater, same]
      · exact Or.inl ⟨later, old, rfl⟩
  | @reader moving weather reader moved point isReader isMoved =>
      left
      rcases set isMoved.frame.2.1 present with ⟨same, isLater⟩ | old
      · exact ⟨reader, same ▸ isReader, by rw [← isLater]⟩
      · exact ⟨later, old, rfl⟩
  | task isTask moved =>
      rw [State.setTask, moved.frame.2.1] at present
      exact Or.inl ⟨later, present, rfl⟩
  | callback _ _ _ _ | invalidate _ | list _ | remove _ _ | vanished _ _ | removed _
  | removeFails _ | change =>
      exact Or.inl ⟨later, present, rfl⟩

/-- An empty chunk manager in front of a Drive with one file `f`. -/
def State.empty (maxChunks : Nat) (content : List β) : State β where
  memory := .new maxChunks 1000
  disk := ∅
  tasks := []
  active := ∅
  activeLocked := false
  recent := ∅
  readers := fun _ => none
  invalidations := fun _ => .idle
  drive := fun fileId => if fileId = ['f'] then content else []
  requests := []

def fairWeather : Weather := ⟨false, false, .success⟩

end FuseDrive.Cache
