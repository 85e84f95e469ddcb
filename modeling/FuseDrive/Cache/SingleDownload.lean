import FuseDrive.Cache.DownloadSharing
import FuseDrive.Cache.RangeRead

/-!
# A chunk is downloaded once

A chunk may get several tasks, but only the holder of its exclusive lock asks
the storage, after it has looked into the caches again.  So the storage is
asked once as long as it answers and the chunk stays in memory after that, and
every reader of the chunk gets the bytes of that answer.
-/

namespace FuseDrive.Cache

open Transition

variable {β : Type}

/-! ## The condition -/

/-- How often the storage was asked for a chunk. -/
def State.downloads (state : State β) (config : Config) (key : ChunkKey) : Nat :=
  (state.requests.filter fun request =>
    request.fileId = key.1 ∧ request.first = config.chunkStart key.2).length

/-- The chunk is in the memory cache. -/
def State.inMemory (state : State β) (key : ChunkKey) : Bool :=
  (state.memory.cache.lookup key).isSome

/-- The step puts what a task has downloaded into the memory cache. -/
def State.stores (state : State β) (key : ChunkKey) : Label β → Bool
  | .task index _ =>
      (state.tasks[index]?).any fun task =>
        task.key = key && match task.point with
          | .fetched _ => true
          | _ => false
  | _ => false

/-- After its first download the chunk is neither evicted nor invalidated. -/
def StaysCached (config : Config) (key : ChunkKey) (state : State β) (label : Label β) : Prop :=
  0 < state.downloads config key →
    (state.inMemory key = true ∨ state.stores key label = true) →
      ∀ next, step config state label = some next → next.inMemory key = true

/-- The content of the file does not change, its readers know its size, the
storage answers the requests for the chunk, and the chunk stays cached.
`diskWorks` tells that no access to the disk cache for the chunk raises. -/
def Undisturbed (config : Config) (content : List β) (key : ChunkKey) (diskWorks : Prop)
    (state : State β) (label : Label β) : Prop :=
  (match label with
    | .begin _ call => call.fileId = key.1 → call.total = content.length
    | .change otherId _ => otherId ≠ key.1
    | .task index weather => ∀ task ∈ state.tasks[index]?, task.key = key →
        weather.storageFails = false ∧ (diskWorks → weather.disk ≠ .raised)
    | _ => True) ∧
  StaysCached config key state label

/-- The task a read waits for, or is about to. -/
def ReaderPoint.awaits : ReaderPoint β → Option (Nat × Nat)
  | .register chunk _ _ task | .await chunk _ _ task => some (chunk, task)
  | _ => none

/-- One download, whose bytes every reader of the chunk gets. -/
structure DownloadedOnce (config : Config) (content : List β) (key : ChunkKey)
    (diskWorks : Prop) (state : State β) : Prop where
  once : state.downloads config key ≤ 1
  cached : ∀ data, state.memory.cache.lookup key = some data →
    data = config.chunkOf content key.2
  shared : ∀ (reader : Nat) (call : ReadCall) (point : ReaderPoint β) (index : Nat)
      (task : Task β), state.readers reader = some ⟨call, point⟩ → call.fileId = key.1 →
    point.awaits = some (key.2, index) → state.tasks[index]? = some task →
    (∀ data, task.point = .done (some data) → data = config.chunkOf content key.2) ∧
      task.point ≠ .cancelled ∧ (diskWorks → task.point ≠ .done none)
  results : ∀ index call result, state.readers index = some ⟨call, .finished result⟩ →
    call.fileId = key.1 → result = slice content call.offset call.length

/-! ## The lock of the chunk -/

/-- The request is on its way, or its answer not yet in memory. -/
def TaskPoint.inFlight : TaskPoint β → Bool
  | .requested | .fetched _ => true
  | _ => false

/-- Memory was empty when the task looked. -/
def TaskPoint.decides : TaskPoint β → Bool
  | .lookDisk | .diskHit _ | .request => true
  | _ => false

/-- What the lock of a chunk protects. -/
structure SingleFlight (config : Config) (key : ChunkKey) (state : State β) : Prop where
  alone : ∀ (left right : Nat) (leftTask rightTask : Task β),
    state.tasks[left]? = some leftTask → state.tasks[right]? = some rightTask →
    leftTask.key = key → rightTask.key = key →
    leftTask.point.holdsLock = true → rightTask.point.holdsLock = true → left = right
  decides : ∀ (index : Nat) (task : Task β), state.tasks[index]? = some task →
    task.key = key → task.point.decides = true → state.downloads config key = 0
  once : state.downloads config key ≤ 1
  cached : 0 < state.downloads config key → state.inMemory key = true ∨
    ∃ (index : Nat) (task : Task β), state.tasks[index]? = some task ∧ task.key = key ∧
      task.point.inFlight = true

/-- The task holds the lock, or ends with an exception. -/
def TaskPoint.watched (point : TaskPoint β) : Bool :=
  point.holdsLock || point.raised

/-- The watched tasks of the chunk are the same, at the same points. -/
structure SameWatched (key : ChunkKey) (state next : State β) : Prop where
  old : ∀ (index : Nat) (task : Task β), next.tasks[index]? = some task → task.key = key →
    task.point.watched = true →
    ∃ before : Task β, state.tasks[index]? = some before ∧ before.key = key ∧
      before.point = task.point
  new : ∀ (index : Nat) (task : Task β), state.tasks[index]? = some task → task.key = key →
    task.point.watched = true →
    ∃ after : Task β, next.tasks[index]? = some after ∧ after.key = key ∧
      after.point = task.point

section SingleFlight

variable {config : Config} {key : ChunkKey} {state middle next : State β}

theorem TaskPoint.watched_of_holdsLock {point : TaskPoint β} (holds : point.holdsLock = true) :
    point.watched = true := by
  rw [TaskPoint.watched, holds]
  rfl

theorem TaskPoint.holdsLock_of_inFlight {point : TaskPoint β} (flies : point.inFlight = true) :
    point.holdsLock = true := by
  cases point <;> simp_all [TaskPoint.inFlight, TaskPoint.holdsLock]

theorem TaskPoint.holdsLock_of_decides {point : TaskPoint β} (decides : point.decides = true) :
    point.holdsLock = true := by
  cases point <;> simp_all [TaskPoint.decides, TaskPoint.holdsLock]

theorem SameWatched.of_tasks (tasks : next.tasks = state.tasks) : SameWatched key state next := by
  constructor <;> rw [tasks] <;> exact fun _ task present isKey _ => ⟨task, present, isKey, rfl⟩

theorem SameWatched.trans (first : SameWatched key state middle)
    (second : SameWatched key middle next) : SameWatched key state next where
  old := by
    intro index task present isKey holds
    obtain ⟨between, isBetween, betweenKey, samePoint⟩ := second.old index task present isKey holds
    rw [← samePoint] at holds ⊢
    exact first.old index between isBetween betweenKey holds
  new := by
    intro index task present isKey holds
    obtain ⟨between, isBetween, betweenKey, samePoint⟩ := first.new index task present isKey holds
    rw [← samePoint] at holds ⊢
    exact second.new index between isBetween betweenKey holds

theorem SameWatched.setTask {index : Nat} {task later : Task β}
    (present : state.tasks[index]? = some task) (sameKey : later.key = task.key)
    (same : task.key = key → later.point = task.point ∨
      task.point.watched = false ∧ later.point.watched = false) :
    SameWatched key state (state.setTask index later) where
  old := by
    intro other found isFound isKey holds
    rw [state.setTask_getElem?] at isFound
    split at isFound
    · rename_i isIndex
      subst isIndex
      rw [present, Option.map_some, Option.some.injEq] at isFound
      subst isFound
      rcases same (sameKey.symm.trans isKey) with samePoint | ⟨-, rests⟩
      · exact ⟨task, present, sameKey ▸ isKey, samePoint.symm⟩
      · rw [rests] at holds
        cases holds
    · exact ⟨found, isFound, isKey, rfl⟩
  new := by
    intro other found isFound isKey holds
    by_cases isIndex : other = index
    · subst isIndex
      rw [present, Option.some.injEq] at isFound
      subst isFound
      rcases same isKey with samePoint | ⟨rests, -⟩
      · refine ⟨later, ?_, sameKey.trans isKey, samePoint⟩
        rw [state.setTask_getElem?, if_pos rfl, present]
        rfl
      · rw [rests] at holds
        cases holds
    · refine ⟨found, ?_, isKey, rfl⟩
      rw [state.setTask_getElem?, if_neg isIndex, isFound]

theorem SameWatched.submit (submitted : ChunkKey) (total : Nat) (isPrefetch : Bool) :
    SameWatched key state (state.submit submitted total isPrefetch) where
  old := by
    intro index task present isKey holds
    change (state.tasks ++ [_])[index]? = some task at present
    rcases Nat.lt_or_ge index state.tasks.length with below | above
    · rw [List.getElem?_append_left below] at present
      exact ⟨task, present, isKey, rfl⟩
    · rw [List.getElem?_append_right above, List.getElem?_singleton] at present
      split at present
      · cases present
        cases holds
      · cases present
  new := by
    intro index task present isKey holds
    refine ⟨task, ?_, isKey, rfl⟩
    change (state.tasks ++ [_])[index]? = some task
    rw [List.getElem?_append_left (List.getElem?_eq_some_iff.mp present).1, present]

theorem SameWatched.scheduledOrGot {scheduled : State.Scheduled} {asked : ChunkKey} {total : Nat}
    {isPrefetch : Bool} (effect : ScheduledOrGot state asked total isPrefetch scheduled next) :
    SameWatched key state next := by
  have cancels {index : Nat} {task : Task β} (present : state.tasks[index]? = some task)
      (queued : task.point = .queued) :
      SameWatched key state (state.setTask index { task with point := .cancelled }) :=
    SameWatched.setTask present rfl fun _ => Or.inr ⟨by rw [queued]; rfl, rfl⟩
  cases effect with
  | joined found started => exact .of_tasks rfl
  | submitted absent => exact .submit _ _ _
  | promoted asked found present queued noCallback =>
      exact (cancels present queued).trans ((SameWatched.submit _ _ _).trans (.submit _ _ _))
  | promotedAgain asked found present cancelled =>
      exact (SameWatched.submit _ _ _).trans (.submit _ _ _)
  | deadlocked asked found present queued callback =>
      exact (cancels present queued).trans (.of_tasks rfl)

theorem SameWatched.addDoneCallback {added : ChunkKey} {index : Nat}
    (isAdded : state.addDoneCallback added index = some next) : SameWatched key state next := by
  unfold State.addDoneCallback at isAdded
  split at isAdded
  · rename_i task present
    split at isAdded
    · split at isAdded <;> cases isAdded
      exact .of_tasks rfl
    · split at isAdded <;> cases isAdded
      exact .of_tasks rfl
    · cases isAdded
      exact .setTask present rfl fun _ => Or.inl rfl
  · cases isAdded

theorem Moved.sameWatched {weather : Weather} {call : ReadCall} {before after : ReaderPoint β}
    (moved : Moved config weather state call before next after) : SameWatched key state next := by
  cases moved with
  | prefetchJoined _ scheduled | prefetchSubmitted _ scheduled | prefetchDeadlocked _ scheduled
  | joined _ scheduled | submitted _ scheduled | deadlocked _ scheduled =>
      exact .scheduledOrGot (FuseDrive.Cache.scheduledOrGot scheduled)
  | prefetchRegistered added | registered added => exact .addDoneCallback added
  | skipPrefetch | nextPrefetch _ | remember | finish | memoryHit _ | memoryMiss _
  | diskRaised _ | diskHit _ | diskMiss | put | received _ _ | raised _ _ => exact .of_tasks rfl

theorem Stepped.sameWatched {label : Label β} (stepped : Stepped config state label next)
    (other : ∀ index weather, label ≠ .task index weather) : SameWatched key state next := by
  cases stepped with
  | reader present moved => exact moved.sameWatched.trans (.of_tasks rfl)
  | task present moved => exact absurd rfl (other _ _)
  | @callback index task outcome present isDone unlocked registered =>
      have removed : SameWatched key state (state.removeFuture task.key) := .of_tasks rfl
      have isPresent : (state.removeFuture task.key).tasks[index]? = some task := present
      exact removed.trans (.setTask isPresent rfl fun _ => Or.inl rfl)
  | begin _ | invalidate _ | list _ | remove _ _ | vanished _ _ | removed _ | removeFails _
  | change => exact .of_tasks rfl

/-! ### The exclusive lock -/

/-- At most one task is inside `exclusive_lock` of the chunk. -/
def LockedOnce (key : ChunkKey) (state : State β) : Prop :=
  ∀ (left right : Nat) (leftTask rightTask : Task β),
    state.tasks[left]? = some leftTask → state.tasks[right]? = some rightTask →
    leftTask.key = key → rightTask.key = key →
    leftTask.point.holdsLock = true → rightTask.point.holdsLock = true → left = right

theorem LockedOnce.aside (once : LockedOnce key state) (same : SameWatched key state next) :
    LockedOnce key next := by
  intro left right leftTask rightTask isLeft isRight leftKey rightKey leftHolds rightHolds
  obtain ⟨oldLeft, wasLeft, oldLeftKey, leftPoint⟩ :=
    same.old left leftTask isLeft leftKey (TaskPoint.watched_of_holdsLock leftHolds)
  obtain ⟨oldRight, wasRight, oldRightKey, rightPoint⟩ :=
    same.old right rightTask isRight rightKey (TaskPoint.watched_of_holdsLock rightHolds)
  rw [← leftPoint] at leftHolds
  rw [← rightPoint] at rightHolds
  exact once left right oldLeft oldRight wasLeft wasRight oldLeftKey oldRightKey leftHolds
    rightHolds

/-- A task that has the lock, or can take it, excludes every other holder. -/
theorem LockedOnce.lone (once : LockedOnce key state) {index other : Nat} {task found : Task β}
    (present : state.tasks[index]? = some task) (isKey : task.key = key)
    (mine : task.point.holdsLock = true ∨ state.lockFree key = true)
    (isFound : state.tasks[other]? = some found) (foundKey : found.key = key)
    (holds : found.point.holdsLock = true) : other = index := by
  rcases mine with taskHolds | free
  · exact once other index found task isFound present foundKey isKey holds taskHolds
  · simp only [State.lockFree, List.all_eq_true] at free
    have notHeld := free found (List.mem_of_getElem? isFound)
    simp [foundKey, holds] at notHeld

theorem LockedOnce.holder (once : LockedOnce key state) {index : Nat} {task later : Task β}
    (present : state.tasks[index]? = some task) (isKey : task.key = key)
    (look : ∀ other, next.tasks[other]? =
      if other = index then some later else state.tasks[other]?)
    (enters : later.point.holdsLock = true → task.point.holdsLock = true ∨
      state.lockFree key = true) : LockedOnce key next := by
  intro left right leftTask rightTask isLeft isRight leftKey rightKey leftHolds rightHolds
  rw [look] at isLeft isRight
  split at isLeft
  · rename_i leftIs
    split at isRight
    · rename_i rightIs
      rw [leftIs, rightIs]
    · cases isLeft
      rw [leftIs]
      exact (once.lone present isKey (enters leftHolds) isRight rightKey rightHolds).symm
  · split at isRight
    · rename_i rightIs
      cases isRight
      rw [rightIs]
      exact once.lone present isKey (enters rightHolds) isLeft leftKey leftHolds
    · exact once left right leftTask rightTask isLeft isRight leftKey rightKey leftHolds
        rightHolds

/-- A task gets into `exclusive_lock` while nobody is inside. -/
theorem Downloaded.enters {weather : Weather} {task : Task β} {before after : TaskPoint β}
    (moved : Downloaded config weather state task before next after) :
    after.holdsLock = true → before.holdsLock = true ∨ state.lockFree task.key = true := by
  cases moved with
  | lock free => exact fun _ => Or.inr free
  | pick | past _ | enter _ | leave | finish => simp [TaskPoint.holdsLock]
  | memoryHit _ | memoryMiss _ | diskRaised _ | diskHit _ | diskMiss | keep | ask | refused _
  | reply _ | store | writeRaised _ | writeSkipped | write => exact fun _ => Or.inl rfl

theorem Downloaded.look {weather : Weather} {index : Nat} {task : Task β}
    {moved : State β} {point : TaskPoint β} (present : state.tasks[index]? = some task)
    (isMoved : Downloaded config weather state task task.point moved point) (other : Nat) :
    (moved.setTask index { task with point := point }).tasks[other]? =
      if other = index then some { task with point := point } else state.tasks[other]? := by
  rw [moved.setTask_getElem?, isMoved.frame.1, present]
  rfl

theorem SingleFlight.aside (flight : SingleFlight config key state)
    (same : SameWatched key state next)
    (downloads : next.downloads config key = state.downloads config key)
    (memory : 0 < state.downloads config key → state.inMemory key = true →
      next.inMemory key = true) : SingleFlight config key next where
  alone := LockedOnce.aside flight.alone same
  decides := by
    intro index task present isKey decides
    obtain ⟨old, was, oldKey, samePoint⟩ := same.old index task present isKey
      (TaskPoint.watched_of_holdsLock (TaskPoint.holdsLock_of_decides decides))
    rw [downloads]
    rw [← samePoint] at decides
    exact flight.decides index old was oldKey decides
  once := by
    rw [downloads]
    exact flight.once
  cached := by
    intro asked
    rw [downloads] at asked
    rcases flight.cached asked with cached | ⟨index, task, present, isKey, flies⟩
    · exact Or.inl (memory asked cached)
    · obtain ⟨later, isLater, laterKey, samePoint⟩ := same.new index task present isKey
        (TaskPoint.watched_of_holdsLock (TaskPoint.holdsLock_of_inFlight flies))
      exact Or.inr ⟨index, later, isLater, laterKey, samePoint ▸ flies⟩

theorem SingleFlight.holder (flight : SingleFlight config key state) {index : Nat}
    {task later : Task β} (present : state.tasks[index]? = some task) (isKey : task.key = key)
    (look : ∀ other, next.tasks[other]? =
      if other = index then some later else state.tasks[other]?)
    (laterKey : later.key = key)
    (enters : later.point.holdsLock = true → task.point.holdsLock = true ∨
      state.lockFree key = true)
    (decides : later.point.decides = true → next.downloads config key = 0)
    (once : next.downloads config key ≤ 1)
    (others : next.downloads config key = state.downloads config key ∨
      task.point.holdsLock = true)
    (cached : 0 < next.downloads config key → next.inMemory key = true ∨
      later.point.inFlight = true ∨ task.point.inFlight = false ∧
        0 < state.downloads config key ∧ state.inMemory key = false) :
    SingleFlight config key next := by
  refine ⟨LockedOnce.holder flight.alone present isKey look enters, ?_, once, ?_⟩
  · intro other found isFound foundKey foundDecides
    rw [look] at isFound
    split at isFound
    · cases isFound
      exact decides foundDecides
    · rename_i different
      rcases others with same | holds
      · rw [same]
        exact flight.decides other found isFound foundKey foundDecides
      · exact absurd (LockedOnce.lone flight.alone present isKey (Or.inl holds) isFound foundKey
          (TaskPoint.holdsLock_of_decides foundDecides)) different
  · intro asked
    rcases cached asked with inMemory | flies | ⟨rests, before, missing⟩
    · exact Or.inl inMemory
    · exact Or.inr ⟨index, later, (look index).trans (if_pos rfl), laterKey, flies⟩
    · rcases flight.cached before with inMemory | ⟨other, found, isFound, foundKey, flies⟩
      · rw [missing] at inMemory
        cases inMemory
      · refine Or.inr ⟨other, found, (look other).trans ?_, foundKey, flies⟩
        rw [if_neg]
        · exact isFound
        · rintro rfl
          rw [present, Option.some.injEq] at isFound
          subst isFound
          rw [rests] at flies
          cases flies

theorem LockedOnce.step (once : LockedOnce key state) {label : Label β}
    (stepped : Stepped config state label next) : LockedOnce key next := by
  have same (other : ∀ index weather, label ≠ .task index weather) :
      SameWatched key state next := stepped.sameWatched other
  cases stepped with
  | @task index weather task moved point present isMoved =>
      by_cases isKey : task.key = key
      · exact once.holder present isKey (isMoved.look present) (isKey ▸ isMoved.enters)
      · have stillPresent : moved.tasks[index]? = some task := by
          rw [isMoved.frame.1]
          exact present
        have moving : SameWatched key moved
            (moved.setTask index { task with point := point }) :=
          SameWatched.setTask stillPresent rfl fun same => absurd same isKey
        exact once.aside ((SameWatched.of_tasks isMoved.frame.1).trans moving)
  | reader _ _ | begin _ | callback _ _ _ _ | invalidate _ | list _ | remove _ _ | vanished _ _
  | removed _ | removeFails _ | change => exact once.aside (same (by simp))

/-- The request of a task counts for its own chunk only. -/
theorem downloads_ask (task : Task β) (last : Nat) :
    ({ state with
        requests := ⟨task.fileId, config.chunkStart task.chunk, last⟩ :: state.requests
      } : State β).downloads config key =
      if task.key = key then state.downloads config key + 1
      else state.downloads config key := by
  have sameStart : config.chunkStart task.chunk = config.chunkStart key.2 ↔
      task.chunk = key.2 := by
    constructor
    · exact Nat.eq_of_mul_eq_mul_right config.chunkSize_pos
    · exact congrArg config.chunkStart
  have isKey : (task.fileId = key.1 ∧ config.chunkStart task.chunk = config.chunkStart key.2) ↔
      task.key = key := by
    rw [sameStart, Task.key, Prod.ext_iff]
  unfold State.downloads
  rw [List.filter_cons]
  simp only [decide_eq_true_eq, isKey]
  split <;> rfl

theorem SingleFlight.task (flight : SingleFlight config key state) {index : Nat}
    {weather : Weather} {task : Task β} {moved : State β} {point : TaskPoint β}
    (present : state.tasks[index]? = some task)
    (isMoved : Downloaded config weather state task task.point moved point)
    (answers : task.key = key → weather.storageFails = false)
    (stays : 0 < state.downloads config key → state.inMemory key = true ∨
        state.stores key (.task index weather) = true → moved.inMemory key = true) :
    SingleFlight config key (moved.setTask index { task with point := point }) := by
  have keeps (asked : 0 < state.downloads config key) (cached : state.inMemory key = true) :
      moved.inMemory key = true := stays asked (Or.inl cached)
  by_cases isKey : task.key = key
  · have look := isMoved.look present
    have enters : point.holdsLock = true → task.point.holdsLock = true ∨
        state.lockFree key = true := isKey ▸ isMoved.enters
    -- a step that neither asks nor ends a download
    have quiet (downloads : moved.downloads config key = state.downloads config key)
        (decides : point.decides = true → state.downloads config key = 0)
        (flies : task.point.inFlight = true → point.inFlight = true) :
        SingleFlight config key (moved.setTask index { task with point := point }) := by
      refine flight.holder present isKey look isKey enters (fun isDecided => ?_) ?_
        (Or.inl downloads) fun asked => ?_
      · exact downloads.trans (decides isDecided)
      · exact downloads.le.trans flight.once
      · have before : 0 < state.downloads config key := downloads ▸ asked
        cases cached : state.inMemory key with
        | true => exact Or.inl (keeps before cached)
        | false =>
            cases isFlying : task.point.inFlight with
            | true => exact Or.inr (Or.inl (flies isFlying))
            | false => exact Or.inr (Or.inr ⟨rfl, before, rfl⟩)
    obtain ⟨fileId, chunk, total, isPrefetch, before, callbacks⟩ := task
    have stillZero (decides : before.decides = true) : state.downloads config key = 0 :=
      flight.decides index _ present isKey decides
    cases isMoved with
    | pick | past _ | enter _ | lock _ | memoryHit _ => exact quiet rfl nofun nofun
    | memoryMiss absent =>
        refine quiet rfl (fun _ => ?_) nofun
        by_contra asked
        rcases flight.cached (Nat.pos_of_ne_zero asked) with cached |
          ⟨other, found, isFound, foundKey, flies⟩
        · rw [State.inMemory, ← isKey, absent] at cached
          cases cached
        · have same := flight.alone other index found _ isFound present foundKey isKey
            (TaskPoint.holdsLock_of_inFlight flies) rfl
          subst same
          rw [present, Option.some.injEq] at isFound
          subst isFound
          cases flies
    | diskRaised raised => exact quiet rfl nofun nofun
    | diskHit found => exact quiet rfl (fun _ => stillZero rfl) nofun
    | diskMiss => exact quiet rfl (fun _ => stillZero rfl) nofun
    | keep => exact quiet rfl nofun nofun
    | ask =>
        have one : (State.downloads _ config key) = state.downloads config key + 1 :=
          (downloads_ask ⟨fileId, chunk, total, isPrefetch, TaskPoint.request, callbacks⟩
            (config.chunkEnd chunk total)).trans (if_pos isKey)
        refine flight.holder present isKey look isKey enters nofun ?_
          (Or.inr rfl) fun _ => Or.inr (Or.inl rfl)
        exact (one.trans (by rw [stillZero rfl])).le
    | refused fails =>
        rw [answers isKey] at fails
        cases fails
    | reply _ => exact quiet rfl nofun fun _ => rfl
    | store =>
        have stored : state.stores key (.task index weather) = true := by
          simp [State.stores, present, isKey]
        refine flight.holder present isKey look isKey enters nofun flight.once
          (Or.inl rfl) fun asked => Or.inl (stays asked (Or.inr stored))
    | writeRaised _ | writeSkipped | write | leave | finish =>
        exact quiet rfl nofun nofun
  · have stillPresent : moved.tasks[index]? = some task := by
      rw [isMoved.frame.1]
      exact present
    have moving : SameWatched key moved (moved.setTask index { task with point := point }) :=
      SameWatched.setTask stillPresent rfl fun same => absurd same isKey
    have same : SameWatched key state moved := .of_tasks isMoved.frame.1
    refine flight.aside (same.trans moving) ?_ keeps
    change moved.downloads config key = _
    generalize task.point = before at isMoved
    cases isMoved with
    | ask => exact (downloads_ask task _).trans (if_neg isKey)
    | pick | past _ | enter _ | lock _ | memoryHit _ | memoryMiss _ | diskRaised _ | diskHit _
    | diskMiss | keep | refused _ | reply _ | store | writeRaised _ | writeSkipped | write
    | leave | finish => rfl

end SingleFlight

/-! ## No reader waits in vain -/

/-- The task can no longer be cancelled. -/
def Task.settled (task : Task β) : Prop :=
  task.isPrefetch = true → task.point ≠ .queued ∧ task.point ≠ .cancelled

/-- A promotion cancels prefetches only, and reads wait for tasks that are none
or have started. -/
structure Attended (state : State β) : Prop where
  flags : ∀ key index wasPrefetch, state.active.lookup key = some (index, wasPrefetch) →
    ∃ task, state.tasks[index]? = some task ∧ task.isPrefetch = wasPrefetch
  cancelled : ∀ (index : Nat) (task : Task β), state.tasks[index]? = some task →
    task.point = .cancelled → task.isPrefetch = true
  waited : ∀ (reader : Nat) (found : Reader β) (chunk index : Nat),
    state.readers reader = some found → found.point.awaits = some (chunk, index) →
    ∃ task, state.tasks[index]? = some task ∧ task.settled

section Attended

variable {config : Config} {key : ChunkKey} {state next : State β}

theorem Attended.congr (attended : Attended state) (tasks : next.tasks = state.tasks)
    (active : ∀ key entry, next.active.lookup key = some entry →
      state.active.lookup key = some entry)
    (readers : next.readers = state.readers) : Attended next := by
  refine ⟨?_, ?_, ?_⟩
  · rw [tasks]
    exact fun key index wasPrefetch found =>
      attended.flags key index wasPrefetch (active _ _ found)
  · rw [tasks]
    exact attended.cancelled
  · rw [tasks, readers]
    exact attended.waited

theorem Attended.setReader (attended : Attended state) (index : Nat) {call : ReadCall}
    {point : ReaderPoint β}
    (waits : ∀ chunk task, point.awaits = some (chunk, task) →
      ∃ found : Task β, state.tasks[task]? = some found ∧ found.settled) :
    Attended (state.setReader index ⟨call, point⟩) := by
  refine ⟨attended.flags, attended.cancelled, ?_⟩
  intro reader found chunk task present awaits
  rw [State.setReader_readers] at present
  split at present
  · cases present
    exact waits chunk task awaits
  · exact attended.waited reader found chunk task present awaits

theorem Attended.setTask (attended : Attended state) {index : Nat} {task later : Task β}
    (present : state.tasks[index]? = some task) (same : later.isPrefetch = task.isPrefetch)
    (cancelled : later.point = .cancelled → later.isPrefetch = true)
    (settled : task.settled → later.settled) : Attended (state.setTask index later) := by
  have look (other : Nat) := state.setTask_getElem? index other later
  have kept {other : Nat} {found : Task β} (isFound : state.tasks[other]? = some found) :
      ∃ after : Task β, (state.setTask index later).tasks[other]? = some after ∧
        after.isPrefetch = found.isPrefetch ∧ (found.settled → after.settled) := by
    by_cases isIndex : other = index
    · subst isIndex
      rw [present, Option.some.injEq] at isFound
      subst isFound
      exact ⟨later, by rw [look, if_pos rfl, present]; rfl, same, settled⟩
    · exact ⟨found, by rw [look, if_neg isIndex, isFound], rfl, id⟩
  refine ⟨?_, ?_, ?_⟩
  · intro key other wasPrefetch found
    obtain ⟨old, isOld, flag⟩ := attended.flags key other wasPrefetch found
    obtain ⟨after, isAfter, sameFlag, -⟩ := kept isOld
    exact ⟨after, isAfter, sameFlag.trans flag⟩
  · intro other found isFound isCancelled
    rw [look] at isFound
    split at isFound
    · rw [present, Option.map_some, Option.some.injEq] at isFound
      subst isFound
      exact cancelled isCancelled
    · exact attended.cancelled other found isFound isCancelled
  · intro reader found chunk other isReader awaits
    obtain ⟨old, isOld, isSettled⟩ := attended.waited reader found chunk other isReader awaits
    obtain ⟨after, isAfter, -, still⟩ := kept isOld
    exact ⟨after, isAfter, still isSettled⟩

theorem submit_getElem? {submitted : ChunkKey} {total : Nat} {isPrefetch : Bool} {index : Nat}
    {task : Task β} (present : state.tasks[index]? = some task) :
    (state.submit submitted total isPrefetch).tasks[index]? = some task :=
  (List.getElem?_append_left (List.getElem?_eq_some_iff.mp present).1).trans present

theorem submit_getElem?_length (submitted : ChunkKey) (total : Nat) (isPrefetch : Bool) :
    (state.submit submitted total isPrefetch).tasks[state.tasks.length]? =
      some ⟨submitted.1, submitted.2, total, isPrefetch, .queued, 0⟩ :=
  List.getElem?_concat_length

theorem Attended.submit (attended : Attended state) (submitted : ChunkKey) (total : Nat)
    (isPrefetch : Bool) : Attended (state.submit submitted total isPrefetch) := by
  refine ⟨?_, ?_, ?_⟩
  · intro key index wasPrefetch found
    change (state.active.insert _ _).lookup key = _ at found
    rw [Dict.lookup_insert_eq] at found
    split at found
    · cases found
      exact ⟨_, submit_getElem?_length submitted total isPrefetch, rfl⟩
    · obtain ⟨task, present, flag⟩ := attended.flags key index wasPrefetch found
      exact ⟨task, submit_getElem? present, flag⟩
  · intro index task present isCancelled
    change (state.tasks ++ [_])[index]? = some task at present
    rcases Nat.lt_or_ge index state.tasks.length with below | above
    · rw [List.getElem?_append_left below] at present
      exact attended.cancelled index task present isCancelled
    · rw [List.getElem?_append_right above, List.getElem?_singleton] at present
      split at present
      · cases present
        cases isCancelled
      · cases present
  · intro reader found chunk index isReader awaits
    obtain ⟨task, present, settled⟩ := attended.waited reader found chunk index isReader awaits
    exact ⟨task, submit_getElem? present, settled⟩

/-- A read gets the future of a task that can no longer be cancelled. -/
theorem Attended.scheduledOrGot (attended : Attended state) {scheduled : State.Scheduled}
    {asked : ChunkKey} {total : Nat} {isPrefetch : Bool}
    (effect : ScheduledOrGot state asked total isPrefetch scheduled next) :
    Attended next ∧ (isPrefetch = false → ∀ index,
      scheduled = .joined index ∨ scheduled = .submitted index →
        ∃ task, next.tasks[index]? = some task ∧ task.settled) := by
  have cancels {index : Nat} {task : Task β} (present : state.tasks[index]? = some task)
      (queued : task.point = .queued) (found : state.active.lookup asked = some (index, true)) :
      Attended (state.setTask index { task with point := .cancelled }) := by
    obtain ⟨old, isOld, flag⟩ := attended.flags _ _ _ found
    rw [present, Option.some.injEq] at isOld
    subst isOld
    exact attended.setTask present rfl (fun _ => flag) fun settled =>
      absurd queued (settled flag).1
  -- the second of two submissions is the one that counts
  have second (before : State β) (asks : isPrefetch = false)
      (length : before.tasks.length = state.tasks.length) :
      ∃ task, ((before.submit asked total false).submit asked total
        isPrefetch).tasks[state.tasks.length + 1]? = some task ∧ task.settled := by
    have last : (before.submit asked total false).tasks.length = state.tasks.length + 1 := by
      rw [← length]
      exact List.length_append
    rw [← last]
    exact ⟨_, submit_getElem?_length _ _ _, fun isPrefetch => by simp [asks] at isPrefetch⟩
  cases effect with
  | @joined index wasPrefetch found started =>
      refine ⟨attended, fun asks other isJoined => ?_⟩
      have same : other = index := by simpa [eq_comm] using isJoined
      subst same
      obtain ⟨task, present, flag⟩ := attended.flags _ _ _ found
      exact ⟨task, present, fun isPrefetch =>
        started asks (flag.symm.trans isPrefetch) task present⟩
  | submitted absent =>
      refine ⟨attended.submit _ _ _, fun asks other isSubmitted => ?_⟩
      have same : other = state.tasks.length := by simpa [eq_comm] using isSubmitted
      subst same
      exact ⟨_, submit_getElem?_length _ _ _, fun isPrefetch => by simp [asks] at isPrefetch⟩
  | promoted asks found present queued noCallback =>
      refine ⟨((cancels present queued found).submit _ _ _).submit _ _ _, ?_⟩
      intro _ other isSubmitted
      have same : other = state.tasks.length + 1 := by simpa [eq_comm] using isSubmitted
      subst same
      exact second _ asks List.length_set
  | promotedAgain asks found present cancelled =>
      refine ⟨(attended.submit _ _ _).submit _ _ _, ?_⟩
      intro _ other isSubmitted
      have same : other = state.tasks.length + 1 := by simpa [eq_comm] using isSubmitted
      subst same
      exact second _ asks rfl
  | deadlocked asks found present queued callback =>
      refine ⟨(cancels present queued found).congr rfl (fun _ _ found => found) rfl, ?_⟩
      intro _ other isJoined
      simp at isJoined

theorem addDoneCallback_task {added : ChunkKey} {index other : Nat} {task : Task β}
    (isAdded : state.addDoneCallback added index = some next)
    (present : state.tasks[other]? = some task) :
    ∃ later, next.tasks[other]? = some later ∧ later.isPrefetch = task.isPrefetch ∧
      later.point = task.point := by
  unfold State.addDoneCallback at isAdded
  split at isAdded
  · rename_i found isFound
    split at isAdded
    · split at isAdded <;> cases isAdded
      exact ⟨task, present, rfl, rfl⟩
    · split at isAdded <;> cases isAdded
      exact ⟨task, present, rfl, rfl⟩
    · cases isAdded
      rw [state.setTask_getElem?]
      split
      · rename_i same
        subst same
        rw [present, Option.some.injEq] at isFound
        subst isFound
        rw [present]
        exact ⟨_, rfl, rfl, rfl⟩
      · exact ⟨task, present, rfl, rfl⟩
  · cases isAdded

theorem Attended.addDoneCallback (attended : Attended state) {added : ChunkKey} {index : Nat}
    (isAdded : state.addDoneCallback added index = some next) : Attended next := by
  unfold State.addDoneCallback at isAdded
  have removed : Attended (state.removeFuture added) := by
    refine attended.congr rfl (fun key entry found => ?_) rfl
    change (state.active.erase added).lookup key = _ at found
    rw [Dict.lookup_erase_eq] at found
    split at found
    · cases found
    · exact found
  split at isAdded
  · rename_i task present
    split at isAdded
    · split at isAdded <;> cases isAdded
      exact removed
    · split at isAdded <;> cases isAdded
      exact removed
    · cases isAdded
      exact attended.setTask present rfl (attended.cancelled index task present) id
  · cases isAdded

theorem Attended.moved (attended : Attended state) {weather : Weather} {index : Nat}
    {call : ReadCall} {before point : ReaderPoint β} {moved : State β}
    (isReader : state.readers index = some ⟨call, before⟩)
    (isMoved : Moved config weather state call before moved point) :
    Attended (moved.setReader index ⟨call, point⟩) := by
  have prefetched (later : List Nat) : (afterPrefetch later : ReaderPoint β).awaits = none := by
    cases later <;> rfl
  have rests {base : State β} (isAttended : Attended base) {later : ReaderPoint β}
      (awaits : later.awaits = none) : Attended (base.setReader index ⟨call, later⟩) :=
    isAttended.setReader index fun chunk task isTask => by simp [awaits] at isTask
  cases isMoved with
  | prefetchJoined _ scheduled =>
      exact rests (attended.scheduledOrGot (FuseDrive.Cache.scheduledOrGot scheduled)).1
        (prefetched _)
  | prefetchSubmitted _ scheduled | prefetchDeadlocked _ scheduled | deadlocked _ scheduled =>
      exact rests (attended.scheduledOrGot (FuseDrive.Cache.scheduledOrGot scheduled)).1 rfl
  | prefetchRegistered added => exact rests (attended.addDoneCallback added) (prefetched _)
  | joined _ scheduled =>
      obtain ⟨after, gets⟩ :=
        attended.scheduledOrGot (FuseDrive.Cache.scheduledOrGot scheduled)
      refine after.setReader index fun chunk task isTask => ?_
      cases isTask
      exact gets rfl _ (Or.inl rfl)
  | submitted _ scheduled =>
      obtain ⟨after, gets⟩ :=
        attended.scheduledOrGot (FuseDrive.Cache.scheduledOrGot scheduled)
      refine after.setReader index fun chunk task isTask => ?_
      cases isTask
      exact gets rfl _ (Or.inr rfl)
  | @registered chunk todo result task next added =>
      refine (attended.addDoneCallback added).setReader index fun _ _ isTask => ?_
      cases isTask
      obtain ⟨found, isFound, settled⟩ := attended.waited index _ chunk task isReader rfl
      obtain ⟨later, isLater, sameFlag, samePoint⟩ := addDoneCallback_task added isFound
      refine ⟨later, isLater, ?_⟩
      rw [Task.settled, sameFlag, samePoint]
      exact settled
  | remember | memoryHit _ | put =>
      refine rests ?_ rfl
      exact attended.congr rfl (fun _ _ found => found) rfl
  | skipPrefetch => exact rests attended (prefetched _)
  | nextPrefetch _ | finish | memoryMiss _ | diskRaised _ | diskHit _ | diskMiss
  | received _ _ | raised _ _ => exact rests attended rfl

theorem Attended.step (attended : Attended state) {label : Label β}
    (stepped : Stepped config state label next) : Attended next := by
  cases stepped with
  | @begin index call unused =>
      refine attended.setReader index fun chunk task awaits => ?_
      unfold State.firstPoint at awaits
      split at awaits
      · cases awaits
      · split at awaits <;> cases awaits
  | @reader index weather reader moved point present isMoved =>
      obtain ⟨call, before⟩ := reader
      exact attended.moved present isMoved
  | @task index weather task moved point present isMoved =>
      have frame := isMoved.frame
      have active : moved.active = state.active := by
        generalize task.point = before at isMoved
        cases isMoved <;> rfl
      have moving : Attended moved :=
        attended.congr frame.1 (by rw [active]; exact fun _ _ found => found) frame.2.1
      have isPresent : moved.tasks[index]? = some task := by
        rw [frame.1]
        exact present
      refine moving.setTask isPresent rfl ?_ ?_
      · generalize task.point = before at isMoved
        cases isMoved <;> exact nofun
      · intro _ isPrefetch
        change point ≠ .queued ∧ point ≠ .cancelled
        generalize task.point = before at isMoved
        cases isMoved <;> simp
  | @callback index task outcome present isDone unlocked registered =>
      have removed : Attended (state.removeFuture task.key) := by
        refine attended.congr rfl (fun key entry found => ?_) rfl
        change (state.active.erase task.key).lookup key = _ at found
        rw [Dict.lookup_erase_eq] at found
        split at found
        · cases found
        · exact found
      exact removed.setTask present rfl (attended.cancelled index task present) id
  | invalidate _ | list _ | remove _ _ | vanished _ _ | removed _ | removeFails _ | change =>
      exact attended.congr rfl (fun _ _ found => found) rfl

end Attended

/-! ## Runs -/

section Runs

variable {config : Config} {content : List β} {key : ChunkKey} {diskWorks : Prop}
  {state next start finish : State β}

/-- The invariant of these runs. -/
structure Downloading (config : Config) (content : List β) (key : ChunkKey) (diskWorks : Prop)
    (state : State β) : Prop where
  drive : state.drive key.1 = content
  upheld : Upheld config (exactLaw config key.1 content) (fun _ => True) (fun _ => True) state
  onDisk : (exactLaw config key.1 content).OnDisk state
  flight : SingleFlight config key state
  attended : Attended state
  fine : diskWorks → ∀ (index : Nat) (task : Task β), state.tasks[index]? = some task →
    task.key = key → task.point.raised = false

theorem TaskPoint.watched_of_raised {point : TaskPoint β} (raised : point.raised = true) :
    point.watched = true := by
  rw [TaskPoint.watched, raised, Bool.or_true]

/-- Without a failure of the storage or of the disk no task raises. -/
theorem Downloaded.fine {weather : Weather} {task : Task β} {before after : TaskPoint β}
    (moved : Downloaded config weather state task before next after)
    (answers : weather.storageFails = false) (works : weather.disk ≠ .raised)
    (fine : before.raised = false) : after.raised = false := by
  have quiet : State.diskRaises config weather = false := by
    simp [State.diskRaises, works]
  cases moved with
  | diskRaised raised | writeRaised raised =>
      rw [quiet] at raised
      cases raised
  | refused fails =>
      rw [answers] at fails
      cases fails
  | leave | finish => rename_i outcome; cases outcome <;> first | rfl | exact fine
  | pick | past _ | enter _ | lock _ | memoryHit _ | memoryMiss _ | diskHit _ | diskMiss | keep
  | ask | reply _ | store | writeSkipped | write => rfl

theorem Idle.downloading (idle : Idle config key.1 content start) :
    Downloading config content key diskWorks start where
  drive := idle.drive
  upheld := idle.exact.upheld
  onDisk := idle.disk
  flight := by
    have none : start.downloads config key = 0 := by simp [State.downloads, idle.requests]
    constructor <;> simp [idle.tasks, none]
  attended := by
    constructor <;> simp [idle.tasks, idle.active, idle.readers]
  fine := by simp [idle.tasks]

theorem Downloading.flight_step (downloading : Downloading config content key diskWorks state)
    {label : Label β} (undisturbed : Undisturbed config content key diskWorks state label)
    (taken : step config state label = some next) :
    SingleFlight config key next ∧ (diskWorks → ∀ (index : Nat) (task : Task β),
      next.tasks[index]? = some task → task.key = key → task.point.raised = false) := by
  obtain ⟨calm, stays⟩ := undisturbed
  have keeps (asked : 0 < state.downloads config key) (cached : state.inMemory key = true) :
      next.inMemory key = true := stays asked (Or.inl cached) next taken
  have flight := downloading.flight
  -- what a step that asks nothing and runs no task of the chunk leaves as it is
  have aside (same : SameWatched key state next)
      (requests : next.requests = state.requests) :
      SingleFlight config key next ∧ (diskWorks → ∀ (index : Nat) (task : Task β),
        next.tasks[index]? = some task → task.key = key → task.point.raised = false) := by
    refine ⟨flight.aside same (by simp only [State.downloads, requests]) keeps, ?_⟩
    intro works index task present isKey
    by_contra raised
    rw [Bool.not_eq_false] at raised
    obtain ⟨old, was, oldKey, samePoint⟩ :=
      same.old index task present isKey (TaskPoint.watched_of_raised raised)
    rw [← samePoint, downloading.fine works index old was oldKey] at raised
    cases raised
  have stepped := stepped_of_step taken
  have same (other : ∀ index weather, label ≠ .task index weather) :
      SameWatched key state next := stepped.sameWatched other
  cases stepped with
  | reader present isMoved => exact aside (same (by simp)) isMoved.frame.2.2.2.2
  | @task index weather task moved point present isMoved =>
      have answers (isKey : task.key = key) := calm task present isKey
      have stored (asked : 0 < state.downloads config key) (cached : state.inMemory key = true ∨
          state.stores key (.task index weather) = true) : moved.inMemory key = true := by
        have kept := stays asked cached _ taken
        exact kept
      refine ⟨flight.task present isMoved (fun isKey => (answers isKey).1) stored, ?_⟩
      intro works other found isFound isKey
      rw [moved.setTask_getElem?, isMoved.frame.1, present] at isFound
      split at isFound
      · cases isFound
        exact isMoved.fine (answers isKey).1 ((answers isKey).2 works)
          (downloading.fine works index task present isKey)
      · exact downloading.fine works other found isFound isKey
  | begin _ | callback _ _ _ _ | invalidate _ | list _ | remove _ _ | vanished _ _ | removed _
  | removeFails _ | change =>
      exact aside (same (by simp)) rfl

theorem Downloading.step (downloading : Downloading config content key diskWorks state)
    {label : Label β} (undisturbed : Undisturbed config content key diskWorks state label)
    (taken : step config state label = some next) :
    Downloading config content key diskWorks next := by
  obtain ⟨flight, fine⟩ := downloading.flight_step undisturbed taken
  have stepped := stepped_of_step taken
  have same : SameContent key.1 content label := by
    cases label with
    | begin index call => exact undisturbed.1
    | change fileId changed => exact undisturbed.1
    | reader _ _ | task _ _ | callback _ | invalidate _ _ | remove _ | removeFails _ => trivial
  have constant : Constant config key.1 content next :=
    Constant.step ⟨downloading.drive, downloading.upheld, downloading.onDisk⟩ same stepped
  exact ⟨constant.drive, constant.upheld, constant.onDisk, flight,
    downloading.attended.step stepped, fine⟩

theorem Downloading.downloadedOnce (downloading : Downloading config content key diskWorks state) :
    DownloadedOnce config content key diskWorks state where
  once := downloading.flight.once
  cached := downloading.upheld.memory key.2
  shared := by
    intro reader call point index task isReader file awaits present
    have held := (downloading.upheld.readers reader _ isReader file).2
    have isTask : state.TaskOf index key := by
      cases point <;> cases awaits <;> exact (held trivial).2.2
    obtain ⟨found, isFound, isKey⟩ := isTask
    rw [present, Option.some.injEq] at isFound
    subst isFound
    obtain ⟨waited, isWaited, settled⟩ :=
      downloading.attended.waited reader _ key.2 index isReader awaits
    rw [present, Option.some.injEq] at isWaited
    subst isWaited
    refine ⟨fun data isDone => ?_, fun cancelled => ?_, fun works failed => ?_⟩
    · have outcome := (downloading.upheld.tasks index task present (congrArg Prod.fst isKey)).2
      rw [isDone] at outcome
      exact congrArg Prod.snd isKey ▸ outcome trivial
    · exact (settled (downloading.attended.cancelled index task present cancelled)).2 cancelled
    · have fine := downloading.fine works index task present isKey
      rw [failed] at fine
      cases fine
  results := by
    intro index call result present file
    have soFar := (downloading.upheld.readers index _ present file).2 trivial
    simpa [exactLaw] using soFar

/-- The storage is asked for a chunk at most once, and every reader of the
chunk gets those bytes, as long as the storage answers and the chunk stays
cached after its first download. -/
theorem downloadedOnce_of_reaches (idle : Idle config key.1 content start)
    (reached : Reaches (step config) (Undisturbed config content key diskWorks) start finish) :
    DownloadedOnce config content key diskWorks finish := by
  have downloading : Downloading config content key diskWorks finish :=
    reached.invariant (fun downloading undisturbed taken => downloading.step undisturbed taken)
      idle.downloading
  exact downloading.downloadedOnce

end Runs

/-- Two reads of the second chunk, each with a task of its own for it: the
first promotes its own prefetch. -/
def twoTasks : List (Label Nat) :=
  askPrefetched 4 0 ++ .reader 1 fairWeather :: List.replicate 11 (.task 3 fairWeather) ++
    List.replicate 6 (.task 4 fairWeather) ++ List.replicate 2 (.reader 1 fairWeather)

instance (config : Config) (key : ChunkKey) (state : State Nat) (label : Label Nat) :
    Decidable (StaysCached config key state label) :=
  decidable_of_iff (0 < state.downloads config key →
      (state.inMemory key = true ∨ state.stores key label = true) →
        ∀ next ∈ step config state label, next.inMemory key = true) Iff.rfl

instance (config : Config) (content : List Nat) (key : ChunkKey) (state : State Nat)
    (label : Label Nat) : Decidable (Undisturbed config content key True state label) := by
  unfold Undisturbed
  cases label <;> simp only <;> infer_instance

theorem downloadedOnce_of_reaches_twoTasks :
    ∃ finish, runAllowed (step oneByte) (Undisturbed oneByte [1, 2, 3] (['f'], 1) True)
        (State.empty 5 [1, 2, 3]) twoTasks = some finish ∧
      finish.readers 1 = some ⟨⟨['f'], 1, 1, 3⟩, .finished [2]⟩ ∧
      DownloadedOnce oneByte [1, 2, 3] (['f'], 1) True finish := by
  obtain ⟨finish, executed⟩ := Option.isSome_iff_exists.mp
    (show (runAllowed (step oneByte) (Undisturbed oneByte [1, 2, 3] (['f'], 1) True)
      (State.empty 5 [1, 2, 3]) twoTasks).isSome from rfl)
  have reader : (runAllowed (step oneByte) (Undisturbed oneByte [1, 2, 3] (['f'], 1) True)
      (State.empty 5 [1, 2, 3]) twoTasks).map (·.readers 1) =
        some (some ⟨⟨['f'], 1, 1, 3⟩, .finished [2]⟩) := rfl
  rw [executed] at reader
  have idle : Idle oneByte ['f'] [1, 2, 3] (State.empty 5 [1, 2, 3]) :=
    ⟨rfl, nofun, nofun, rfl, rfl, rfl, fun _ => rfl, rfl⟩
  exact ⟨finish, executed, Option.some.inj reader,
    downloadedOnce_of_reaches idle (Reaches.of_runAllowed executed)⟩

end FuseDrive.Cache
