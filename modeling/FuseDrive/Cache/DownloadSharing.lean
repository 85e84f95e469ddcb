import FuseDrive.Cache.Invalidation

/-!
# One download task for each chunk

`schedule_or_get_chunk_download_task` registers the future of a chunk in
`active_downloads` and a done-callback takes it out again.  Both go wrong in
the branch that promotes a prefetch from the work queue: a callback that was
registered runs in the promoting thread, which holds the lock the callback
takes, and without one the chunk is submitted twice.
-/

namespace FuseDrive.Cache

open Transition

variable {β : Type}

/-- Queued or running. -/
def TaskPoint.isLive : TaskPoint β → Bool
  | .cancelled | .done _ => false
  | _ => true

/-- The chunk and the future to which the reader is about to add the
done-callback. -/
def ReaderPoint.registers : ReaderPoint β → Option (Nat × Nat)
  | .prefetch chunk _ (.register task) | .register chunk _ _ task => some (chunk, task)
  | _ => none

/-- No thread waits for the lock it holds. -/
def NoSelfWait (state : State β) : Prop :=
  ∀ index reader, state.readers index = some reader → reader.point ≠ .frozen

/-- At most one task for a chunk is queued or running, and it is the registered
one. -/
structure Shared (state : State β) : Prop where
  single : ∀ (left right : Nat) (leftTask rightTask : Task β),
    state.tasks[left]? = some leftTask → state.tasks[right]? = some rightTask →
    leftTask.point.isLive = true → rightTask.point.isLive = true →
    leftTask.key = rightTask.key → left = right
  registered : ∀ (index : Nat) (task : Task β), state.tasks[index]? = some task →
    task.point.isLive = true →
    ∃ wasPrefetch, state.active.lookup task.key = some (index, wasPrefetch)

/-- Sharing is exact whenever `active_downloads_lock` is free. -/
def SharedWhenFree (state : State β) : Prop :=
  state.activeLocked = false → Shared state

/-- The future of a prefetch, if it can still be cancelled. -/
def State.cancellable (state : State β) (index : Nat) : Option (Task β) :=
  match state.tasks[index]? with
  | some task =>
      match task.point with
      | .queued => some task
      | _ => none
  | none => none

/-- The task a read is about to promote: its prefetch is the registered future
of the chunk and can still be cancelled. -/
def State.promoted (state : State β) : Label β → Option (Task β)
  | .reader index _ =>
      match state.readers index with
      | some ⟨call, .schedule chunk _ _⟩ =>
          match state.active.lookup (call.fileId, chunk) with
          | some (task, true) => state.cancellable task
          | _ => none
      | _ => none
  | _ => none

/-- The discipline: no read promotes a prefetch that has its done-callback. -/
def NoCallbackPromoted (state : State β) (label : Label β) : Prop :=
  ∀ task ∈ state.promoted label, task.callbacks = 0

/-- The discipline: no read promotes a prefetch that has no done-callback
yet. -/
def NoneUnregisteredPromoted (state : State β) (label : Label β) : Prop :=
  ∀ task ∈ state.promoted label, 0 < task.callbacks

theorem cancellable_eq_some {state : State β} {index : Nat} {task : Task β} :
    state.cancellable index = some task ↔
      state.tasks[index]? = some task ∧ task.point = .queued := by
  unfold State.cancellable
  cases state.tasks[index]? with
  | none => simp
  | some found =>
      obtain ⟨fileId, chunk, total, isPrefetch, point, callbacks⟩ := found
      cases point <;> simp only [Option.some.injEq, reduceCtorEq, false_iff, not_and]
      case queued =>
        constructor
        · rintro rfl
          exact ⟨rfl, rfl⟩
        · exact And.left
      all_goals
        rintro rfl
        simp

theorem promoted_of_schedule {state : State β} {reader index : Nat} {weather : Weather}
    {call : ReadCall} {chunk : Nat} {todo : List Nat} {result : List β} {task : Task β}
    (isReader : state.readers reader = some ⟨call, .schedule chunk todo result⟩)
    (found : state.active.lookup (call.fileId, chunk) = some (index, true))
    (present : state.tasks[index]? = some task) (queued : task.point = .queued) :
    state.promoted (.reader reader weather) = some task := by
  simp only [State.promoted, isReader, found]
  exact cancellable_eq_some.mpr ⟨present, queued⟩

theorem schedule_of_promoted {state : State β} {label : Label β} {task : Task β}
    (promotes : state.promoted label = some task) :
    ∃ (reader index : Nat) (weather : Weather) (call : ReadCall) (chunk : Nat)
      (todo : List Nat) (result : List β), label = .reader reader weather ∧
      state.readers reader = some ⟨call, .schedule chunk todo result⟩ ∧
      state.active.lookup (call.fileId, chunk) = some (index, true) ∧
      state.tasks[index]? = some task ∧ task.point = .queued := by
  unfold State.promoted at promotes
  split at promotes
  · rename_i reader weather
    split at promotes
    · rename_i call chunk todo result isReader
      split at promotes
      · rename_i index found
        obtain ⟨present, queued⟩ := cancellable_eq_some.mp promotes
        exact ⟨reader, index, weather, call, chunk, todo, result, rfl, isReader, found, present,
          queued⟩
      · cases promotes
    · cases promotes
  · cases promotes

/-! ## What scheduling does -/

/-- The effect of the critical section of
`schedule_or_get_chunk_download_task`. -/
inductive ScheduledOrGot (state : State β) (key : ChunkKey) (total : Nat) (isPrefetch : Bool) :
    State.Scheduled → State β → Prop where
  | joined {index wasPrefetch} (found : state.active.lookup key = some (index, wasPrefetch))
      (started : isPrefetch = false → wasPrefetch = true → ∀ task,
        state.tasks[index]? = some task → task.point ≠ .queued ∧ task.point ≠ .cancelled) :
      ScheduledOrGot state key total isPrefetch (.joined index) state
  | submitted (absent : state.active.lookup key = none) :
      ScheduledOrGot state key total isPrefetch (.submitted state.tasks.length)
        (state.submit key total isPrefetch)
  | promoted {index task} (asked : isPrefetch = false)
      (found : state.active.lookup key = some (index, true))
      (present : state.tasks[index]? = some task) (queued : task.point = .queued)
      (noCallback : task.callbacks = 0) :
      ScheduledOrGot state key total isPrefetch (.submitted (state.tasks.length + 1))
        (((state.setTask index { task with point := .cancelled }).submit key total
          false).submit key total isPrefetch)
  | promotedAgain {index task} (asked : isPrefetch = false)
      (found : state.active.lookup key = some (index, true))
      (present : state.tasks[index]? = some task) (cancelled : task.point = .cancelled) :
      ScheduledOrGot state key total isPrefetch (.submitted (state.tasks.length + 1))
        ((state.submit key total false).submit key total isPrefetch)
  | deadlocked {index task} (asked : isPrefetch = false)
      (found : state.active.lookup key = some (index, true))
      (present : state.tasks[index]? = some task) (queued : task.point = .queued)
      (callback : 0 < task.callbacks) :
      ScheduledOrGot state key total isPrefetch .deadlocked
        { state.setTask index { task with point := .cancelled } with activeLocked := true }

theorem scheduledOrGot {state next : State β} {key : ChunkKey} {total : Nat}
    {isPrefetch : Bool} {scheduled : State.Scheduled}
    (taken : state.scheduleOrGet key total isPrefetch = (scheduled, next)) :
    ScheduledOrGot state key total isPrefetch scheduled next := by
  unfold State.scheduleOrGet at taken
  split at taken
  · cases taken
    exact .submitted ‹_›
  · rename_i index wasPrefetch found
    split at taken
    · rename_i promotes
      simp only [Bool.and_eq_true, Bool.not_eq_true'] at promotes
      obtain ⟨asked, rfl⟩ := promotes
      split at taken
      · rename_i task present
        split at taken
        · rename_i queued
          simp only at taken
          split at taken <;> cases taken
          · exact .deadlocked asked found present queued ‹_›
          · exact .promoted asked found present queued (Nat.eq_zero_of_not_pos ‹_›)
        · rename_i cancelled
          cases taken
          exact .promotedAgain asked found present cancelled
        · rename_i notQueued notCancelled
          cases taken
          refine .joined found fun _ _ other isOther => ?_
          rw [present, Option.some.injEq] at isOther
          exact isOther ▸ ⟨notQueued, notCancelled⟩
      · rename_i absent
        cases taken
        exact .joined found fun _ _ task present => by simp [absent] at present
    · rename_i keeps
      cases taken
      refine .joined found fun asked was => ?_
      simp [asked, was] at keeps

/-! ## No self-deadlock -/

section SelfWait

variable {config : Config} {state next start finish : State β} {label : Label β}

theorem afterPrefetch_ne_frozen (later : List Nat) :
    (afterPrefetch later : ReaderPoint β) ≠ .frozen := by
  cases later <;> simp [afterPrefetch]

/-- A reader freezes in the branch that promotes a prefetch. -/
theorem Moved.promotes_of_frozen {weather : Weather} {call : ReadCall}
    {before : ReaderPoint β} (moved : Moved config weather state call before next .frozen) :
    ∃ chunk todo result index task, before = .schedule chunk todo result ∧
      state.active.lookup (call.fileId, chunk) = some (index, true) ∧
      state.tasks[index]? = some task ∧ task.point = .queued ∧ 0 < task.callbacks := by
  generalize isFrozen : (ReaderPoint.frozen : ReaderPoint β) = after at moved
  cases moved with
  | prefetchDeadlocked unlocked scheduled =>
      cases scheduledOrGot scheduled with
      | deadlocked asked found present queued callback => cases asked
  | deadlocked unlocked scheduled =>
      cases scheduledOrGot scheduled with
      | deadlocked asked found present queued callback =>
          exact ⟨_, _, _, _, _, rfl, found, present, queued, callback⟩
  | skipPrefetch | prefetchJoined _ _ | prefetchRegistered _ =>
      exact absurd isFrozen.symm (afterPrefetch_ne_frozen _)
  | nextPrefetch _ | prefetchSubmitted _ _ | remember | finish | memoryHit _ | memoryMiss _
  | diskRaised _ | diskHit _ | diskMiss | put | joined _ _ | submitted _ _ | registered _
  | received _ _ | raised _ _ => cases isFrozen

theorem firstPoint_ne_frozen (call : ReadCall) : state.firstPoint config call ≠ .frozen := by
  unfold State.firstPoint
  split
  · simp
  · split <;> simp

theorem NoSelfWait.step (free : NoSelfWait state) (kept : NoCallbackPromoted state label)
    (stepped : Stepped config state label next) : NoSelfWait next := by
  intro other reader present isFrozen
  cases stepped with
  | begin unused =>
      rw [State.setReader_readers] at present
      split at present
      · cases present
        exact firstPoint_ne_frozen _ isFrozen
      · exact free other reader present isFrozen
  | @reader index weather moving moved point isReader isMoved =>
      rw [State.setReader_readers, isMoved.frame.2.1] at present
      split at present
      · cases present
        subst isFrozen
        obtain ⟨call, before⟩ := moving
        obtain ⟨chunk, todo, result, future, task, rfl, found, isTask, queued, callback⟩ :=
          isMoved.promotes_of_frozen
        have noCallback := kept task (promoted_of_schedule isReader found isTask queued)
        exact absurd callback (Nat.not_lt.mpr noCallback.le)
      · exact free other reader present isFrozen
  | task isTask moved =>
      rw [State.setTask, moved.frame.2.1] at present
      exact free other reader present isFrozen
  | callback _ _ _ _ | invalidate _ | list _ | remove _ _ | vanished _ _ | removed _
  | removeFails _ | change =>
      exact free other reader present isFrozen

/-- The promotion of a prefetch with a callback freezes the promoting thread. -/
theorem frozen_of_promoted {task : Task β} (promotes : state.promoted label = some task)
    (callback : 0 < task.callbacks) (taken : step config state label = some next) :
    ∃ index reader, next.readers index = some reader ∧ reader.point = .frozen := by
  obtain ⟨index, future, weather, call, chunk, todo, result, rfl, isReader, found, present,
    queued⟩ := schedule_of_promoted promotes
  have scheduled : state.scheduleOrGet (call.fileId, chunk) call.total false =
      (.deadlocked, { state.setTask future { task with point := .cancelled } with
        activeLocked := true }) := by
    simp [State.scheduleOrGet, found, present, queued, callback]
  simp only [step, isReader, Option.bind_some, readStep, scheduled] at taken
  split at taken
  · cases taken
  · simp only [Option.map_some, Option.some.injEq] at taken
    subst taken
    exact ⟨index, ⟨call, .frozen⟩, (State.setReader_readers ..).trans (if_pos rfl), rfl⟩

/-- No thread ever waits for the lock it holds, in every run in which no read
promotes a prefetch that has its done-callback; and the first such promotion
freezes the thread that makes it. -/
theorem noSelfWait_of_reaches (booted : Booted start)
    (reached : Reaches (step config) NoCallbackPromoted start finish) :
    NoSelfWait finish ∧ ∀ label next, step config finish label = some next →
      (NoSelfWait next ↔ NoCallbackPromoted finish label) := by
  have initial : NoSelfWait start := by
    intro index reader present
    rw [booted.readers index] at present
    cases present
  have free : NoSelfWait finish :=
    reached.invariant (fun free kept taken => free.step kept (stepped_of_step taken)) initial
  refine ⟨free, fun label next taken => ⟨fun stillFree task promotes => ?_, fun kept => ?_⟩⟩
  · by_contra callback
    obtain ⟨index, reader, present, isFrozen⟩ :=
      frozen_of_promoted promotes (Nat.pos_of_ne_zero callback) taken
    exact stillFree index reader present isFrozen
  · exact free.step kept (stepped_of_step taken)

end SelfWait

/-! ## One task for each chunk -/

/-- What holds while the lock is free: a future is registered from its
submission until its done-callback, which runs once. -/
structure Sharing (state : State β) : Prop where
  live : ∀ (index : Nat) (task : Task β), state.tasks[index]? = some task →
    task.point.isLive = true →
    ∃ wasPrefetch, state.active.lookup task.key = some (index, wasPrefetch)
  owed : ∀ (index : Nat) (task : Task β), state.tasks[index]? = some task →
    0 < task.callbacks → task.callbacks = 1 ∧
      ∃ wasPrefetch, state.active.lookup task.key = some (index, wasPrefetch)
  registering : ∀ (reader : Nat) (call : ReadCall) (point : ReaderPoint β) (chunk index : Nat),
    state.readers reader = some ⟨call, point⟩ → point.registers = some (chunk, index) →
    ∃ task, state.tasks[index]? = some task ∧ task.key = (call.fileId, chunk) ∧
      task.callbacks = 0 ∧
      ∃ wasPrefetch, state.active.lookup task.key = some (index, wasPrefetch)
  lone : ∀ (left right : Nat) (leftReader rightReader : Reader β)
      (leftChunk rightChunk index : Nat),
    state.readers left = some leftReader → state.readers right = some rightReader →
    leftReader.point.registers = some (leftChunk, index) →
    rightReader.point.registers = some (rightChunk, index) → left = right
  kept : ∀ (index : Nat) (task : Task β), state.tasks[index]? = some task →
    task.point ≠ .cancelled

/-- The invariant of the runs below. -/
def SharingWhenFree (state : State β) : Prop :=
  state.activeLocked = false → Sharing state

section Sharing

variable {config : Config} {state next start finish : State β} {label : Label β}

theorem Sharing.shared (sharing : Sharing state) : Shared state where
  single := by
    intro left right leftTask rightTask isLeft isRight leftLive rightLive sameKey
    obtain ⟨leftPrefetch, leftActive⟩ := sharing.live left leftTask isLeft leftLive
    obtain ⟨rightPrefetch, rightActive⟩ := sharing.live right rightTask isRight rightLive
    rw [sameKey, rightActive, Option.some.injEq, Prod.mk.injEq] at leftActive
    exact leftActive.1.symm
  registered := sharing.live

theorem Sharing.congr (sharing : Sharing state) (tasks : next.tasks = state.tasks)
    (active : next.active = state.active) (readers : next.readers = state.readers) :
    Sharing next := by
  obtain ⟨live, owed, registering, lone, kept⟩ := sharing
  rw [← tasks, ← active] at live owed
  rw [← tasks, ← active, ← readers] at registering
  rw [← readers] at lone
  rw [← tasks] at kept
  exact ⟨live, owed, registering, lone, kept⟩

theorem Sharing.setReader (sharing : Sharing state) (index : Nat) {call : ReadCall}
    {point : ReaderPoint β} (rests : point.registers = none) :
    Sharing (state.setReader index ⟨call, point⟩) := by
  have old {reader : Nat} {found : Reader β} {entry : Nat × Nat}
      (present : (state.setReader index ⟨call, point⟩).readers reader = some found)
      (registers : found.point.registers = some entry) :
      state.readers reader = some found := by
    rw [State.setReader_readers] at present
    split at present
    · cases present
      rw [rests] at registers
      cases registers
    · exact present
  refine ⟨sharing.live, sharing.owed, ?_, ?_, sharing.kept⟩
  · intro reader otherCall otherPoint chunk task present registers
    exact sharing.registering reader _ _ _ _ (old present registers) registers
  · intro left right leftReader rightReader leftChunk rightChunk task isLeft isRight
      leftRegisters rightRegisters
    exact sharing.lone left right _ _ _ _ task (old isLeft leftRegisters)
      (old isRight rightRegisters) leftRegisters rightRegisters

theorem Sharing.setPoint (sharing : Sharing state) {index : Nat} {task : Task β}
    {point : TaskPoint β} (present : state.tasks[index]? = some task)
    (live : point.isLive = true → task.point.isLive = true) (kept : point ≠ .cancelled) :
    Sharing (state.setTask index { task with point := point }) := by
  have look (other : Nat) := state.setTask_getElem? index other { task with point := point }
  refine ⟨?_, ?_, ?_, sharing.lone, ?_⟩
  · intro other found isFound isLive
    rw [look] at isFound
    split at isFound
    · rename_i same
      subst same
      rw [present, Option.map_some, Option.some.injEq] at isFound
      subst isFound
      exact sharing.live other task present (live isLive)
    · exact sharing.live other found isFound isLive
  · intro other found isFound callback
    rw [look] at isFound
    split at isFound
    · rename_i same
      subst same
      rw [present, Option.map_some, Option.some.injEq] at isFound
      subst isFound
      exact sharing.owed other task present callback
    · exact sharing.owed other found isFound callback
  · intro reader call readerPoint chunk other isReader registers
    obtain ⟨found, isFound, isKey, noCallback, isActive⟩ :=
      sharing.registering reader call readerPoint chunk other isReader registers
    by_cases same : other = index
    · subst same
      rw [present, Option.some.injEq] at isFound
      subst isFound
      exact ⟨{ task with point := point }, by rw [look, if_pos rfl, present]; rfl, isKey,
        noCallback, isActive⟩
    · exact ⟨found, by rw [look, if_neg same, isFound], isKey, noCallback, isActive⟩
  · intro other found isFound
    rw [look] at isFound
    split at isFound
    · rw [present, Option.map_some, Option.some.injEq] at isFound
      subst isFound
      exact kept
    · exact sharing.kept other found isFound

theorem Sharing.submit (sharing : Sharing state) {reader : Nat} {call : ReadCall}
    {chunk total : Nat} {isPrefetch : Bool} {point : ReaderPoint β}
    (absent : state.active.lookup (call.fileId, chunk) = none)
    (registers : point.registers = some (chunk, state.tasks.length)) :
    Sharing ((state.submit (call.fileId, chunk) total isPrefetch).setReader reader
      ⟨call, point⟩) := by
  let task : Task β := ⟨call.fileId, chunk, total, isPrefetch, .queued, 0⟩
  have look (index : Nat) (found : Task β)
      (isFound : (state.tasks ++ [task])[index]? = some found) :
      state.tasks[index]? = some found ∨ index = state.tasks.length ∧ found = task := by
    rcases Nat.lt_trichotomy index state.tasks.length with below | same | above
    · rw [List.getElem?_append_left below] at isFound
      exact Or.inl isFound
    · right
      rw [same, List.getElem?_concat_length, Option.some.injEq] at isFound
      exact ⟨same, isFound.symm⟩
    · have beyond : (state.tasks ++ [task]).length ≤ index := by
        rw [List.length_append]
        exact above
      rw [List.getElem?_eq_none beyond] at isFound
      cases isFound
  have active (key : ChunkKey) : (state.submit (call.fileId, chunk) total isPrefetch).active.lookup
      key = if key = (call.fileId, chunk) then some (state.tasks.length, isPrefetch)
        else state.active.lookup key :=
    Dict.lookup_insert_eq ..
  -- nothing was registered for the chunk, so every old entry stays
  have still {key : ChunkKey} {index : Nat}
      (isActive : ∃ wasPrefetch, state.active.lookup key = some (index, wasPrefetch)) :
      ∃ wasPrefetch, (state.submit (call.fileId, chunk) total isPrefetch).active.lookup key =
        some (index, wasPrefetch) := by
    obtain ⟨wasPrefetch, found⟩ := isActive
    refine ⟨wasPrefetch, ?_⟩
    rw [active, if_neg]
    · exact found
    · rintro rfl
      rw [absent] at found
      cases found
  have readers (other : Nat) (found : Reader β)
      (isFound : ((state.submit (call.fileId, chunk) total isPrefetch).setReader reader
        ⟨call, point⟩).readers other = some found) :
      state.readers other = some found ∨ other = reader ∧ found = ⟨call, point⟩ := by
    rw [State.setReader_readers] at isFound
    split at isFound
    · exact Or.inr ⟨‹_›, (Option.some.inj isFound).symm⟩
    · exact Or.inl isFound
  have notOld {other : Nat} {found : Reader β} {otherChunk : Nat}
      (isFound : state.readers other = some found)
      (isNew : found.point.registers = some (otherChunk, state.tasks.length)) : False := by
    obtain ⟨old, isOld, -⟩ := sharing.registering other _ _ otherChunk _ isFound isNew
    rw [List.getElem?_eq_none (Nat.le_refl _)] at isOld
    cases isOld
  refine ⟨?_, ?_, ?_, ?_, ?_⟩
  · intro index found isFound isLive
    rcases look index found isFound with old | ⟨rfl, rfl⟩
    · exact still (sharing.live index found old isLive)
    · exact ⟨isPrefetch, (active _).trans (if_pos rfl)⟩
  · intro index found isFound callback
    rcases look index found isFound with old | ⟨rfl, rfl⟩
    · exact ⟨(sharing.owed index found old callback).1,
        still (sharing.owed index found old callback).2⟩
    · exact absurd callback (Nat.lt_irrefl 0)
  · intro other otherCall otherPoint otherChunk index isFound isRegistering
    rcases readers other _ isFound with old | ⟨rfl, same⟩
    · obtain ⟨found, isTask, isKey, noCallback, isActive⟩ :=
        sharing.registering other otherCall otherPoint otherChunk index old isRegistering
      refine ⟨found, ?_, isKey, noCallback, still isActive⟩
      exact (List.getElem?_append_left (List.getElem?_eq_some_iff.mp isTask).1).trans isTask
    · rw [Reader.mk.injEq] at same
      obtain ⟨rfl, rfl⟩ := same
      rw [registers, Option.some.injEq, Prod.mk.injEq] at isRegistering
      obtain ⟨rfl, rfl⟩ := isRegistering
      exact ⟨task, List.getElem?_concat_length, rfl, rfl, isPrefetch,
        (active _).trans (if_pos rfl)⟩
  · intro left right leftReader rightReader leftChunk rightChunk index isLeft isRight
      leftRegisters rightRegisters
    rcases readers left _ isLeft with oldLeft | ⟨rfl, rfl⟩
    · rcases readers right _ isRight with oldRight | ⟨rfl, rfl⟩
      · exact sharing.lone left right _ _ _ _ index oldLeft oldRight leftRegisters rightRegisters
      · rw [registers, Option.some.injEq, Prod.mk.injEq] at rightRegisters
        obtain ⟨-, rfl⟩ := rightRegisters
        exact (notOld oldLeft leftRegisters).elim
    · rcases readers right _ isRight with oldRight | ⟨rfl, -⟩
      · rw [registers, Option.some.injEq, Prod.mk.injEq] at leftRegisters
        obtain ⟨-, rfl⟩ := leftRegisters
        exact (notOld oldRight rightRegisters).elim
      · rfl
  · intro index found isFound
    rcases look index found isFound with old | ⟨-, rfl⟩
    · exact sharing.kept index found old
    · exact nofun

theorem Sharing.unregister (sharing : Sharing state) {index : Nat} {task : Task β}
    (present : state.tasks[index]? = some task) (isDone : task.point.isLive = false)
    (tasks : ∀ other, next.tasks[other]? =
      if other = index then some { task with callbacks := 0 } else state.tasks[other]?)
    (active : next.active = state.active.erase task.key)
    (readers : ∀ reader found chunk other, next.readers reader = some found →
      found.point.registers = some (chunk, other) →
      state.readers reader = some found ∧ other ≠ index)
    (mine : ∃ wasPrefetch, state.active.lookup task.key = some (index, wasPrefetch)) :
    Sharing next := by
  have still {key : ChunkKey} {other : Nat} (different : other ≠ index)
      (isActive : ∃ wasPrefetch, state.active.lookup key = some (other, wasPrefetch)) :
      ∃ wasPrefetch, next.active.lookup key = some (other, wasPrefetch) := by
    obtain ⟨wasPrefetch, found⟩ := isActive
    refine ⟨wasPrefetch, ?_⟩
    rw [active, Dict.lookup_erase_eq, if_neg]
    · exact found
    · rintro rfl
      obtain ⟨ownPrefetch, own⟩ := mine
      rw [own, Option.some.injEq, Prod.mk.injEq] at found
      exact different found.1.symm
  refine ⟨?_, ?_, ?_, ?_, ?_⟩
  · intro other found isFound isLive
    rw [tasks] at isFound
    split at isFound
    · cases isFound
      rw [isDone] at isLive
      cases isLive
    · exact still ‹_› (sharing.live other found isFound isLive)
  · intro other found isFound callback
    rw [tasks] at isFound
    split at isFound
    · cases isFound
      exact absurd callback (Nat.lt_irrefl 0)
    · have owed := sharing.owed other found isFound callback
      exact ⟨owed.1, still ‹_› owed.2⟩
  · intro reader call point chunk other isReader registers
    obtain ⟨old, different⟩ := readers reader _ chunk other isReader registers
    obtain ⟨found, isFound, isKey, noCallback, isActive⟩ :=
      sharing.registering reader call point chunk other old registers
    exact ⟨found, by rw [tasks, if_neg different, isFound], isKey, noCallback,
      still different isActive⟩
  · intro left right leftReader rightReader leftChunk rightChunk other isLeft isRight
      leftRegisters rightRegisters
    exact sharing.lone left right _ _ _ _ other
      (readers left _ _ _ isLeft leftRegisters).1 (readers right _ _ _ isRight rightRegisters).1
      leftRegisters rightRegisters
  · intro other found isFound
    rw [tasks] at isFound
    split at isFound
    · cases isFound
      exact sharing.kept index task present
    · exact sharing.kept other found isFound

/-- `add_done_callback`, which runs the callback at once on a finished
future. -/
theorem Sharing.register (sharing : Sharing state) {reader chunk index : Nat} {call : ReadCall}
    {point later : ReaderPoint β} {added : State β}
    (isReader : state.readers reader = some ⟨call, point⟩)
    (registers : point.registers = some (chunk, index)) (rests : later.registers = none)
    (isAdded : state.addDoneCallback (call.fileId, chunk) index = some added) :
    Sharing (added.setReader reader ⟨call, later⟩) := by
  obtain ⟨task, present, isKey, noCallback, isActive⟩ :=
    sharing.registering reader call point chunk index isReader registers
  -- the reader was the only one to register this task
  have others {other : Nat} {found : Reader β} {otherChunk otherIndex : Nat}
      {before : State β} (same : before.readers = state.readers)
      (isFound : (before.setReader reader ⟨call, later⟩).readers other = some found)
      (isRegistering : found.point.registers = some (otherChunk, otherIndex)) :
      state.readers other = some found ∧ otherIndex ≠ index := by
    rw [State.setReader_readers, same] at isFound
    split at isFound
    · cases isFound
      rw [rests] at isRegistering
      cases isRegistering
    · rename_i different
      refine ⟨isFound, ?_⟩
      rintro rfl
      exact different
        (sharing.lone other reader _ _ _ _ otherIndex isFound isReader isRegistering registers)
  unfold State.addDoneCallback at isAdded
  rw [present] at isAdded
  by_cases isLive : task.point.isLive = true
  · have running : added = state.setTask index { task with callbacks := task.callbacks + 1 } := by
      cases isPoint : task.point <;> simp_all [TaskPoint.isLive]
    subst running
    have look (other : Nat) :=
      state.setTask_getElem? index other { task with callbacks := task.callbacks + 1 }
    have tasksOf (other : Nat) (found : Task β) (isFound : (state.setTask index
        { task with callbacks := task.callbacks + 1 }).tasks[other]? = some found) :
        other = index ∧ found = { task with callbacks := task.callbacks + 1 } ∨
          state.tasks[other]? = some found := by
      rw [look] at isFound
      split at isFound
      · rw [present, Option.map_some, Option.some.injEq] at isFound
        exact Or.inl ⟨‹_›, isFound.symm⟩
      · exact Or.inr isFound
    refine ⟨?_, ?_, ?_, ?_, ?_⟩
    · intro other found isFound foundLive
      rcases tasksOf other found isFound with ⟨rfl, rfl⟩ | old
      · exact isActive
      · exact sharing.live other found old foundLive
    · intro other found isFound callback
      rcases tasksOf other found isFound with ⟨rfl, rfl⟩ | old
      · exact ⟨by simp [noCallback], isActive⟩
      · exact sharing.owed other found old callback
    · intro other otherCall otherPoint otherChunk otherIndex isFound isRegistering
      obtain ⟨old, different⟩ := others (by rfl) isFound isRegistering
      obtain ⟨found, isTask, rest⟩ :=
        sharing.registering other otherCall otherPoint otherChunk otherIndex old isRegistering
      exact ⟨found, (look otherIndex).trans ((if_neg different).trans isTask), rest⟩
    · intro left right leftReader rightReader leftChunk rightChunk other isLeft isRight
        leftRegisters rightRegisters
      exact sharing.lone left right _ _ _ _ other (others (by rfl) isLeft leftRegisters).1
        (others (by rfl) isRight rightRegisters).1 leftRegisters rightRegisters
    · intro other found isFound
      rcases tasksOf other found isFound with ⟨rfl, rfl⟩ | old
      · exact sharing.kept other task present
      · exact sharing.kept other found old
  · have notCancelled := sharing.kept index task present
    have finished : added = state.removeFuture (call.fileId, chunk) := by
      cases isPoint : task.point <;> simp_all [TaskPoint.isLive]
    subst finished
    refine sharing.unregister present (by simpa using isLive) ?_ ?_
      (fun other found otherChunk otherIndex => others (by rfl)) isActive
    · intro other
      split
      · rename_i same
        rw [← noCallback]
        exact same ▸ present
      · rfl
    · rw [isKey]
      rfl

theorem Sharing.callback (sharing : Sharing state) {index : Nat} {task : Task β}
    {outcome : Option (List β)} (present : state.tasks[index]? = some task)
    (isDone : task.point = .done outcome) (callback : 0 < task.callbacks) :
    Sharing ((state.removeFuture task.key).setTask index
      { task with callbacks := task.callbacks - 1 }) := by
  obtain ⟨once, isActive⟩ := sharing.owed index task present callback
  refine sharing.unregister present (by rw [isDone]; rfl) ?_ rfl ?_ isActive
  · intro other
    rw [once]
    refine ((state.removeFuture task.key).setTask_getElem? index other _).trans ?_
    split
    · exact congrArg (Option.map fun _ => _) present
    · rfl
  · intro reader found chunk other isReader registers
    refine ⟨isReader, ?_⟩
    rintro rfl
    obtain ⟨registered, isTask, -, noCallback, -⟩ :=
      sharing.registering reader _ _ chunk other isReader registers
    rw [present, Option.some.injEq] at isTask
    subst isTask
    exact absurd callback (Nat.not_lt.mpr noCallback.le)

theorem Sharing.moved (sharing : Sharing state) {weather : Weather} {index : Nat}
    {call : ReadCall} {before point : ReaderPoint β} {moved : State β}
    (isReader : state.readers index = some ⟨call, before⟩)
    (allowed : NoneUnregisteredPromoted state (.reader index weather))
    (isMoved : Moved config weather state call before moved point)
    (free : moved.activeLocked = false) :
    Sharing (moved.setReader index ⟨call, point⟩) := by
  have prefetched (later : List Nat) : (afterPrefetch later : ReaderPoint β).registers = none := by
    cases later <;> rfl
  have scheduling {chunk task : Nat} {isPrefetch : Bool} {later : ReaderPoint β}
      {next : State β} (isSubmitted : State.scheduleOrGet state (call.fileId, chunk) call.total
        isPrefetch = (.submitted task, next))
      (registers : later.registers = some (chunk, task))
      (asks : isPrefetch = false → ∃ todo result, before = .schedule chunk todo result) :
      Sharing (next.setReader index ⟨call, later⟩) := by
    generalize isScheduled : State.Scheduled.submitted task = scheduled at isSubmitted
    cases scheduledOrGot isSubmitted with
    | joined _ _ => cases isScheduled
    | deadlocked _ _ _ _ _ => cases isScheduled
    | submitted absent =>
        cases isScheduled
        exact sharing.submit absent registers
    | promoted asked found present queued noCallback =>
        obtain ⟨todo, result, rfl⟩ := asks asked
        have callback := allowed _ (promoted_of_schedule isReader found present queued)
        exact absurd callback (Nat.not_lt.mpr noCallback.le)
    | promotedAgain asked found present cancelled =>
        exact absurd cancelled (sharing.kept _ _ present)
  have joining {chunk task : Nat} {isPrefetch : Bool} {next : State β}
      (isJoined : State.scheduleOrGet state (call.fileId, chunk) call.total isPrefetch =
        (.joined task, next)) : next = state := by
    generalize isScheduled : State.Scheduled.joined task = scheduled at isJoined
    cases scheduledOrGot isJoined with
    | joined _ _ => rfl
    | submitted _ | promoted _ _ _ _ _ | promotedAgain _ _ _ _ | deadlocked _ _ _ _ _ =>
        cases isScheduled
  have deadlocking {chunk : Nat} {isPrefetch : Bool} {next : State β}
      (isDeadlocked : State.scheduleOrGet state (call.fileId, chunk) call.total isPrefetch =
        (.deadlocked, next)) : next.activeLocked = true := by
    generalize isScheduled : State.Scheduled.deadlocked = scheduled at isDeadlocked
    cases scheduledOrGot isDeadlocked with
    | deadlocked _ _ _ _ _ => rfl
    | joined _ _ | submitted _ | promoted _ _ _ _ _ | promotedAgain _ _ _ _ => cases isScheduled
  cases isMoved with
  | skipPrefetch => exact sharing.setReader index (prefetched _)
  | nextPrefetch follows =>
      rename_i chunk later old next
      cases old <;> cases follows <;> exact sharing.setReader index rfl
  | prefetchJoined unlocked scheduled =>
      rw [joining scheduled]
      exact sharing.setReader index (prefetched _)
  | prefetchSubmitted unlocked scheduled => exact scheduling scheduled rfl (by simp)
  | prefetchDeadlocked unlocked scheduled =>
      rw [deadlocking scheduled] at free
      cases free
  | prefetchRegistered added => exact sharing.register isReader rfl (prefetched _) added
  | joined unlocked scheduled =>
      rw [joining scheduled]
      exact sharing.setReader index rfl
  | submitted unlocked scheduled => exact scheduling scheduled rfl fun _ => ⟨_, _, rfl⟩
  | deadlocked unlocked scheduled =>
      rw [deadlocking scheduled] at free
      cases free
  | registered added => exact sharing.register isReader rfl rfl added
  | remember | memoryHit _ | put =>
      refine Sharing.setReader ?_ index rfl
      exact sharing.congr rfl rfl rfl
  | finish | memoryMiss _ | diskRaised _ | diskHit _ | diskMiss | received _ _ | raised _ _ =>
      exact sharing.setReader index rfl

/-- Nobody gives the lock back to a frozen thread. -/
theorem Stepped.activeLocked (stepped : Stepped config state label next)
    (free : next.activeLocked = false) : state.activeLocked = false := by
  cases stepped with
  | @reader index weather reader moved point present isMoved =>
      change moved.activeLocked = false at free
      generalize reader.point = before at isMoved
      cases isMoved with
      | prefetchJoined unlocked _ | prefetchSubmitted unlocked _
      | prefetchDeadlocked unlocked _ | joined unlocked _ | submitted unlocked _
      | deadlocked unlocked _ => exact unlocked
      | prefetchRegistered added | registered added =>
          rw [State.addDoneCallback_eq added] at free
          exact free
      | skipPrefetch | nextPrefetch _ | remember | finish | memoryHit _ | memoryMiss _
      | diskRaised _ | diskHit _ | diskMiss | put | received _ _ | raised _ _ => exact free
  | @task index weather task moved point present isMoved =>
      change moved.activeLocked = false at free
      generalize task.point = before at isMoved
      cases isMoved <;> exact free
  | begin _ | callback _ _ _ _ | invalidate _ | list _ | remove _ _ | vanished _ _ | removed _
  | removeFails _ | change =>
      exact free

theorem SharingWhenFree.step (sharing : SharingWhenFree state)
    (allowed : NoneUnregisteredPromoted state label)
    (stepped : Stepped config state label next) : SharingWhenFree next := by
  intro free
  have sharing := sharing (stepped.activeLocked free)
  cases stepped with
  | begin unused =>
      refine sharing.setReader _ ?_
      unfold State.firstPoint
      split
      · rfl
      · split <;> rfl
  | @reader index weather reader moved point present isMoved =>
      obtain ⟨call, before⟩ := reader
      exact sharing.moved present allowed isMoved free
  | @task index weather task moved point present isMoved =>
      have live : point.isLive = true → task.point.isLive = true := by
        generalize task.point = before at isMoved
        cases isMoved <;> exact fun _ => rfl
      have kept : point ≠ .cancelled := by
        generalize task.point = before at isMoved
        cases isMoved <;> simp
      have moving : Sharing moved := by
        refine sharing.congr isMoved.frame.1 ?_ isMoved.frame.2.1
        generalize task.point = before at isMoved
        cases isMoved <;> rfl
      exact moving.setPoint (isMoved.frame.1 ▸ present) live kept
  | callback present isDone unlocked registered =>
      exact sharing.callback present isDone registered
  | invalidate _ | list _ | remove _ _ | vanished _ _ | removed _ | removeFails _ | change =>
      exact sharing.congr rfl rfl rfl

theorem Booted.sharing (booted : Booted start) : Sharing start := by
  constructor <;> simp [booted.tasks, booted.readers]

/-- A prefetch without a callback is submitted twice by its promotion. -/
theorem not_shared_of_promoted {task : Task β} (promotes : state.promoted label = some task)
    (noCallback : task.callbacks = 0) (taken : step config state label = some next) :
    next.activeLocked = false ∧ ¬ Shared next := by
  obtain ⟨index, future, weather, call, chunk, todo, result, rfl, isReader, found, present,
    queued⟩ := schedule_of_promoted promotes
  let cancelled := state.setTask future { task with point := .cancelled }
  have scheduled : state.scheduleOrGet (call.fileId, chunk) call.total false =
      (.submitted (state.tasks.length + 1),
        (cancelled.submit (call.fileId, chunk) call.total false).submit (call.fileId, chunk)
          call.total false) := by
    simp [State.scheduleOrGet, found, present, queued, noCallback, cancelled]
  simp only [step, isReader, Option.bind_some, readStep, scheduled] at taken
  split at taken
  · cases taken
  · rename_i locked
    simp only [Option.map_some, Option.some.injEq] at taken
    subst taken
    have free : state.activeLocked = false := by simpa using locked
    refine ⟨free, fun shared => ?_⟩
    let twin : Task β := ⟨call.fileId, chunk, call.total, false, .queued, 0⟩
    have length : cancelled.tasks.length = state.tasks.length := List.length_set
    have first : (cancelled.tasks ++ [twin] ++ [twin])[state.tasks.length]? = some twin := by
      simp [← length]
    have second : (cancelled.tasks ++ [twin] ++ [twin])[state.tasks.length + 1]? = some twin := by
      simp [← length]
    have same := shared.single _ _ _ _ first second rfl rfl rfl
    exact absurd same (Nat.ne_of_lt (Nat.lt_succ_self _))

/-- Whenever the lock is free a chunk has at most one task, and that is the
registered one, in every run in which no read promotes a prefetch that has no
done-callback yet; and every such promotion makes a second task. -/
theorem sharedWhenFree_of_reaches (booted : Booted start)
    (reached : Reaches (step config) NoneUnregisteredPromoted start finish) :
    SharedWhenFree finish ∧ ∀ label next, step config finish label = some next →
      (SharedWhenFree next ↔ NoneUnregisteredPromoted finish label) := by
  have initial : SharingWhenFree start := fun _ => booted.sharing
  have sharing : SharingWhenFree finish :=
    reached.invariant (fun sharing allowed taken => sharing.step allowed (stepped_of_step taken))
      initial
  refine ⟨fun free => (sharing free).shared, fun label next taken =>
    ⟨fun stillShared task promotes => ?_, fun allowed free => ?_⟩⟩
  · by_contra noCallback
    obtain ⟨free, notShared⟩ :=
      not_shared_of_promoted promotes (Nat.eq_zero_of_not_pos noCallback) taken
    exact notShared (stillShared free)
  · exact (sharing.step allowed (stepped_of_step taken) free).shared

end Sharing

/-! ## Two readers and a prefetch -/

/-- The first reader submits the prefetch of chunk 1 and moves on as far as
`steps` says, the task moves on, and the second reader asks for the chunk. -/
def askPrefetched (steps taskSteps : Nat) : List (Label Nat) :=
  .begin 0 ⟨['f'], 0, 1, 3⟩ :: List.replicate steps (.reader 0 fairWeather) ++
    List.replicate taskSteps (.task 0 fairWeather) ++
    .begin 1 ⟨['f'], 1, 1, 3⟩ :: List.replicate 14 (.reader 1 fairWeather)

instance (state : State Nat) (label : Label Nat) :
    Decidable (NoCallbackPromoted state label) :=
  inferInstanceAs (Decidable (∀ task ∈ state.promoted label, task.callbacks = 0))

instance (state : State Nat) (label : Label Nat) :
    Decidable (NoneUnregisteredPromoted state label) :=
  inferInstanceAs (Decidable (∀ task ∈ state.promoted label, 0 < task.callbacks))

theorem Booted.empty (maxChunks : Nat) (content : List Nat) :
    Booted (State.empty maxChunks content) :=
  ⟨rfl, rfl, fun _ => rfl⟩

/-- The promotion before the callback is registered freezes nobody. -/
theorem noSelfWait_of_reaches_unregistered :
    ∃ finish, runAllowed (step oneByte) NoCallbackPromoted (State.empty 5 [1, 2, 3])
        (askPrefetched 4 0) = some finish ∧
      NoSelfWait finish ∧ ∀ label next, step oneByte finish label = some next →
        (NoSelfWait next ↔ NoCallbackPromoted finish label) := by
  obtain ⟨finish, executed⟩ := Option.isSome_iff_exists.mp
    (show (runAllowed (step oneByte) NoCallbackPromoted (State.empty 5 [1, 2, 3])
      (askPrefetched 4 0)).isSome from rfl)
  exact ⟨finish, executed, noSelfWait_of_reaches (Booted.empty 5 [1, 2, 3])
    (Reaches.of_runAllowed executed)⟩

/-- The promotion after it freezes the second reader. -/
theorem noSelfWait_fails_on_promotion :
    ¬ ∀ start finish : State Nat, Booted start →
      Reaches (step oneByte) (fun _ _ => True) start finish → NoSelfWait finish := by
  intro holds
  obtain ⟨finish, executed⟩ := Option.isSome_iff_exists.mp
    (show (run (step oneByte) (State.empty 5 [1, 2, 3]) (askPrefetched 5 0)).isSome from rfl)
  have frozen : (run (step oneByte) (State.empty 5 [1, 2, 3]) (askPrefetched 5 0)).map
      (·.readers 1) = some (some ⟨⟨['f'], 1, 1, 3⟩, .frozen⟩) := rfl
  rw [executed] at frozen
  exact holds _ finish (Booted.empty 5 [1, 2, 3]) (Reaches.of_free_run executed) 1 _
    (Option.some.inj frozen) rfl

/-- A read that comes after the prefetch has started joins it. -/
theorem sharedWhenFree_of_reaches_joined :
    ∃ finish, runAllowed (step oneByte) NoneUnregisteredPromoted (State.empty 5 [1, 2, 3])
        (askPrefetched 5 2) = some finish ∧
      finish.activeLocked = false ∧ SharedWhenFree finish ∧
      ∀ label next, step oneByte finish label = some next →
        (SharedWhenFree next ↔ NoneUnregisteredPromoted finish label) := by
  obtain ⟨finish, executed⟩ := Option.isSome_iff_exists.mp
    (show (runAllowed (step oneByte) NoneUnregisteredPromoted (State.empty 5 [1, 2, 3])
      (askPrefetched 5 2)).isSome from rfl)
  have free : (runAllowed (step oneByte) NoneUnregisteredPromoted (State.empty 5 [1, 2, 3])
      (askPrefetched 5 2)).map (·.activeLocked) = some false := rfl
  rw [executed] at free
  exact ⟨finish, executed, Option.some.inj free,
    sharedWhenFree_of_reaches (Booted.empty 5 [1, 2, 3]) (Reaches.of_runAllowed executed)⟩

/-- The promotion before the callback is registered leaves two tasks for the
chunk. -/
theorem sharedWhenFree_fails_on_promotion :
    ¬ ∀ start finish : State Nat, Booted start →
      Reaches (step oneByte) (fun _ _ => True) start finish → SharedWhenFree finish := by
  intro holds
  obtain ⟨finish, executed⟩ := Option.isSome_iff_exists.mp
    (show (run (step oneByte) (State.empty 5 [1, 2, 3]) (askPrefetched 4 0)).isSome from rfl)
  have free : (run (step oneByte) (State.empty 5 [1, 2, 3]) (askPrefetched 4 0)).map
      (·.activeLocked) = some false := rfl
  have tasks : (run (step oneByte) (State.empty 5 [1, 2, 3]) (askPrefetched 4 0)).map
      (fun state => (state.tasks[3]?, state.tasks[4]?)) =
        some (some ⟨['f'], 1, 3, false, .queued, 0⟩, some ⟨['f'], 1, 3, false, .queued, 0⟩) := rfl
  simp only [executed, Option.map_some, Option.some.injEq] at free tasks
  obtain ⟨third, fourth⟩ := Prod.mk.inj tasks
  have shared := holds _ finish (Booted.empty 5 [1, 2, 3]) (Reaches.of_free_run executed) free
  have same := shared.single 3 4 _ _ third fourth rfl rfl rfl
  cases same

end FuseDrive.Cache
