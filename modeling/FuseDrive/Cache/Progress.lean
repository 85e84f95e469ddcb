import FuseDrive.Cache.ChunkLaw

/-!
# Readers are never stuck

In calm weather a download never raises, so only the cancellation of a task
can cost a reader its result.  Without one a reader is finished, waits for a
task that has not completed or has a step, and every step of its own brings it
closer to its end.
-/

namespace FuseDrive.Cache

variable {β : Type}

/-- The storage answers and disk operations succeed. -/
def Weather.Fair (weather : Weather) : Prop :=
  weather.storageFails = false ∧ weather.disk = .success

/-- The storage answers, and what the disk raises is handled. -/
def Weather.Calm (weather : Weather) : Prop :=
  weather.storageFails = false ∧ weather.disk ≠ .raised

theorem Weather.Fair.calm {weather : Weather} (fair : weather.Fair) : weather.Calm :=
  ⟨fair.1, by simp [fair.2]⟩

/-- The task ended, or is about to end, with an exception. -/
def TaskPoint.raised : TaskPoint β → Bool
  | .leaving none | .returning none | .done none => true
  | _ => false

/-- The task a reader refers to. -/
def ReaderPoint.waitsFor : ReaderPoint β → Option Nat
  | .prefetch _ _ (.register task) | .register _ _ _ task | .await _ _ _ task => some task
  | _ => none

/-- The reader is over without a result. -/
def ReaderPoint.isLost : ReaderPoint β → Bool
  | .failed | .frozen => true
  | _ => false

/-- Some scheduled task was cancelled, and so never completes. -/
def State.Cancelled (state : State β) : Prop :=
  ∃ (index : Nat) (task : Task β),
    state.tasks[index]? = some task ∧ task.point = .cancelled

/-- The registered futures are those of tasks. -/
def State.Registered (state : State β) : Prop :=
  ∀ key index wasPrefetch, state.active.lookup key = some (index, wasPrefetch) →
    index < state.tasks.length

/-- Nothing went wrong but, possibly, a cancelled task. -/
structure Healthy (state : State β) : Prop where
  outcomes : ∀ (index : Nat) (task : Task β), state.tasks[index]? = some task →
    task.point.raised = false
  locked : state.activeLocked = true → state.Cancelled
  lost : ∀ index reader, state.readers index = some reader →
    reader.point.isLost = true → state.Cancelled
  waits : ∀ index reader task, state.readers index = some reader →
    reader.point.waitsFor = some task → task < state.tasks.length
  registered : state.Registered

/-- The tasks of a state are those of an earlier one and new ones, none of
which raised. -/
structure Grown (state next : State β) : Prop where
  length : state.tasks.length ≤ next.tasks.length
  cancelled : state.Cancelled → next.Cancelled
  outcomes : (∀ (index : Nat) (task : Task β), state.tasks[index]? = some task →
      task.point.raised = false) →
    ∀ (index : Nat) (task : Task β), next.tasks[index]? = some task →
      task.point.raised = false
  locked : next.activeLocked = true → state.activeLocked = true ∨ next.Cancelled
  registered : state.Registered → next.Registered

section Growth

variable {state middle next : State β}

theorem Grown.of_eq (tasks : next.tasks = state.tasks)
    (locked : next.activeLocked = state.activeLocked)
    (active : ∀ key found, next.active.lookup key = some found →
      state.active.lookup key = some found) : Grown state next where
  length := by rw [tasks]
  cancelled := by
    unfold State.Cancelled
    rw [tasks]
    exact id
  outcomes := by
    rw [tasks]
    exact id
  locked := by
    rw [locked]
    exact Or.inl
  registered := by
    intro isRegistered key index wasPrefetch found
    rw [tasks]
    exact isRegistered key index wasPrefetch (active _ _ found)

theorem Grown.refl (state : State β) : Grown state state :=
  Grown.of_eq rfl rfl fun _ _ found => found

theorem Grown.trans (first : Grown state middle) (second : Grown middle next) :
    Grown state next where
  length := Nat.le_trans first.length second.length
  cancelled := fun isCancelled => second.cancelled (first.cancelled isCancelled)
  outcomes := fun fine => second.outcomes (first.outcomes fine)
  locked := by
    intro isLocked
    rcases second.locked isLocked with middleLocked | isCancelled
    · rcases first.locked middleLocked with stateLocked | middleCancelled
      · exact Or.inl stateLocked
      · exact Or.inr (second.cancelled middleCancelled)
    · exact Or.inr isCancelled
  registered := fun isRegistered => second.registered (first.registered isRegistered)

theorem Grown.setTask {index : Nat} {task later : Task β}
    (present : state.tasks[index]? = some task)
    (cancelled : task.point = .cancelled → later.point = .cancelled)
    (outcome : task.point.raised = false → later.point.raised = false) :
    Grown state (state.setTask index later) where
  length := by simp [State.setTask]
  cancelled := by
    rintro ⟨other, found, isFound, isCancelled⟩
    refine ⟨other, ?_⟩
    rw [state.setTask_getElem?]
    split
    · rename_i same
      subst same
      rw [present, Option.some.injEq] at isFound
      subst isFound
      exact ⟨later, by rw [present]; rfl, cancelled isCancelled⟩
    · exact ⟨found, isFound, isCancelled⟩
  outcomes := by
    intro fine other found isFound
    rw [state.setTask_getElem?] at isFound
    split at isFound
    · rw [present, Option.map_some, Option.some.injEq] at isFound
      subst isFound
      exact outcome (fine index task present)
    · exact fine other found isFound
  locked := Or.inl
  registered := by
    intro isRegistered key other wasPrefetch found
    simpa [State.setTask] using isRegistered key other wasPrefetch found

theorem Grown.submit (key : ChunkKey) (total : Nat) (isPrefetch : Bool) :
    Grown state (state.submit key total isPrefetch) where
  length := by simp [State.submit]
  cancelled := by
    rintro ⟨other, found, isFound, isCancelled⟩
    have inside := (List.getElem?_eq_some_iff.mp isFound).1
    exact ⟨other, found, (List.getElem?_append_left inside).trans isFound, isCancelled⟩
  outcomes := by
    intro fine other found isFound
    rcases Nat.lt_or_ge other state.tasks.length with inside | outside
    · exact fine other found ((List.getElem?_append_left inside).symm.trans isFound)
    · rw [State.submit, List.getElem?_append_right outside] at isFound
      have isNew := List.mem_singleton.mp (List.mem_of_getElem? isFound)
      subst isNew
      rfl
  locked := Or.inl
  registered := by
    intro isRegistered other index wasPrefetch found
    change (state.active.insert key _).lookup _ = _ at found
    rw [Dict.lookup_insert_eq] at found
    have length : (state.submit key total isPrefetch).tasks.length =
        state.tasks.length + 1 := by simp [State.submit]
    rw [length]
    split at found
    · cases found
      exact Nat.lt_succ_self _
    · exact Nat.lt_succ_of_lt (isRegistered other index wasPrefetch found)

theorem Grown.removeFuture (key : ChunkKey) : Grown state (state.removeFuture key) := by
  refine Grown.of_eq rfl rfl fun other found isFound => ?_
  rw [State.removeFuture, Dict.lookup_erase_eq] at isFound
  split at isFound
  · cases isFound
  · exact isFound

theorem Grown.scheduleOrGet {key : ChunkKey} {total : Nat} {isPrefetch : Bool}
    {scheduled : State.Scheduled}
    (registered : state.Registered)
    (taken : state.scheduleOrGet key total isPrefetch = (scheduled, next)) :
    Grown state next ∧ (scheduled = .deadlocked → next.Cancelled) ∧
      ∀ index, scheduled = .joined index ∨ scheduled = .submitted index →
        index < next.tasks.length := by
  have joins {index : Nat} {wasPrefetch : Bool}
      (found : state.active.lookup key = some (index, wasPrefetch)) :
      Grown state state ∧ (State.Scheduled.joined index = .deadlocked → state.Cancelled) ∧
        ∀ other, State.Scheduled.joined index = .joined other ∨
            State.Scheduled.joined index = .submitted other →
          other < state.tasks.length := by
    refine ⟨Grown.refl state, by simp, fun other isOther => ?_⟩
    rcases isOther with isJoined | isSubmitted
    · cases isJoined
      exact registered key _ _ found
    · cases isSubmitted
  have promotes {base : State β} (grown : Grown state base)
      (sameLength : base.tasks.length = state.tasks.length) :
      Grown state ((base.submit key total false).submit key total isPrefetch) ∧
        (State.Scheduled.submitted (state.tasks.length + 1) = .deadlocked →
          ((base.submit key total false).submit key total isPrefetch).Cancelled) ∧
        ∀ other, State.Scheduled.submitted (state.tasks.length + 1) = .joined other ∨
            State.Scheduled.submitted (state.tasks.length + 1) = .submitted other →
          other < ((base.submit key total false).submit key total isPrefetch).tasks.length := by
    refine ⟨(grown.trans (Grown.submit key total false)).trans
      (Grown.submit key total isPrefetch), by simp, fun other isOther => ?_⟩
    rcases isOther with isJoined | isSubmitted
    · cases isJoined
    · cases isSubmitted
      simp [State.submit, sameLength]
  unfold State.scheduleOrGet at taken
  split at taken
  · cases taken
    refine ⟨Grown.submit key total isPrefetch, by simp, fun other isOther => ?_⟩
    rcases isOther with isJoined | isSubmitted
    · cases isJoined
    · cases isSubmitted
      simp [State.submit]
  · rename_i index wasPrefetch found
    split at taken
    · split at taken
      · rename_i task present
        have cancelled : Grown state
            (state.setTask index { task with point := .cancelled }) :=
          Grown.setTask present (fun _ => rfl) (fun _ => rfl)
        have isCancelled :
            (state.setTask index { task with point := .cancelled }).Cancelled := by
          refine ⟨index, { task with point := .cancelled }, ?_, rfl⟩
          rw [state.setTask_getElem?, if_pos rfl, present]
          rfl
        split at taken
        · simp only at taken
          split at taken <;> cases taken
          · refine ⟨⟨cancelled.length, cancelled.cancelled, cancelled.outcomes,
              fun _ => Or.inr isCancelled, cancelled.registered⟩,
              fun _ => isCancelled, fun other isOther => ?_⟩
            rcases isOther with isJoined | isSubmitted
            · cases isJoined
            · cases isSubmitted
          · exact promotes cancelled (by simp [State.setTask])
        · cases taken
          exact promotes (Grown.refl state) rfl
        · cases taken
          exact joins found
      · cases taken
        exact joins found
    · cases taken
      exact joins found

theorem Grown.addDoneCallback {key : ChunkKey} {index : Nat}
    (added : state.addDoneCallback key index = some next) : Grown state next := by
  unfold State.addDoneCallback at added
  split at added
  · rename_i task present
    split at added
    · split at added <;> cases added
      exact Grown.removeFuture key
    · split at added <;> cases added
      exact Grown.removeFuture key
    · cases added
      exact Grown.setTask present id id
  · cases added

end Growth

section Progress

variable {config : Config} {state next : State β} {weather : Weather}

theorem diskRaises_of_handled (handled : weather.disk ≠ .raised) :
    State.diskRaises config weather = false := by
  simp [State.diskRaises, handled]

/-- A download in calm weather never raises. -/
theorem Downloaded.not_raised {task : Task β} {before after : TaskPoint β}
    (calm : weather.Calm) (fine : before.raised = false)
    (moved : Downloaded config weather state task before next after) :
    before ≠ .cancelled ∧ after.raised = false := by
  cases moved with
  | diskRaised raised | writeRaised raised => simp [diskRaises_of_handled calm.2] at raised
  | refused fails => simp [calm.1] at fails
  | @leave outcome | @finish outcome =>
      cases outcome with
      | none => cases fine
      | some data => exact ⟨nofun, rfl⟩
  | pick | past _ | enter _ | lock _ | memoryHit _ | memoryMiss _ | diskHit _ | diskMiss
  | keep | ask | reply _ | store | writeSkipped | write => exact ⟨nofun, rfl⟩

theorem Downloaded.grown {task : Task β} {before after : TaskPoint β}
    (moved : Downloaded config weather state task before next after) :
    Grown state next := by
  cases moved <;> exact Grown.of_eq rfl rfl fun _ _ found => found

/-- Only a cancelled task costs a reader its result, and a reader waits only
for tasks that exist. -/
theorem Moved.grown {call : ReadCall} {before after : ReaderPoint β}
    (handled : weather.disk ≠ .raised) (healthy : Healthy state)
    (waits : ∀ task, before.waitsFor = some task → task < state.tasks.length)
    (moved : Moved config weather state call before next after) :
    Grown state next ∧ (after.isLost = true → next.Cancelled) ∧
      ∀ task, after.waitsFor = some task → task < next.tasks.length := by
  have quiet {later : ReaderPoint β} (found : later.isLost = false)
      (idle : later.waitsFor = none) : Grown state state ∧
        (later.isLost = true → state.Cancelled) ∧
        ∀ task, later.waitsFor = some task → task < state.tasks.length :=
    ⟨Grown.refl state, fun lost => by simp [found] at lost,
      fun task isTask => by simp [idle] at isTask⟩
  have following (later : List Nat) : (afterPrefetch later : ReaderPoint β).isLost = false ∧
      (afterPrefetch later : ReaderPoint β).waitsFor = none := by
    cases later <;> exact ⟨rfl, rfl⟩
  cases moved with
  | @skipPrefetch chunk later point =>
      exact quiet (following later).1 (following later).2
  | @nextPrefetch chunk later point after follows =>
      cases point <;> cases follows <;> exact quiet rfl rfl
  | @prefetchJoined chunk later task next unlocked scheduled =>
      obtain ⟨grown, -, -⟩ := Grown.scheduleOrGet healthy.registered scheduled
      exact ⟨grown, fun lost => by simp [following] at lost,
        fun other isOther => by simp [following] at isOther⟩
  | prefetchSubmitted unlocked scheduled =>
      obtain ⟨grown, -, inside⟩ := Grown.scheduleOrGet healthy.registered scheduled
      refine ⟨grown, nofun, fun other isOther => ?_⟩
      cases isOther
      exact inside _ (Or.inr rfl)
  | prefetchDeadlocked unlocked scheduled | deadlocked unlocked scheduled =>
      obtain ⟨grown, isCancelled, -⟩ := Grown.scheduleOrGet healthy.registered scheduled
      exact ⟨grown, fun _ => isCancelled rfl, nofun⟩
  | @prefetchRegistered chunk later task next added =>
      exact ⟨Grown.addDoneCallback added, fun lost => by simp [following] at lost,
        fun other isOther => by simp [following] at isOther⟩
  | diskRaised raised => simp [diskRaises_of_handled handled] at raised
  | joined unlocked scheduled =>
      obtain ⟨grown, -, inside⟩ := Grown.scheduleOrGet healthy.registered scheduled
      refine ⟨grown, nofun, fun other isOther => ?_⟩
      cases isOther
      exact inside _ (Or.inl rfl)
  | submitted unlocked scheduled =>
      obtain ⟨grown, -, inside⟩ := Grown.scheduleOrGet healthy.registered scheduled
      refine ⟨grown, nofun, fun other isOther => ?_⟩
      cases isOther
      exact inside _ (Or.inr rfl)
  | registered added =>
      have grown := Grown.addDoneCallback added
      refine ⟨grown, nofun, fun other isOther => ?_⟩
      cases isOther
      exact Nat.lt_of_lt_of_le (waits _ rfl) grown.length
  | @raised chunk todo result index task present isOver =>
      refine ⟨Grown.refl state, fun _ => ?_, nofun⟩
      rcases isOver with isDone | isCancelled
      · have fine := healthy.outcomes index task present
        simp [isDone, TaskPoint.raised] at fine
      · exact ⟨index, task, present, isCancelled⟩
  | remember | put | memoryHit _ =>
      exact ⟨Grown.of_eq rfl rfl fun _ _ found => found, nofun, nofun⟩
  | finish | memoryMiss _ | diskHit _ | diskMiss | received _ _ => exact quiet rfl rfl

theorem Healthy.grow (healthy : Healthy state) (grown : Grown state next)
    (readers : ∀ index reader, next.readers index = some reader →
      state.readers index = some reader ∨
        ((reader.point.isLost = true → next.Cancelled) ∧
          ∀ task, reader.point.waitsFor = some task → task < next.tasks.length)) :
    Healthy next where
  outcomes := grown.outcomes healthy.outcomes
  locked := by
    intro isLocked
    rcases grown.locked isLocked with wasLocked | isCancelled
    · exact grown.cancelled (healthy.locked wasLocked)
    · exact isCancelled
  lost := by
    intro index reader present lost
    rcases readers index reader present with old | new
    · exact grown.cancelled (healthy.lost index reader old lost)
    · exact new.1 lost
  waits := by
    intro index reader task present waiting
    rcases readers index reader present with old | new
    · exact Nat.lt_of_lt_of_le (healthy.waits index reader task old waiting) grown.length
    · exact new.2 task waiting
  registered := grown.registered healthy.registered

/-- A step in fair weather. -/
def FairLabel : Label β → Prop
  | .reader _ weather | .task _ weather => weather.Fair
  | _ => True

/-- A step in calm weather. -/
def CalmLabel : Label β → Prop
  | .reader _ weather => weather.disk ≠ .raised
  | .task _ weather => weather.Calm
  | _ => True

theorem FairLabel.calm {label : Label β} (fair : FairLabel label) : CalmLabel label := by
  cases label with
  | reader _ _ => exact (Weather.Fair.calm fair).2
  | task _ _ => exact Weather.Fair.calm fair
  | begin _ _ | callback _ | invalidate _ _ | remove _ | removeFails _ | change _ _ => trivial

theorem firstPoint_fine (call : ReadCall) :
    (state.firstPoint config call).isLost = false ∧
      (state.firstPoint config call).waitsFor = none := by
  unfold State.firstPoint
  split
  · exact ⟨rfl, rfl⟩
  · split <;> exact ⟨rfl, rfl⟩

theorem Healthy.step (healthy : Healthy state) {label : Label β} (calm : CalmLabel label)
    (stepped : Stepped config state label next) : Healthy next := by
  cases stepped with
  | @begin index call unused =>
      refine healthy.grow (Grown.of_eq rfl rfl fun _ _ found => found) ?_
      intro other reader present
      rw [State.setReader_readers] at present
      split at present
      · cases present
        exact Or.inr ⟨fun lost => by simp [firstPoint_fine] at lost,
          fun task isTask => by simp [firstPoint_fine] at isTask⟩
      · exact Or.inl present
  | @reader index weather reader moved point present isMoved =>
      obtain ⟨grown, lost, waits⟩ := isMoved.grown calm healthy
        (fun task => healthy.waits index reader task present)
      refine healthy.grow (grown.trans (Grown.of_eq rfl rfl fun _ _ found => found)) ?_
      intro other found isFound
      rw [State.setReader_readers] at isFound
      split at isFound
      · cases isFound
        exact Or.inr ⟨lost, waits⟩
      · rw [isMoved.frame.2.1] at isFound
        exact Or.inl isFound
  | @task index weather task moved point present isMoved =>
      have fine := isMoved.not_raised calm (healthy.outcomes index task present)
      have still : moved.tasks[index]? = some task := by rw [isMoved.frame.1, present]
      refine healthy.grow (isMoved.grown.trans (Grown.setTask still
        (fun isCancelled => absurd isCancelled fine.1) (fun _ => fine.2))) ?_
      intro other reader isReader
      left
      rw [← isMoved.frame.2.1]
      exact isReader
  | @callback index task outcome present isDone unlocked registered =>
      refine healthy.grow ((Grown.removeFuture task.key).trans
        (Grown.setTask present (fun isCancelled => isCancelled) (fun fine => fine))) ?_
      exact fun _ _ isReader => Or.inl isReader
  | invalidate _ | list _ | remove _ _ | vanished _ _ | removed _ | removeFails _ | change =>
      exact healthy.grow (Grown.of_eq rfl rfl fun _ _ found => found)
        fun _ _ isReader => Or.inl isReader

/-! ## Progress -/

/-- The checks left in a `_prefetch` call. -/
def PrefetchPoint.remaining : PrefetchPoint → Nat
  | .hasLock => 6
  | .memory => 5
  | .disk => 4
  | .schedule => 3
  | .register _ => 2

/-- A bound on the steps a reader has still to take. -/
def Reader.remaining (config : Config) (reader : Reader β) : Nat :=
  let span := 6 * (config.chunks reader.call).length + 2
  match reader.point with
  | .prefetch _ later point => span + 6 * later.length + point.remaining
  | .remember => span
  | .lookMemory todo _ => 6 * todo.length + 1
  | .lookDisk _ todo _ => 6 * todo.length + 6
  | .putMemory _ todo _ _ | .schedule _ todo _ => 6 * todo.length + 5
  | .register _ todo _ _ => 6 * todo.length + 4
  | .await _ todo _ _ => 6 * todo.length + 3
  | .finished _ | .failed | .frozen => 0

theorem remaining_afterPrefetch (call : ReadCall) (chunk : Nat) (later : List Nat)
    (point : PrefetchPoint) :
    Reader.remaining config ⟨call, (afterPrefetch later : ReaderPoint β)⟩ <
      Reader.remaining config ⟨call, (.prefetch chunk later point : ReaderPoint β)⟩ := by
  have positive : 2 ≤ point.remaining := by cases point <;> simp [PrefetchPoint.remaining]
  cases later with
  | nil =>
      simp only [afterPrefetch, Reader.remaining]
      omega
  | cons next later =>
      simp only [afterPrefetch, Reader.remaining, List.length_cons]
      have first : PrefetchPoint.hasLock.remaining = 6 := rfl
      omega

/-- Every step of a reader brings it closer to its end. -/
theorem Moved.closer {call : ReadCall} {before after : ReaderPoint β}
    (moved : Moved config weather state call before next after) :
    Reader.remaining config ⟨call, after⟩ < Reader.remaining config ⟨call, before⟩ := by
  cases moved with
  | skipPrefetch | prefetchJoined _ _ | prefetchRegistered _ =>
      exact remaining_afterPrefetch call _ _ _
  | @nextPrefetch chunk later point after follows =>
      have fewer : after.remaining < point.remaining := by
        cases point <;> cases follows <;> simp [PrefetchPoint.remaining]
      simp only [Reader.remaining]
      omega
  | prefetchSubmitted unlocked scheduled =>
      simp only [Reader.remaining, PrefetchPoint.remaining]
      omega
  | prefetchDeadlocked | remember | finish | memoryHit _ | memoryMiss _ | diskRaised _
  | diskHit _ | diskMiss | put | joined _ _ | submitted _ _ | deadlocked _ _
  | registered _ | received _ _ | raised _ _ =>
      simp only [Reader.remaining, List.length_cons]
      omega

/-- The reader waits for a task that has not completed. -/
def Reader.Awaits (state : State β) (reader : Reader β) : Prop :=
  ∃ (chunk : Nat) (todo : List Nat) (result : List β) (index : Nat) (task : Task β),
    reader.point = .await chunk todo result index ∧ state.tasks[index]? = some task ∧
      ∀ outcome, task.point ≠ .done outcome

theorem addDoneCallback_isSome (key : ChunkKey) {index : Nat}
    (unlocked : state.activeLocked = false) (inside : index < state.tasks.length) :
    ∃ next, state.addDoneCallback key index = some next := by
  unfold State.addDoneCallback
  rw [List.getElem?_eq_getElem inside]
  simp only [unlocked]
  split <;> exact ⟨_, rfl⟩

/-- While the lock is free, a reader that is not lost is finished, waits for a
task or has a step, unless its task was cancelled. -/
theorem Healthy.enabled (config : Config) (weather : Weather) (healthy : Healthy state)
    (unlocked : state.activeLocked = false)
    {index : Nat} {reader : Reader β} (present : state.readers index = some reader)
    (notLost : reader.point.isLost = false)
    (kept : ∀ chunk todo result other (task : Task β),
      reader.point = .await chunk todo result other → state.tasks[other]? = some task →
      task.point ≠ .cancelled) :
    (∃ result, reader.point = .finished result) ∨ reader.Awaits state ∨
      ∃ next after, readStep config weather state reader.call reader.point =
        some (next, after) := by
  have inside (task : Nat) (waiting : reader.point.waitsFor = some task) :=
    healthy.waits index reader task present waiting
  obtain ⟨call, point⟩ := reader
  cases point with
  | finished result => exact Or.inl ⟨result, rfl⟩
  | failed | frozen => cases notLost
  | remember | putMemory chunk todo result data => exact Or.inr (Or.inr ⟨_, _, rfl⟩)
  | prefetch chunk later point =>
      refine Or.inr (Or.inr ?_)
      cases point with
      | hasLock | memory | disk =>
          simp only [readStep, prefetchStep]
          split <;> exact ⟨_, _, rfl⟩
      | schedule =>
          simp only [readStep, prefetchStep, unlocked]
          split
          · cases ‹false = true›
          · split <;> exact ⟨_, _, rfl⟩
      | register task =>
          obtain ⟨next, added⟩ := addDoneCallback_isSome (call.fileId, chunk) unlocked (inside task rfl)
          simp only [readStep, prefetchStep, added]
          exact ⟨_, _, rfl⟩
  | lookMemory todo result =>
      refine Or.inr (Or.inr ?_)
      cases todo with
      | nil => exact ⟨_, _, rfl⟩
      | cons chunk todo =>
          simp only [readStep]
          split <;> exact ⟨_, _, rfl⟩
  | lookDisk chunk todo result =>
      refine Or.inr (Or.inr ?_)
      simp only [readStep]
      split
      · exact ⟨_, _, rfl⟩
      · split <;> exact ⟨_, _, rfl⟩
  | schedule chunk todo result =>
      refine Or.inr (Or.inr ?_)
      simp only [readStep, unlocked]
      split
      · cases ‹false = true›
      · split <;> exact ⟨_, _, rfl⟩
  | register chunk todo result task =>
      refine Or.inr (Or.inr ?_)
      obtain ⟨next, added⟩ := addDoneCallback_isSome (call.fileId, chunk) unlocked (inside task rfl)
      simp only [readStep, added]
      exact ⟨_, _, rfl⟩
  | await chunk todo result task =>
      obtain ⟨waited, found⟩ : ∃ waited, state.tasks[task]? = some waited :=
        ⟨_, List.getElem?_eq_getElem (inside task rfl)⟩
      cases isPoint : waited.point with
      | done outcome =>
          refine Or.inr (Or.inr ?_)
          simp only [readStep, found, Option.map_some, isPoint]
          cases outcome <;> exact ⟨_, _, rfl⟩
      | cancelled => exact absurd isPoint (kept chunk todo result task waited rfl found)
      | queued | started | waiting | lookMemory | lookDisk | diskHit _ | request
      | requested | fetched _ | stored _ | leaving _ | returning _ =>
          exact Or.inr (Or.inl ⟨chunk, todo, result, task, _, rfl, found, by simp [isPoint]⟩)

/-- The reader comes to an end: it is finished, waits for a task that has not
completed or has a step, its own steps bring it closer to the end, and no other
step moves it. -/
structure Returns (config : Config) (state : State β) (index : Nat) (reader : Reader β) :
    Prop where
  enabled : (∃ result, reader.point = .finished result) ∨ reader.Awaits state ∨
    ∀ weather, ∃ next, step config state (.reader index weather) = some next
  closer : ∀ weather next, step config state (.reader index weather) = some next →
    ∃ later, next.readers index = some later ∧ later.call = reader.call ∧
      later.remaining config < reader.remaining config
  still : ∀ label next, (∀ weather, label ≠ .reader index weather) →
    step config state label = some next → next.readers index = some reader

theorem Stepped.reader_closer {index : Nat} {reader : Reader β}
    (present : state.readers index = some reader)
    (stepped : Stepped config state (.reader index weather) next) :
    ∃ later, next.readers index = some later ∧ later.call = reader.call ∧
      later.remaining config < reader.remaining config := by
  cases stepped with
  | @reader _ _ found moved point isFound isMoved =>
      rw [present, Option.some.injEq] at isFound
      subst isFound
      refine ⟨⟨reader.call, point⟩, ?_, rfl, isMoved.closer⟩
      rw [State.setReader_readers, if_pos rfl]

theorem Stepped.reader_still {label : Label β} {index : Nat} {reader : Reader β}
    (present : state.readers index = some reader)
    (other : ∀ weather, label ≠ .reader index weather)
    (stepped : Stepped config state label next) : next.readers index = some reader := by
  cases stepped with
  | @begin another call unused =>
      rw [State.setReader_readers]
      split
      · rename_i same
        rw [← same, present] at unused
        cases unused
      · exact present
  | @reader another weather found moved point isFound isMoved =>
      rw [State.setReader_readers]
      split
      · rename_i same
        exact absurd (same ▸ rfl) (other weather)
      · rw [isMoved.frame.2.1]
        exact present
  | task isFound isMoved => exact (congrFun isMoved.frame.2.1 index).trans present
  | callback _ _ _ _ | invalidate _ | list _ | remove _ _ | vanished _ _ | removed _
  | removeFails _ | change =>
      exact present

/-- A reader of a healthy process without cancelled tasks comes to an end. -/
theorem Healthy.returns (healthy : Healthy state) (uncancelled : ¬ state.Cancelled)
    {index : Nat} {reader : Reader β} (present : state.readers index = some reader) :
    Returns config state index reader where
  enabled := by
    have unlocked : state.activeLocked = false := by
      cases locked : state.activeLocked with
      | false => rfl
      | true => exact absurd (healthy.locked locked) uncancelled
    have notLost : reader.point.isLost = false := by
      cases lost : reader.point.isLost with
      | false => rfl
      | true => exact absurd (healthy.lost index reader present lost) uncancelled
    by_cases waiting : (∃ result, reader.point = .finished result) ∨ reader.Awaits state
    · rcases waiting with isFinished | awaits
      · exact Or.inl isFinished
      · exact Or.inr (Or.inl awaits)
    · refine Or.inr (Or.inr fun weather => ?_)
      rw [not_or] at waiting
      have kept (chunk : Nat) (todo : List Nat) (result : List β) (other : Nat) (task : Task β)
          (_ : reader.point = .await chunk todo result other)
          (isTask : state.tasks[other]? = some task) : task.point ≠ .cancelled :=
        fun isCancelled => uncancelled ⟨other, task, isTask, isCancelled⟩
      rcases healthy.enabled config weather unlocked present notLost kept
        with isFinished | awaits | ⟨after, point, moves⟩
      · exact absurd isFinished waiting.1
      · exact absurd awaits waiting.2
      · refine ⟨after.setReader index ⟨reader.call, point⟩, ?_⟩
        simp only [Cache.step, present, Option.bind_some, moves, Option.map_some]
  closer := fun _ _ taken => (stepped_of_step taken).reader_closer present
  still := fun _ _ other taken => (stepped_of_step taken).reader_still present other

end Progress

end FuseDrive.Cache
