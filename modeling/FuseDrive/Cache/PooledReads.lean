import FuseDrive.Cache.ReaderFutures
import FuseDrive.Concurrency.Dispatcher

/-!
# Reads over thread pools

The chunk manager submits its downloads to the pools `read` and `prefetch` of
the dispatcher, and a worker is busy with a download until the last of its
done-callbacks has run.  `Pooled` singles out the runs in which the pools
schedule the downloads.  In these no read waits for ever: a worker of the pool
it depends on has a step, and all steps of a run together are bounded by what
the reads ask for.
-/

namespace FuseDrive.Cache

open Transition WorkerPool
open Concurrency.Dispatcher (PoolName Workers)

variable {β : Type}

/-! ## The downloads as jobs of the pools -/

def Task.poolName (task : Task β) : PoolName :=
  if task.isPrefetch then .prefetch else .read

/-- What its pool sees of a download. -/
def Task.phase (task : Task β) : Phase :=
  match task.point with
  | .queued => .queued
  | .cancelled => .cancelled
  | .done _ => if task.callbacks = 0 then .finished else .busy
  | .started | .waiting | .lookMemory | .lookDisk | .diskHit _ | .request | .requested
  | .fetched _ | .stored _ | .leaving _ | .returning _ => .busy

def Task.job (task : Task β) : Job PoolName := ⟨task.poolName, task.phase⟩

def State.jobs (state : State β) : List (Job PoolName) := state.tasks.map Task.job

/-- A download leaves the work queue when its pool lets it. -/
def Pooled (workers : Workers) (state : State β) : Label β → Prop
  | .task index _ => ∀ task, state.tasks[index]? = some task → task.point = .queued →
      admits workers.maxWorkers state.jobs index task.job = true
  | .begin _ _ | .reader _ _ | .callback _ | .invalidate _ _ | .remove _ | .removeFails _
  | .change _ _ => True

section Jobs

variable {config : Config} {workers : Workers} {state next start finish : State β}

theorem jobs_getElem? {index : Nat} {task : Task β} (present : state.tasks[index]? = some task) :
    state.jobs[index]? = some task.job := by
  rw [State.jobs, List.getElem?_map, present, Option.map_some]

theorem jobs_setTask (index : Nat) (task : Task β) :
    (state.setTask index task).jobs = state.jobs.set index task.job := by
  simp [State.jobs, State.setTask]

theorem jobs_submit (key : ChunkKey) (total : Nat) (isPrefetch : Bool) :
    (state.submit key total isPrefetch).jobs =
      state.jobs ++ [⟨if isPrefetch then .prefetch else .read, .queued⟩] := by
  simp [State.jobs, State.submit, Task.job, Task.poolName, Task.phase]

theorem Task.job_eq {task : Task β} {phase : Phase} (isPhase : task.phase = phase) :
    task.job = ⟨task.poolName, phase⟩ := by
  rw [Task.job, isPhase]

theorem runs_of_eq (same : next.jobs = state.jobs) :
    Runs workers.maxWorkers state.jobs next.jobs := by
  rw [same]

theorem runs_submit (key : ChunkKey) (total : Nat) (isPrefetch : Bool) :
    Runs workers.maxWorkers state.jobs (state.submit key total isPrefetch).jobs := by
  rw [jobs_submit]
  exact .single ⟨.submit _, trivial, rfl⟩

theorem runs_keep {index : Nat} {task later : Task β}
    (present : state.tasks[index]? = some task) (same : later.job = task.job) :
    Runs workers.maxWorkers state.jobs (state.setTask index later).jobs := by
  refine runs_of_eq ?_
  obtain ⟨inside, isJob⟩ := List.getElem?_eq_some_iff.mp (jobs_getElem? present)
  rw [jobs_setTask, same, ← isJob, List.set_getElem_self]

theorem runs_cancel {index : Nat} {task : Task β}
    (present : state.tasks[index]? = some task) (queued : task.point = .queued) :
    Runs workers.maxWorkers state.jobs
      (state.setTask index { task with point := .cancelled }).jobs := by
  have isQueued : task.job = ⟨task.poolName, .queued⟩ :=
    Task.job_eq (by rw [Task.phase, queued])
  refine .single ⟨.cancel index, trivial, ?_⟩
  rw [jobs_setTask]
  exact advance_eq_some.mpr ⟨task.poolName, (jobs_getElem? present).trans (isQueued ▸ rfl), rfl⟩

theorem runs_busy {index : Nat} {task later : Task β}
    (present : state.tasks[index]? = some task) (pool : later.poolName = task.poolName)
    (busy : task.phase = .busy) (after : later.phase = .busy ∨ later.phase = .finished) :
    Runs workers.maxWorkers state.jobs (state.setTask index later).jobs := by
  rcases after with isBusy | isFinished
  · exact runs_keep present (by rw [Task.job, Task.job, pool, busy, isBusy])
  · refine .single ⟨.finish index, trivial, ?_⟩
    rw [jobs_setTask, Task.job, pool, isFinished]
    exact advance_eq_some.mpr
      ⟨task.poolName, (jobs_getElem? present).trans (congrArg some (Task.job_eq busy)), rfl⟩

theorem runs_scheduled {key : ChunkKey} {total : Nat} {isPrefetch : Bool}
    {scheduled : State.Scheduled}
    (effect : ScheduledOrGot state key total isPrefetch scheduled next) :
    Runs workers.maxWorkers state.jobs next.jobs := by
  cases effect with
  | joined found started => exact .refl
  | submitted absent => exact runs_submit key total isPrefetch
  | promoted asked found present queued noCallback =>
      exact ((runs_cancel present queued).trans (runs_submit key total false)).trans
        (runs_submit key total isPrefetch)
  | promotedAgain asked found present cancelled =>
      exact (runs_submit key total false).trans (runs_submit key total isPrefetch)
  | deadlocked asked found present queued callback => exact runs_cancel present queued

theorem runs_addDoneCallback {key : ChunkKey} {index : Nat}
    (added : state.addDoneCallback key index = some next) :
    Runs workers.maxWorkers state.jobs next.jobs := by
  unfold State.addDoneCallback at added
  split at added
  · rename_i task present
    split at added
    · split at added <;> cases added
      exact .refl
    · split at added <;> cases added
      exact .refl
    · rename_i notDone notCancelled
      cases added
      refine runs_keep present ?_
      have same : ({ task with callbacks := task.callbacks + 1 } : Task β).phase = task.phase := by
        unfold Task.phase
        cases isPoint : task.point with
        | done outcome => exact absurd isPoint (notDone outcome)
        | _ => rfl
      rw [Task.job, same]
      rfl
  · cases added

theorem Moved.runs {weather : Weather} {call : ReadCall} {before after : ReaderPoint β}
    (moved : Moved config weather state call before next after) :
    Runs workers.maxWorkers state.jobs next.jobs := by
  cases moved with
  | prefetchJoined _ scheduled | prefetchSubmitted _ scheduled
  | prefetchDeadlocked _ scheduled | joined _ scheduled | submitted _ scheduled
  | deadlocked _ scheduled => exact runs_scheduled (scheduledOrGot scheduled)
  | prefetchRegistered added | registered added => exact runs_addDoneCallback added
  | skipPrefetch | nextPrefetch _ | remember | finish | memoryHit _ | memoryMiss _
  | diskRaised _ | diskHit _ | diskMiss | put | received _ _ | raised _ _ => exact .refl

theorem Downloaded.phase {weather : Weather} {task : Task β} {after : TaskPoint β}
    (moved : Downloaded config weather state task task.point next after)
    (notQueued : task.point ≠ .queued) :
    task.phase = .busy ∧ (({ task with point := after } : Task β).phase = .busy ∨
      ({ task with point := after } : Task β).phase = .finished) := by
  unfold Task.phase
  generalize isPoint : task.point = before at moved
  cases moved with
  | pick => exact absurd isPoint notQueued
  | finish =>
      refine ⟨rfl, ?_⟩
      simp only
      split <;> simp
  | past _ | enter _ | lock _ | memoryHit _ | memoryMiss _ | diskRaised _ | diskHit _ | diskMiss
  | keep | ask | refused _ | reply _ | store | writeRaised _ | writeSkipped | write | leave =>
      exact ⟨rfl, Or.inl rfl⟩

/-- Every step is a run of the pools. -/
theorem Stepped.runs {label : Label β} (pooled : Pooled workers state label)
    (stepped : Stepped config state label next) :
    Runs workers.maxWorkers state.jobs next.jobs := by
  cases stepped with
  | reader present moved => exact moved.runs
  | @task index weather task moved point present isMoved =>
      have isPresent : moved.tasks[index]? = some task := by rw [isMoved.frame.1, present]
      have same : moved.jobs = state.jobs := congrArg (List.map Task.job) isMoved.frame.1
      rw [← same]
      by_cases queued : task.point = .queued
      · have started : point = .started := by
          rw [queued] at isMoved
          cases isMoved
          rfl
        have isJob : task.job = ⟨task.poolName, .queued⟩ :=
          Task.job_eq (by rw [Task.phase, queued])
        have admitted := pooled task present queued
        rw [isJob, ← same, admits_iff] at admitted
        refine .single ⟨.take index, trivial, ?_⟩
        rw [step_take ((jobs_getElem? isPresent).trans (congrArg some isJob)) admitted.1 admitted.2,
          jobs_setTask, started]
        rfl
      · obtain ⟨busy, after⟩ := isMoved.phase queued
        exact runs_busy isPresent rfl busy after
  | @callback index task outcome present isDone unlocked registered =>
      have isPresent : (state.removeFuture task.key).tasks[index]? = some task := present
      refine (runs_of_eq rfl).trans (runs_busy isPresent rfl ?_ ?_)
      · simp [Task.phase, isDone, Nat.ne_of_gt registered]
      · simp only [Task.phase, isDone]
        split <;> simp
  | begin _ | invalidate _ | list _ | remove _ _ | vanished _ _ | removed _ | removeFails _
  | change => exact .refl

/-- The downloads of the chunk manager run as jobs of the pools. -/
theorem runs_of_reaches (reached : Reaches (step config) (Pooled workers) start finish) :
    Runs workers.maxWorkers start.jobs finish.jobs := by
  induction reached with
  | refl => exact .refl
  | tail _ last induction =>
      obtain ⟨label, pooled, taken⟩ := last
      exact induction.trans ((stepped_of_step taken).runs pooled)

/-- With the pools in charge the downloads are jobs of the pools: no more are
under way than a pool has workers, and a download was taken only after those of
its pool that were submitted before it. -/
theorem served_of_reaches (booted : Booted start)
    (reached : Reaches (step config) (Pooled workers) start finish) :
    Runs workers.maxWorkers [] finish.jobs ∧
      (∀ pool, occupied finish.jobs pool ≤ workers.maxWorkers pool) ∧
      ∀ (earlier later : Nat) (first second : Task β), earlier < later →
        finish.tasks[earlier]? = some first → finish.tasks[later]? = some second →
        first.isPrefetch = second.isPrefetch → second.point ≠ .queued →
        second.point ≠ .cancelled → first.point ≠ .queued := by
  have runs := runs_of_reaches reached
  rw [State.jobs, booted.tasks] at runs
  refine ⟨runs, runs.within .nil, ?_⟩
  intro earlier later first second before isFirst isSecond same notQueued notCancelled queued
  have taken : second.job.phase.taken = true := by
    change second.phase.taken = true
    unfold Task.phase
    cases isPoint : second.point with
    | queued => exact absurd isPoint notQueued
    | cancelled => exact absurd isPoint notCancelled
    | done outcome =>
        simp only
        split <;> rfl
    | _ => rfl
  refine runs.inOrder .nil earlier later first.job second.job before (jobs_getElem? isFirst)
    (jobs_getElem? isSecond) ?_ taken ?_
  · simp [Task.job, Task.poolName, same]
  · simp [Task.job, Task.phase, queued]

end Jobs

/-! ## No read waits for ever -/

/-- A reader, a download or a done-callback moves. -/
def Label.works : Label β → Prop
  | .reader _ _ | .task _ _ | .callback _ => True
  | .begin _ _ | .invalidate _ _ | .remove _ | .removeFails _ | .change _ _ => False

/-- The pools schedule the downloads, the storage answers, what the disk
raises is handled, and no read promotes a prefetch that has its
done-callback. -/
def Undeterred (workers : Workers) (state : State β) (label : Label β) : Prop :=
  Pooled workers state label ∧ CalmLabel label ∧ NoCallbackPromoted state label

/-- Nothing went wrong, and no reader waits for a cancelled task. -/
structure Serving (state : State β) : Prop where
  healthy : Healthy state
  attended : Attended state
  unlocked : state.activeLocked = false
  alive : ∀ index reader, state.readers index = some reader → reader.point.isLost = false

section Serving

variable {config : Config} {workers : Workers} {state next start finish : State β}

theorem Booted.healthy (booted : Booted start) (unlocked : start.activeLocked = false) :
    Healthy start := by
  constructor
  · simp [booted.tasks]
  · simp [unlocked]
  · simp [booted.readers]
  · simp [booted.readers]
  · intro key index wasPrefetch found
    rw [booted.active] at found
    cases found

theorem Booted.serving (booted : Booted start) (unlocked : start.activeLocked = false) :
    Serving start where
  healthy := booted.healthy unlocked
  attended := booted.attended
  unlocked := unlocked
  alive := by simp [booted.readers]

theorem Serving.not_cancelled (serving : Serving state) {index : Nat} {reader : Reader β}
    (present : state.readers index = some reader) {chunk other : Nat} {todo : List Nat}
    {result : List β} (awaits : reader.point = .await chunk todo result other)
    {task : Task β} (isTask : state.tasks[other]? = some task) : task.point ≠ .cancelled := by
  intro isCancelled
  obtain ⟨found, isFound, settled⟩ :=
    serving.attended.waited index reader chunk other present (by rw [awaits]; rfl)
  rw [isTask, Option.some.injEq] at isFound
  subst isFound
  exact (settled (serving.attended.cancelled other task isTask isCancelled)).2 isCancelled

/-- A reader is not lost by a step that freezes nobody. -/
theorem Serving.moved (serving : Serving state) {index : Nat} {weather : Weather}
    {reader : Reader β} {after : ReaderPoint β} (handled : weather.disk ≠ .raised)
    (present : state.readers index = some reader)
    (moved : Moved config weather state reader.call reader.point next after)
    (thawed : after ≠ .frozen) :
    after.isLost = false ∧ next.activeLocked = false := by
  have unlocked := serving.unlocked
  have following (later : List Nat) : (afterPrefetch later : ReaderPoint β).isLost = false := by
    cases later <;> rfl
  have scheduled {key : ChunkKey} {total : Nat} {isPrefetch : Bool} {result : State.Scheduled}
      (taken : state.scheduleOrGet key total isPrefetch = (result, next))
      (kept : result ≠ .deadlocked) : next.activeLocked = false := by
    cases scheduledOrGot taken with
    | deadlocked _ _ _ _ _ => exact absurd rfl kept
    | joined _ _ | submitted _ | promoted _ _ _ _ _ | promotedAgain _ _ _ _ => exact unlocked
  generalize isPoint : reader.point = before at moved
  cases moved with
  | prefetchDeadlocked _ _ | deadlocked _ _ => exact absurd rfl thawed
  | prefetchJoined _ taken => exact ⟨following _, scheduled taken (by simp)⟩
  | prefetchSubmitted _ taken | joined _ taken | submitted _ taken =>
      exact ⟨rfl, scheduled taken (by simp)⟩
  | prefetchRegistered added =>
      rw [State.addDoneCallback_eq added]
      exact ⟨following _, unlocked⟩
  | registered added =>
      rw [State.addDoneCallback_eq added]
      exact ⟨rfl, unlocked⟩
  | skipPrefetch => exact ⟨following _, unlocked⟩
  | diskRaised raised => simp [diskRaises_of_handled handled] at raised
  | @raised chunk todo result other task isTask isOver =>
      rcases isOver with isDone | isCancelled
      · have fine := serving.healthy.outcomes other task isTask
        simp [isDone, TaskPoint.raised] at fine
      · exact absurd isCancelled (serving.not_cancelled present isPoint isTask)
  | nextPrefetch _ | remember | finish | memoryHit _ | memoryMiss _ | diskHit _ | diskMiss | put
  | received _ _ => exact ⟨rfl, unlocked⟩

theorem Serving.step (serving : Serving state) {label : Label β} (calm : CalmLabel label)
    (kept : NoCallbackPromoted state label) (stepped : Stepped config state label next) :
    Serving next := by
  have thawed : NoSelfWait state := by
    intro index reader present isFrozen
    have alive := serving.alive index reader present
    rw [isFrozen] at alive
    cases alive
  have stillThawed := thawed.step kept stepped
  have healthy := serving.healthy.step calm stepped
  have attended := serving.attended.step stepped
  cases stepped with
  | @begin index call unused =>
      refine ⟨healthy, attended, serving.unlocked, fun other reader present => ?_⟩
      rw [State.setReader_readers] at present
      split at present
      · cases present
        exact (firstPoint_fine call).1
      · exact serving.alive other reader present
  | @reader index weather reader moved point present isMoved =>
      have isThawed : point ≠ .frozen := by
        apply stillThawed index ⟨reader.call, point⟩
        rw [State.setReader_readers, if_pos rfl]
      obtain ⟨alive, unlocked⟩ := serving.moved calm present isMoved isThawed
      refine ⟨healthy, attended, unlocked, fun other found isFound => ?_⟩
      rw [State.setReader_readers] at isFound
      split at isFound
      · cases isFound
        exact alive
      · rw [isMoved.frame.2.1] at isFound
        exact serving.alive other found isFound
  | @task index weather task moved point present isMoved =>
      refine ⟨healthy, attended, ?_, fun other found isFound => ?_⟩
      · change moved.activeLocked = false
        rw [← serving.unlocked]
        generalize task.point = before at isMoved
        cases isMoved <;> rfl
      · rw [State.setTask, isMoved.frame.2.1] at isFound
        exact serving.alive other found isFound
  | callback _ _ _ _ | invalidate _ | list _ | remove _ _ | vanished _ _ | removed _
  | removeFails _ | change =>
      exact ⟨healthy, attended, serving.unlocked, serving.alive⟩

/-- A download that is not over has a step in fair weather, unless it waits
for the lock of its chunk. -/
theorem downloadStep_isSome {task : Task β} {point : TaskPoint β}
    (notCancelled : point ≠ .cancelled) (notDone : ∀ outcome, point ≠ .done outcome)
    (free : point = .waiting → state.lockFree task.key = true) :
    ∃ next after, downloadStep config fairWeather state task point = some (next, after) := by
  cases point with
  | cancelled => exact absurd rfl notCancelled
  | done outcome => exact absurd rfl (notDone outcome)
  | waiting =>
      simp only [downloadStep, free rfl, if_true]
      exact ⟨_, _, rfl⟩
  | started | lookMemory | requested | stored data =>
      simp only [downloadStep]
      split <;> exact ⟨_, _, rfl⟩
  | lookDisk =>
      simp only [downloadStep]
      split
      · exact ⟨_, _, rfl⟩
      · split <;> exact ⟨_, _, rfl⟩
  | queued | diskHit data | request | fetched data | leaving outcome | returning outcome =>
      exact ⟨_, _, rfl⟩

theorem task_works {index : Nat} {task : Task β} (present : state.tasks[index]? = some task)
    (admitted : task.point = .queued → admits workers.maxWorkers state.jobs index task.job = true)
    (moves : ∃ next after, downloadStep config fairWeather state task task.point =
      some (next, after)) :
    ∃ label next, label.works ∧ Undeterred workers state label ∧
      step config state label = some next := by
  obtain ⟨next, after, moves⟩ := moves
  refine ⟨.task index fairWeather, next.setTask index { task with point := after }, trivial,
    ⟨?_, ⟨rfl, by simp [fairWeather]⟩, ?_⟩, ?_⟩
  · intro other isOther queued
    rw [present, Option.some.injEq] at isOther
    subst isOther
    exact admitted queued
  · intro promoted promotes
    cases promotes
  · simp only [step, present, Option.bind_some, moves, Option.map_some]

theorem busy_works {index : Nat} {task : Task β} (unlocked : state.activeLocked = false)
    (present : state.tasks[index]? = some task) (busy : task.phase = .busy) :
    ∃ label next, label.works ∧ Undeterred workers state label ∧
      step config state label = some next := by
  have notQueued : task.point ≠ .queued := by
    intro queued
    simp [Task.phase, queued] at busy
  have notCancelled : task.point ≠ .cancelled := by
    intro cancelled
    simp [Task.phase, cancelled] at busy
  by_cases isDone : ∃ outcome, task.point = .done outcome
  · obtain ⟨outcome, isDone⟩ := isDone
    have registered : task.callbacks ≠ 0 := by
      intro none
      simp [Task.phase, isDone, none] at busy
    have moves : step config state (.callback index) =
        some ((state.removeFuture task.key).setTask index
          { task with callbacks := task.callbacks - 1 }) := by
      simp only [step, present, Option.bind_some, callbackStep, isDone, unlocked, registered,
        Bool.false_eq_true, or_self, if_false]
    exact ⟨.callback index, _, trivial, ⟨trivial, trivial, fun _ promotes => by cases promotes⟩,
      moves⟩
  · rw [not_exists] at isDone
    by_cases blocked : task.point = .waiting ∧ state.lockFree task.key = false
    · obtain ⟨-, held⟩ := blocked
      simp only [State.lockFree, List.all_eq_false, Bool.not_eq_true, Bool.not_eq_false',
        Bool.and_eq_true, decide_eq_true_eq] at held
      obtain ⟨holder, member, -, holds⟩ := held
      obtain ⟨other, isHolder⟩ := List.getElem?_of_mem member
      refine task_works isHolder ?_ (downloadStep_isSome ?_ ?_ ?_)
      · intro queued
        rw [queued] at holds
        cases holds
      · intro cancelled
        rw [cancelled] at holds
        cases holds
      · intro outcome done
        rw [done] at holds
        cases holds
      · intro waiting
        rw [waiting] at holds
        cases holds
    · refine task_works present (fun queued => absurd queued notQueued)
        (downloadStep_isSome notCancelled isDone fun waiting => ?_)
      cases free : state.lockFree task.key with
      | true => rfl
      | false => exact absurd ⟨waiting, free⟩ blocked

/-- While a download is queued or under way, some worker has a step. -/
theorem exists_work (employs : ∀ pool, 0 < workers.maxWorkers pool)
    (unlocked : state.activeLocked = false) {job : Job PoolName} (member : job ∈ state.jobs)
    (left : job.phase = .queued ∨ job.phase = .busy) :
    ∃ label next, label.works ∧ Undeterred workers state label ∧
      step config state label = some next := by
  by_cases isBusy : ∃ task ∈ state.tasks, task.phase = .busy
  · obtain ⟨task, isTask, busy⟩ := isBusy
    obtain ⟨index, present⟩ := List.getElem?_of_mem isTask
    exact busy_works unlocked present busy
  · have idle (pool : PoolName) : occupied state.jobs pool = 0 := by
      apply List.countP_eq_zero.mpr
      intro other isJob occupies
      obtain ⟨task, isTask, rfl⟩ := List.mem_map.mp isJob
      simp only [Job.occupies, Bool.and_eq_true, decide_eq_true_eq] at occupies
      exact isBusy ⟨task, isTask, occupies.2⟩
    have queued : job.phase = .queued := by
      refine left.resolve_right fun busy => ?_
      obtain ⟨task, isTask, rfl⟩ := List.mem_map.mp member
      exact isBusy ⟨task, isTask, busy⟩
    obtain ⟨index, isJob⟩ := List.getElem?_of_mem member
    obtain ⟨pool, phase⟩ := job
    cases queued
    obtain ⟨taken, -, isQueued, admitted⟩ := exists_take (idle pool) (employs pool) isJob
    obtain ⟨task, present, same⟩ : ∃ task, state.tasks[taken]? = some task ∧
        task.job = ⟨pool, .queued⟩ := by
      rw [State.jobs, List.getElem?_map, Option.map_eq_some_iff] at isQueued
      exact isQueued
    have point : task.point = .queued := by
      have phase : task.phase = .queued := congrArg Job.phase same
      unfold Task.phase at phase
      split at phase
      · assumption
      · cases phase
      · split at phase <;> cases phase
      all_goals cases phase
    refine task_works present (fun _ => same ▸ admitted) ?_
    rw [point]
    exact ⟨_, _, rfl⟩

/-- Every read came to its end, and so did every download. -/
structure AtRest (state : State β) : Prop where
  reads : ∀ index reader, state.readers index = some reader →
    ∃ result, reader.point = .finished result
  downloads : ∀ job ∈ state.jobs, job.phase = .cancelled ∨ job.phase = .finished

theorem open_of_not_over {task : Task β} (notCancelled : task.point ≠ .cancelled)
    (notDone : ∀ outcome, task.point ≠ .done outcome) :
    task.phase = .queued ∨ task.phase = .busy := by
  unfold Task.phase
  cases isPoint : task.point with
  | cancelled => exact absurd isPoint notCancelled
  | done outcome => exact absurd isPoint (notDone outcome)
  | queued => exact Or.inl rfl
  | _ => exact Or.inr rfl

theorem mem_jobs {index : Nat} {task : Task β} (present : state.tasks[index]? = some task) :
    task.job ∈ state.jobs :=
  List.mem_of_getElem? (jobs_getElem? present)

/-- A read that is not finished leaves somebody a step. -/
theorem Serving.exists_work (serving : Serving state)
    (employs : ∀ pool, 0 < workers.maxWorkers pool) {index : Nat} {reader : Reader β}
    (present : state.readers index = some reader)
    (unfinished : ∀ result, reader.point ≠ .finished result) :
    ∃ label next, label.works ∧ Undeterred workers state label ∧
      Cache.step config state label = some next := by
  rcases serving.healthy.enabled config fairWeather serving.unlocked present
      (serving.alive index reader present)
      (fun chunk todo result other task awaits isTask =>
        serving.not_cancelled present awaits isTask) with
    ⟨result, finished⟩ | ⟨chunk, todo, result, other, task, awaits, isTask, notDone⟩ |
    ⟨moved, point, moves⟩
  · exact absurd finished (unfinished result)
  · exact FuseDrive.Cache.exists_work employs serving.unlocked (mem_jobs isTask)
      (open_of_not_over (serving.not_cancelled present awaits isTask) notDone)
  · by_cases kept : NoCallbackPromoted state (.reader index fairWeather)
    · refine ⟨.reader index fairWeather, moved.setReader index ⟨reader.call, point⟩, trivial,
        ⟨trivial, by simp [CalmLabel, fairWeather], kept⟩, ?_⟩
      simp only [Cache.step, present, Option.bind_some, moves, Option.map_some]
    · -- the prefetch it would promote is still in the queue of its pool
      simp only [NoCallbackPromoted, not_forall] at kept
      obtain ⟨task, promotes, -⟩ := kept
      obtain ⟨_, other, _, _, _, _, _, _, _, _, isTask, queued⟩ := schedule_of_promoted promotes
      exact FuseDrive.Cache.exists_work employs serving.unlocked (mem_jobs isTask)
        (Or.inl (by simp [Task.job, Task.phase, queued]))

/-- Nobody has a step exactly where every read and every download is over. -/
theorem Serving.settled_iff (serving : Serving state)
    (employs : ∀ pool, 0 < workers.maxWorkers pool) :
    Settled (Cache.step config) (Undeterred workers) Label.works state ↔ AtRest state := by
  constructor
  · intro settled
    have stuck : ¬ ∃ label next, label.works ∧ Undeterred workers state label ∧
        Cache.step config state label = some next := by
      rintro ⟨label, next, works, undeterred, taken⟩
      rw [settled label undeterred works] at taken
      cases taken
    constructor
    · intro index reader present
      by_contra unfinished
      rw [not_exists] at unfinished
      exact stuck (serving.exists_work employs present unfinished)
    · intro job member
      have left : ¬ (job.phase = .queued ∨ job.phase = .busy) := fun left =>
        stuck (FuseDrive.Cache.exists_work employs serving.unlocked member left)
      cases phase : job.phase with
      | queued => exact absurd (Or.inl phase) left
      | busy => exact absurd (Or.inr phase) left
      | cancelled => exact Or.inl rfl
      | finished => exact Or.inr rfl
  · rintro served label - works
    rw [Option.eq_none_iff_forall_ne_some]
    intro next taken
    have ended {index : Nat} {task : Task β} (present : state.tasks[index]? = some task) :
        task.phase = .cancelled ∨ task.phase = .finished :=
      served.downloads task.job (mem_jobs present)
    cases stepped_of_step taken with
    | @reader index weather reader moved point present isMoved =>
        obtain ⟨result, finished⟩ := served.reads index reader present
        rw [finished] at isMoved
        cases isMoved
    | @task index weather task moved point present isMoved =>
        by_cases queued : task.point = .queued
        · have isOver := ended present
          simp [Task.phase, queued] at isOver
        · have isOver := ended present
          simp [(isMoved.phase queued).1] at isOver
    | @callback index task outcome present isDone unlocked registered =>
        have isOver := ended present
        simp [Task.phase, isDone, Nat.ne_of_gt registered] at isOver
    | begin _ | invalidate _ | list _ | remove _ _ | vanished _ _ | removed _ | removeFails _
    | change => cases works

end Serving

/-! ## The work of a run is bounded -/

/-- A bound on the steps a download has still to take. -/
def TaskPoint.left : TaskPoint β → Nat
  | .queued => 12
  | .started => 11
  | .waiting => 10
  | .lookMemory => 9
  | .lookDisk => 8
  | .request => 7
  | .requested => 6
  | .fetched _ => 5
  | .stored _ => 4
  | .diskHit _ => 3
  | .leaving _ => 2
  | .returning _ => 1
  | .cancelled | .done _ => 0

/-- A bound on the steps of a download and of its done-callbacks. -/
def Task.left (task : Task β) : Nat := task.point.left + task.callbacks

def State.load (state : State β) : Nat := (state.tasks.map Task.left).sum

/-- A bound on the steps of a read, from its call alone. -/
def Reader.cost (config : Config) (reader : Reader β) : Nat :=
  6 * (config.chunks reader.call).length + 14

/-- What the readers contribute to a total. -/
def State.perReader (state : State β) (share : Reader β → Nat) (index : Nat) : Nat :=
  (state.readers index).elim 0 share

/-- So many steps were taken, and those still to come fit into what the reads
asked for.  A step of a reader may submit two downloads, of twelve steps
each. -/
def Accounted (config : Config) (count : Nat) (state : State β) : Prop :=
  ∃ asked left, Tally (state.perReader (Reader.cost config)) asked ∧
    Tally (state.perReader (Reader.remaining config)) left ∧
    count + 25 * left + state.load ≤ 25 * asked

section Bound

variable {config : Config} {workers : Workers} {state next start finish : State β}

theorem load_setTask {index : Nat} {task : Task β} (later : Task β)
    (present : state.tasks[index]? = some task) :
    (state.setTask index later).load + task.left = state.load + later.left :=
  sum_map_set Task.left later present

theorem load_submit (key : ChunkKey) (total : Nat) (isPrefetch : Bool) :
    (state.submit key total isPrefetch).load = state.load + 12 := by
  simp [State.load, State.submit, Task.left, TaskPoint.left]

theorem load_scheduled {key : ChunkKey} {total : Nat} {isPrefetch : Bool}
    {scheduled : State.Scheduled}
    (effect : ScheduledOrGot state key total isPrefetch scheduled next) :
    next.load ≤ state.load + 24 := by
  have cancels {index : Nat} {task : Task β} (present : state.tasks[index]? = some task) :
      (state.setTask index { task with point := .cancelled }).load ≤ state.load := by
    have balance := load_setTask { task with point := .cancelled } present
    simp only [Task.left, TaskPoint.left] at balance
    omega
  cases effect with
  | joined found started => exact Nat.le_add_right _ _
  | submitted absent =>
      rw [load_submit]
      omega
  | promoted asked found present queued noCallback =>
      have lighter := cancels present
      rw [load_submit, load_submit]
      omega
  | promotedAgain asked found present cancelled => rw [load_submit, load_submit]
  | deadlocked asked found present queued callback =>
      exact Nat.le_trans (cancels present) (Nat.le_add_right _ _)

theorem load_addDoneCallback {key : ChunkKey} {index : Nat}
    (added : state.addDoneCallback key index = some next) : next.load ≤ state.load + 1 := by
  unfold State.addDoneCallback at added
  split at added
  · rename_i task present
    split at added
    · split at added <;> cases added
      exact Nat.le_add_right _ _
    · split at added <;> cases added
      exact Nat.le_add_right _ _
    · cases added
      have balance := load_setTask { task with callbacks := task.callbacks + 1 } present
      simp only [Task.left] at balance
      omega
  · cases added

theorem Moved.load_le {weather : Weather} {call : ReadCall} {before after : ReaderPoint β}
    (moved : Moved config weather state call before next after) :
    next.load ≤ state.load + 24 := by
  cases moved with
  | prefetchJoined _ scheduled | prefetchSubmitted _ scheduled
  | prefetchDeadlocked _ scheduled | joined _ scheduled | submitted _ scheduled
  | deadlocked _ scheduled => exact load_scheduled (scheduledOrGot scheduled)
  | prefetchRegistered added | registered added =>
      have grown := load_addDoneCallback added
      omega
  | skipPrefetch | nextPrefetch _ | remember | finish | memoryHit _ | memoryMiss _
  | diskRaised _ | diskHit _ | diskMiss | put | received _ _ | raised _ _ =>
      exact Nat.le_add_right _ _

theorem Downloaded.left_lt {weather : Weather} {task : Task β} {before after : TaskPoint β}
    (moved : Downloaded config weather state task before next after) :
    after.left < before.left := by
  cases moved <;> simp [TaskPoint.left]

theorem perReader_setReader (share : Reader β → Nat) (index other : Nat) (reader : Reader β) :
    (state.setReader index reader).perReader share other =
      if other = index then share reader else state.perReader share other := by
  rw [State.perReader, State.setReader_readers]
  split <;> rfl

theorem perReader_congr (same : next.readers = state.readers) (share : Reader β → Nat) :
    next.perReader share = state.perReader share := by
  funext index
  rw [State.perReader, State.perReader, same]

theorem tally_setReader {share : Reader β → Nat} {total changed : Nat} {index : Nat}
    {reader : Reader β} (tally : Tally (state.perReader share) total)
    (balance : total + share reader = changed + state.perReader share index) :
    Tally ((state.setReader index reader).perReader share) changed := by
  refine tally.change index ?_ ?_
  · intro other different
    rw [perReader_setReader, if_neg different]
  · rw [perReader_setReader, if_pos rfl]
    exact balance

theorem remaining_firstPoint (call : ReadCall) :
    Reader.remaining config ⟨call, state.firstPoint config call⟩ ≤
      Reader.cost config (⟨call, state.firstPoint config call⟩ : Reader β) := by
  unfold State.firstPoint
  split
  · simp [Reader.remaining]
  · split <;> simp [Reader.remaining, Reader.cost, PrefetchPoint.remaining]

theorem Accounted.step {count : Nat} {label : Label β} (accounted : Accounted config count state)
    (stepped : Stepped config state label next) :
    (label.works → Accounted config (count + 1) next) ∧
      (¬ label.works → Accounted config count next) := by
  obtain ⟨asked, left, isAsked, isLeft, within⟩ := accounted
  cases stepped with
  | @begin index call unused =>
      refine ⟨False.elim, fun _ => ?_⟩
      let reader : Reader β := ⟨call, state.firstPoint config call⟩
      have empty (share : Reader β → Nat) : state.perReader share index = 0 := by
        rw [State.perReader, unused]
        rfl
      refine ⟨asked + reader.cost config, left + reader.remaining config,
        tally_setReader isAsked (by rw [empty, Nat.add_zero]),
        tally_setReader isLeft (by rw [empty, Nat.add_zero]), ?_⟩
      have fits : reader.remaining config ≤ reader.cost config := remaining_firstPoint call
      change count + 25 * (left + reader.remaining config) + state.load ≤ _
      omega
  | @reader index weather reader moved point present isMoved =>
      refine ⟨fun _ => ?_, fun idle => absurd trivial idle⟩
      have shares (share : Reader β → Nat) : moved.perReader share index = share reader := by
        rw [State.perReader, isMoved.frame.2.1, present]
        rfl
      have bound := isLeft.le index
      rw [← perReader_congr isMoved.frame.2.1] at isAsked isLeft bound
      rw [shares] at bound
      have grown := isMoved.load_le
      have closer : Reader.remaining config ⟨reader.call, point⟩ < reader.remaining config :=
        isMoved.closer
      have fits : count + 1 + 25 * (left - reader.remaining config +
          Reader.remaining config ⟨reader.call, point⟩) + moved.load ≤ 25 * asked := by
        omega
      exact ⟨asked, _, tally_setReader isAsked (by rw [shares]; rfl),
        tally_setReader isLeft (by rw [shares]; omega), fits⟩
  | @task index weather task moved point present isMoved =>
      refine ⟨fun _ => ?_, fun idle => absurd trivial idle⟩
      have isPresent : moved.tasks[index]? = some task := by rw [isMoved.frame.1, present]
      have balance := load_setTask { task with point := point } isPresent
      have same : moved.load = state.load := congrArg (fun tasks => (tasks.map Task.left).sum)
        isMoved.frame.1
      have lower := isMoved.left_lt
      simp only [Task.left] at balance
      have readers : (moved.setTask index { task with point := point }).readers = state.readers :=
        isMoved.frame.2.1
      rw [← perReader_congr readers] at isAsked isLeft
      exact ⟨asked, left, isAsked, isLeft, by omega⟩
  | @callback index task outcome present isDone unlocked registered =>
      refine ⟨fun _ => ?_, fun idle => absurd trivial idle⟩
      have isPresent : (state.removeFuture task.key).tasks[index]? = some task := present
      have balance := load_setTask { task with callbacks := task.callbacks - 1 } isPresent
      have same : (state.removeFuture task.key).load = state.load := rfl
      simp only [Task.left] at balance
      exact ⟨asked, left, isAsked, isLeft, by omega⟩
  | invalidate _ | list _ | remove _ _ | vanished _ _ | removed _ | removeFails _ | change =>
      exact ⟨False.elim, fun _ => ⟨asked, left, isAsked, isLeft, within⟩⟩

theorem Booted.accounted (booted : Booted start) : Accounted config 0 start := by
  have nobody (share : Reader β → Nat) : start.perReader share = fun _ => 0 := by
    funext index
    rw [State.perReader, booted.readers]
    rfl
  refine ⟨0, 0, ?_, ?_, ?_⟩
  · rw [nobody]
    exact Tally.zero
  · rw [nobody]
    exact Tally.zero
  · simp [State.load, booted.tasks]

end Bound

/-- Reads come to their end.  In any run the steps of all reads, downloads and
done-callbacks are fewer than what the calls of the reads ask for; and over
thread pools with at least one worker each, while the storage answers and no
read promotes a prefetch that has its callback, somebody has a step until every
read has its result and every download is over. -/
theorem reads_end {config : Config} {workers : Workers} {start : State β}
    (employs : ∀ pool, 0 < workers.maxWorkers pool) (booted : Booted start)
    (unlocked : start.activeLocked = false) :
    (∀ count finish, Worked (step config) (fun _ _ => True) Label.works start count finish →
      ∃ asked, Tally (finish.perReader (Reader.cost config)) asked ∧ count ≤ 25 * asked) ∧
    ∀ finish, Reaches (step config) (Undeterred workers) start finish →
      (Settled (step config) (Undeterred workers) Label.works finish ↔ AtRest finish) := by
  constructor
  · intro count finish worked
    have accounted : Accounted config count finish := worked.invariant booted.accounted
      (fun accounted _ works taken => (accounted.step (stepped_of_step taken)).1 works)
      (fun accounted _ idle taken => (accounted.step (stepped_of_step taken)).2 idle)
    obtain ⟨asked, left, isAsked, -, within⟩ := accounted
    exact ⟨asked, isAsked, by omega⟩
  · intro finish reached
    have serving : Serving finish := reached.invariant
      (fun serving undeterred taken =>
        serving.step undeterred.2.1 undeterred.2.2 (stepped_of_step taken))
      (booted.serving unlocked)
    exact serving.settled_iff employs

/-! ## A read with one worker for each pool -/

def oneWorker : Workers := { readWorkers := 1, prefetchWorkers := 1 }

/-- A read of the first of three bytes, up to its wait, and the downloads of
its two prefetches and its own. -/
def readWithPrefetches : List (Label Nat) :=
  .begin 0 ⟨['f'], 0, 1, 3⟩ :: List.replicate 15 (.reader 0 fairWeather) ++
    List.replicate 11 (.task 0 fairWeather) ++ List.replicate 6 (.task 2 fairWeather) ++
    .callback 0 :: List.replicate 11 (.task 1 fairWeather) ++
    List.replicate 5 (.task 2 fairWeather) ++
    [.callback 1, .callback 2, .reader 0 fairWeather, .reader 0 fairWeather]

section Decidable

variable (workers : Workers) (state : State Nat)

instance : (task : Task Nat) → Decidable (task.point = .queued)
  | ⟨_, _, _, _, point, _⟩ =>
    match point with
    | .queued => .isTrue rfl
    | .cancelled | .started | .waiting | .lookMemory | .lookDisk | .diskHit _ | .request
    | .requested | .fetched _ | .stored _ | .leaving _ | .returning _ | .done _ => .isFalse nofun

instance : (label : Label Nat) → Decidable (Pooled workers state label)
  | .task index _ =>
    inferInstanceAs (Decidable (∀ task ∈ state.tasks[index]?, task.point = .queued →
      admits workers.maxWorkers state.jobs index task.job = true))
  | .begin _ _ | .reader _ _ | .callback _ | .invalidate _ _ | .remove _ | .removeFails _
  | .change _ _ =>
    .isTrue trivial

instance : (label : Label Nat) → Decidable (CalmLabel label)
  | .reader _ weather => inferInstanceAs (Decidable (weather.disk ≠ .raised))
  | .task _ weather =>
    inferInstanceAs (Decidable (weather.storageFails = false ∧ weather.disk ≠ .raised))
  | .begin _ _ | .callback _ | .invalidate _ _ | .remove _ | .removeFails _ | .change _ _ =>
      .isTrue trivial

instance (label : Label Nat) : Decidable (Undeterred workers state label) :=
  inferInstanceAs (Decidable (_ ∧ _ ∧ _))

end Decidable

theorem served_of_reaches_readWithPrefetches :
    ∃ finish, runAllowed (step oneByte) (Pooled oneWorker) (State.empty 5 [1, 2, 3])
        readWithPrefetches = some finish ∧
      finish.jobs = [⟨.prefetch, .finished⟩, ⟨.prefetch, .finished⟩, ⟨.read, .finished⟩] ∧
      Runs oneWorker.maxWorkers [] finish.jobs := by
  obtain ⟨finish, executed⟩ := Option.isSome_iff_exists.mp
    (show (runAllowed (step oneByte) (Pooled oneWorker) (State.empty 5 [1, 2, 3])
      readWithPrefetches).isSome from rfl)
  exact ⟨finish, executed, look_of_run executed State.jobs rfl,
    (served_of_reaches (Booted.empty 5 [1, 2, 3]) (Reaches.of_runAllowed executed)).1⟩

theorem reads_end_readWithPrefetches :
    ∃ count finish, Worked (step oneByte) (fun _ _ => True) Label.works
        (State.empty 5 [1, 2, 3]) count finish ∧
      (finish.readers 0).map Reader.point = some (.finished [1]) ∧
      (∃ asked, Tally (finish.perReader (Reader.cost oneByte)) asked ∧ count ≤ 25 * asked) ∧
      (Settled (step oneByte) (Undeterred oneWorker) Label.works finish ↔ AtRest finish) := by
  obtain ⟨finish, executed⟩ := Option.isSome_iff_exists.mp
    (show (runAllowed (step oneByte) (Undeterred oneWorker) (State.empty 5 [1, 2, 3])
      readWithPrefetches).isSome from rfl)
  have reached := Reaches.of_runAllowed executed
  obtain ⟨count, worked⟩ := Worked.of_reaches (reached.mono fun _ _ _ => trivial)
  have employs (pool : PoolName) : 0 < oneWorker.maxWorkers pool := by
    cases pool <;> decide
  have ends := @reads_end _ oneByte oneWorker _ employs (Booted.empty 5 [1, 2, 3]) rfl
  exact ⟨count, finish, worked,
    look_of_run executed (fun state => (state.readers 0).map Reader.point) rfl,
    ends.1 count finish worked, ends.2 finish reached⟩

end FuseDrive.Cache
