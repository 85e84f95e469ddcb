import FuseDrive.Cache.SingleDownload

/-!
# Readers never see a cancelled download

A promotion cancels the future of a prefetch that is still in the work queue.
No read holds such a future: a read that finds it in the queue promotes it
itself, and one that joins it has found it running, where it can no longer be
cancelled.  So the future a read was given ends with the bytes of its chunk or
with the exception of the download.
-/

namespace FuseDrive.Cache

open Transition

variable {β : Type}

/-! ## Tasks only move forward -/

/-- A task keeps its chunk, and once it cannot be cancelled it stays so. -/
structure Task.Forward (task later : Task β) : Prop where
  key : later.key = task.key
  settled : task.settled → later.settled

/-- No task is forgotten and each moves forward. -/
def Forward (state next : State β) : Prop :=
  ∀ (index : Nat) (task : Task β), state.tasks[index]? = some task →
    ∃ later, next.tasks[index]? = some later ∧ task.Forward later

section Forward

variable {config : Config} {state middle next start finish : State β}

theorem Forward.of_tasks (tasks : next.tasks = state.tasks) : Forward state next := by
  intro index task present
  rw [← tasks] at present
  exact ⟨task, present, rfl, id⟩

theorem Forward.trans (first : Forward state middle) (second : Forward middle next) :
    Forward state next := by
  intro index task present
  obtain ⟨between, isBetween, toBetween⟩ := first index task present
  obtain ⟨later, isLater, toLater⟩ := second index between isBetween
  refine ⟨later, isLater, ?_⟩
  constructor
  · exact toLater.key.trans toBetween.key
  · intro settled
    exact toLater.settled (toBetween.settled settled)

theorem Forward.setTask {index : Nat} {task later : Task β}
    (present : state.tasks[index]? = some task) (forward : task.Forward later) :
    Forward state (state.setTask index later) := by
  intro other found isFound
  rw [state.setTask_getElem?]
  split
  · rename_i same
    subst same
    rw [present, Option.some.injEq] at isFound
    subst isFound
    exact ⟨later, by rw [present]; rfl, forward⟩
  · exact ⟨found, isFound, rfl, id⟩

theorem Forward.submit (key : ChunkKey) (total : Nat) (isPrefetch : Bool) :
    Forward state (state.submit key total isPrefetch) := by
  intro index task present
  exact ⟨task, submit_getElem? present, rfl, id⟩

/-- A promotion cancels a task that could still be cancelled. -/
theorem Forward.scheduledOrGot (attended : Attended state) {key : ChunkKey} {total : Nat}
    {isPrefetch : Bool} {scheduled : State.Scheduled}
    (effect : ScheduledOrGot state key total isPrefetch scheduled next) :
    Forward state next := by
  have cancels {index : Nat} {task : Task β} (present : state.tasks[index]? = some task)
      (queued : task.point = .queued) (found : state.active.lookup key = some (index, true)) :
      Forward state (state.setTask index { task with point := .cancelled }) := by
    obtain ⟨flagged, isFlagged, flag⟩ := attended.flags key index true found
    rw [present, Option.some.injEq] at isFlagged
    subst isFlagged
    apply Forward.setTask present
    constructor
    · rfl
    · intro settled
      exact absurd queued (settled flag).1
  cases effect with
  | joined found started => exact .of_tasks rfl
  | submitted absent => exact .submit key total isPrefetch
  | promoted asked found present queued noCallback =>
      exact ((cancels present queued found).trans (.submit key total false)).trans
        (.submit key total isPrefetch)
  | promotedAgain asked found present cancelled =>
      exact (Forward.submit key total false).trans (.submit key total isPrefetch)
  | deadlocked asked found present queued callback =>
      exact (cancels present queued found).trans (.of_tasks rfl)

theorem Forward.addDoneCallback {key : ChunkKey} {index : Nat}
    (added : state.addDoneCallback key index = some next) : Forward state next := by
  unfold State.addDoneCallback at added
  split at added
  · rename_i task present
    split at added
    · split at added <;> cases added
      exact .of_tasks rfl
    · split at added <;> cases added
      exact .of_tasks rfl
    · cases added
      exact .setTask present ⟨rfl, id⟩
  · cases added

theorem Moved.forward (attended : Attended state) {weather : Weather} {call : ReadCall}
    {before after : ReaderPoint β}
    (moved : Moved config weather state call before next after) : Forward state next := by
  cases moved with
  | prefetchJoined _ scheduled | prefetchSubmitted _ scheduled
  | prefetchDeadlocked _ scheduled | joined _ scheduled | submitted _ scheduled
  | deadlocked _ scheduled =>
      exact .scheduledOrGot attended (scheduledOrGot scheduled)
  | prefetchRegistered added | registered added => exact .addDoneCallback added
  | skipPrefetch | nextPrefetch _ | remember | finish | memoryHit _ | memoryMiss _
  | diskRaised _ | diskHit _ | diskMiss | put | received _ _ | raised _ _ =>
      exact .of_tasks rfl

/-- A download leaves the work queue, and it does not cancel itself. -/
theorem Downloaded.settled {weather : Weather} {task : Task β} {before after : TaskPoint β}
    (moved : Downloaded config weather state task before next after) :
    after ≠ .queued ∧ after ≠ .cancelled := by
  cases moved <;> simp

theorem Stepped.forward (attended : Attended state) {label : Label β}
    (stepped : Stepped config state label next) : Forward state next := by
  cases stepped with
  | reader present moved => exact (moved.forward attended).trans (.of_tasks rfl)
  | @task index weather task moved point present isMoved =>
      have isPresent : moved.tasks[index]? = some task := by
        rw [isMoved.frame.1]
        exact present
      have forward : task.Forward { task with point := point } :=
        ⟨rfl, fun _ _ => isMoved.settled⟩
      exact (Forward.of_tasks isMoved.frame.1).trans (.setTask isPresent forward)
  | @callback index task outcome present isDone unlocked registered =>
      have isPresent : (state.removeFuture task.key).tasks[index]? = some task := present
      exact (Forward.of_tasks rfl).trans (.setTask isPresent ⟨rfl, id⟩)
  | begin _ | invalidate _ | list _ | remove _ _ | vanished _ _ | removed _ | removeFails _
  | change => exact .of_tasks rfl

theorem Booted.attended (booted : Booted start) : Attended start := by
  constructor <;> simp [booted.tasks, booted.active, booted.readers]

/-- Reads go on waiting for tasks that cannot be cancelled, and tasks move
forward, in every run. -/
theorem forward_of_reaches {allowed : State β → Label β → Prop} (attended : Attended start)
    (reached : Reaches (step config) allowed start finish) :
    Attended finish ∧ Forward start finish := by
  have kept {before after : State β} {label : Label β}
      (before_ : Attended before ∧ Forward start before)
      (taken : step config before label = some after) :
      Attended after ∧ Forward start after := by
    have stepped := stepped_of_step taken
    exact ⟨before_.1.step stepped, before_.2.trans (stepped.forward before_.1)⟩
  exact reached.invariant (fun before_ _ taken => kept before_ taken) ⟨attended, .of_tasks rfl⟩

end Forward

/-! ## The futures of the readers -/

section Futures

variable {config : Config} {allowed : State β → Label β → Prop} {start middle finish : State β}

theorem taskOf_awaited (booted : Booted start)
    (reached : Reaches (step config) allowed start finish) {reader chunk index : Nat}
    {call : ReadCall} {point : ReaderPoint β}
    (isReader : finish.readers reader = some ⟨call, point⟩)
    (awaits : point.awaits = some (chunk, index)) :
    finish.TaskOf index (call.fileId, chunk) := by
  have upheld : Upheld config (anyLaw call.fileId) (fun _ => True) (fun _ => True) finish :=
    reached.invariant (fun upheld _ taken => anyLaw_step upheld (stepped_of_step taken))
      (booted.upheld call.fileId)
  have held := (upheld.readers reader _ isReader rfl).2
  cases point with
  | register _ _ _ _ | await _ _ _ _ =>
      cases awaits
      exact (held trivial).2.2
  | prefetch _ _ _ | remember | lookMemory _ _ | lookDisk _ _ _ | putMemory _ _ _ _
  | schedule _ _ _ | finished _ | failed | frozen => cases awaits

instance (fileId : Str) (content : List β) :
    (label : Label β) → Decidable (SameContent fileId content label)
  | .begin _ call =>
      inferInstanceAs (Decidable (call.fileId = fileId → call.total = content.length))
  | .change otherId _ => inferInstanceAs (Decidable (otherId ≠ fileId))
  | .reader _ _ | .task _ _ | .callback _ | .invalidate _ _ | .remove _ | .removeFails _ =>
      .isTrue trivial

/-- The bytes with which the tasks for an unchanging content end. -/
theorem bytes_of_done {fileId : Str} {content : List β}
    (idle : Idle config fileId content start)
    (same : ∀ state label, allowed state label → SameContent fileId content label)
    (reached : Reaches (step config) allowed start finish) {index : Nat} {task : Task β}
    (present : finish.tasks[index]? = some task) (file : task.fileId = fileId)
    {data : List β} (isDone : task.point = .done (some data)) :
    data = config.chunkOf content task.chunk := by
  have constant : Constant config fileId content finish :=
    reached.invariant
      (fun constant isAllowed taken => constant.step (same _ _ isAllowed) (stepped_of_step taken))
      ⟨idle.drive, idle.exact.upheld, idle.disk⟩
  have outcome := (constant.upheld.tasks index task present file).2
  rw [isDone] at outcome
  exact outcome trivial

/-- `future.result()` of a task returns the bytes of the task or raises what
the task raised. -/
def EndsAsTask (config : Config) (state : State β) (index : Nat) (task : Task β) : Prop :=
  ∀ reader call chunk todo result weather next,
    state.readers reader = some ⟨call, .await chunk todo result index⟩ →
    step config state (.reader reader weather) = some next →
    (∃ data, task.point = .done (some data) ∧
      next = state.setReader reader
        ⟨call, .lookMemory todo (result ++ config.piece call chunk data)⟩) ∨
    (task.point = .done none ∧ next = state.setReader reader ⟨call, .failed⟩)

theorem endsAsTask {state : State β} {index : Nat} {task : Task β}
    (present : state.tasks[index]? = some task) (kept : task.point ≠ .cancelled) :
    EndsAsTask config state index task := by
  intro reader call chunk todo result weather next isReader taken
  cases stepped_of_step taken with
  | reader found moved =>
      rw [isReader, Option.some.injEq] at found
      subst found
      cases moved with
      | received isPresent isDone =>
          rw [present, Option.some.injEq] at isPresent
          subst isPresent
          exact Or.inl ⟨_, isDone, rfl⟩
      | raised isPresent isOver =>
          rw [present, Option.some.injEq] at isPresent
          subst isPresent
          exact Or.inr ⟨isOver.resolve_right kept, rfl⟩

/-- The future that a read has been given is not cancelled, then or at any
later time, and those who wait for it get the bytes of the chunk or the
exception of the download. -/
theorem futures_of_readers (booted : Booted start)
    (earlier : Reaches (step config) allowed start middle)
    {reader chunk index : Nat} {call : ReadCall} {point : ReaderPoint β}
    (isReader : middle.readers reader = some ⟨call, point⟩)
    (awaits : point.awaits = some (chunk, index))
    (later : Reaches (step config) allowed middle finish) :
    ∃ task, finish.tasks[index]? = some task ∧ task.key = (call.fileId, chunk) ∧
      task.point ≠ .cancelled ∧ EndsAsTask config finish index task ∧
      ∀ content, Idle config call.fileId content start →
        (∀ state label, allowed state label → SameContent call.fileId content label) →
        ∀ data, task.point = .done (some data) → data = config.chunkOf content chunk := by
  have attended := (forward_of_reaches booted.attended earlier).1
  obtain ⟨attendedLater, forward⟩ := forward_of_reaches attended later
  obtain ⟨first, isFirst, settled⟩ := attended.waited reader _ chunk index isReader awaits
  obtain ⟨named, isNamed, isKey⟩ := taskOf_awaited booted earlier isReader awaits
  rw [isFirst, Option.some.injEq] at isNamed
  subst isNamed
  obtain ⟨task, present, toTask⟩ := forward index first isFirst
  have key : task.key = (call.fileId, chunk) := toTask.key.trans isKey
  have kept : task.point ≠ .cancelled := by
    intro cancelled
    have isPrefetch := attendedLater.cancelled index task present cancelled
    exact (toTask.settled settled isPrefetch).2 cancelled
  refine ⟨task, present, key, kept, endsAsTask present kept, ?_⟩
  intro content idle same data isDone
  have bytes := bytes_of_done idle same (earlier.trans later) present
    (congrArg Prod.fst key) isDone
  rw [show task.chunk = chunk from congrArg Prod.snd key] at bytes
  exact bytes

end Futures

/-- The second reader promotes the prefetch of the first; the future it is
given ends with its bytes. -/
theorem futures_of_readers_promoted :
    ∃ finish task, run (step oneByte) (State.empty 5 [1, 2, 3])
        (askPrefetched 4 0 ++ List.replicate 11 (.task 4 fairWeather)) = some finish ∧
      (finish.tasks[0]?).map Task.point = some .cancelled ∧
      finish.tasks[4]? = some task ∧ task.point = .done (some [2]) ∧
      EndsAsTask oneByte finish 4 task ∧ [2] = oneByte.chunkOf [1, 2, 3] 1 := by
  have same (labels : List (Label Nat)) (keep : ∀ label ∈ labels,
      SameContent ['f'] [1, 2, 3] label) (start : State Nat) :
      AllowedAlong (step oneByte) (fun _ label => SameContent ['f'] [1, 2, 3] label) start
        labels := .of_forall fun label member _ => keep label member
  obtain ⟨middle, asked⟩ := Option.isSome_iff_exists.mp
    (show (run (step oneByte) (State.empty 5 [1, 2, 3]) (askPrefetched 4 0)).isSome from rfl)
  have isReader : middle.readers 1 = some ⟨⟨['f'], 1, 1, 3⟩, .register 1 [] [] 4⟩ :=
    look_of_run asked (·.readers 1) rfl
  obtain ⟨finish, executed⟩ := Option.isSome_iff_exists.mp
    (show (run (step oneByte) (State.empty 5 [1, 2, 3])
      (askPrefetched 4 0 ++ List.replicate 11 (.task 4 fairWeather))).isSome from rfl)
  obtain ⟨between, isBetween, downloaded⟩ := run_append_eq_some.mp executed
  rw [asked, Option.some.injEq] at isBetween
  subst isBetween
  have first : (finish.tasks[0]?).map Task.point = some .cancelled :=
    look_of_run executed (fun state => (state.tasks[0]?).map Task.point) rfl
  have fifth : (finish.tasks[4]?).map Task.point = some (.done (some [2])) :=
    look_of_run executed (fun state => (state.tasks[4]?).map Task.point) rfl
  obtain ⟨task, present, key, -, ends, bytes⟩ :=
    futures_of_readers (Booted.empty 5 [1, 2, 3]) (Reaches.of_run (same _ (by decide) _) asked)
      isReader rfl (Reaches.of_run (same _ (by decide) _) downloaded)
  rw [present, Option.map_some, Option.some.injEq] at fifth
  have idle : Idle oneByte ['f'] [1, 2, 3] (State.empty 5 [1, 2, 3]) :=
    ⟨rfl, nofun, nofun, rfl, rfl, rfl, fun _ => rfl, rfl⟩
  exact ⟨finish, task, executed, first, present, fifth, ends,
    bytes [1, 2, 3] idle (fun _ _ kept => kept) [2] fifth⟩

end FuseDrive.Cache
