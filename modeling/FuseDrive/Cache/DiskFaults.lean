import FuseDrive.Cache.DiskAccess

/-!
# Trouble of the disk cache

A failing disk cache should cost a read nothing but a download.  Four calls
escape the handlers: the opening of a chunk file that has vanished since it was
seen, by a reader or by a task, `os.makedirs`, and the removal of the temporary
file in the handler itself.  Reads go on as long as none of these fails; each
failure ends its read, or its download, with the exception.  The chunk files
are whole chunks, whatever fails.
-/

namespace FuseDrive.Cache

open Transition

variable {β : Type}

/-! ## The statement -/

/-- The storage answers, the contents of Drive stay as they are, and the reads
know their sizes. -/
def Served (contents : Str → List β) : DiskLabel β → Prop
  | .manager (.begin _ call) => call.total = (contents call.fileId).length
  | .manager (.task _ weather) => weather.storageFails = false
  | .manager (.change _ _) => False
  | _ => True

/-- A chunk manager at rest, with any chunks of the contents in its caches and
any temporary files left over. -/
structure DiskIdle (config : Config) (contents : Str → List β) (state : DiskState β) :
    Prop where
  idle : ∀ fileId, Idle config fileId (contents fileId) state.manager
  readerSaw : ∀ index, state.readerSaw index = false
  taskSaw : ∀ index, state.taskSaw index = false
  writes : ∀ index, state.writes index = none

/-- Chunk files and cached chunks are whole, and what reads return is right. -/
structure WholeChunks (config : Config) (contents : Str → List β) (state : State β) :
    Prop where
  disk : ∀ fileId chunk data, state.disk.lookup (fileId, chunk) = some data →
    data = config.chunkOf (contents fileId) chunk
  memory : ∀ fileId chunk data, state.memory.cache.lookup (fileId, chunk) = some data →
    data = config.chunkOf (contents fileId) chunk
  results : ∀ index call result, state.readers index = some ⟨call, .finished result⟩ →
    result = slice (contents call.fileId) call.offset call.length

/-- No read has raised, and no download whose exception a read could get. -/
structure Unharmed (state : State β) : Prop where
  reads : ∀ index reader, state.readers index = some reader → reader.point ≠ .failed
  downloads : ∀ (index : Nat) (task : Task β), state.tasks[index]? = some task →
    task.point.raised = false

/-- A step of the thread of a reader. -/
def DiskLabel.moves (index : Nat) : DiskLabel β → Prop
  | .manager (.reader reader _) | .readerDisk reader _ => reader = index
  | _ => False

/-- A bound on the steps a reader has still to take. -/
def DiskState.remaining (config : Config) (state : DiskState β) (index : Nat)
    (reader : Reader β) : Nat :=
  2 * reader.remaining config + if state.readerSaw index then 0 else 1

/-- The reader comes to an end: it is finished, waits for a task that has not
completed or has a step, its own steps bring it closer to the end, and no other
step moves it. -/
structure DiskReturns (config : Config) (state : DiskState β) (index : Nat)
    (reader : Reader β) : Prop where
  enabled : (∃ result, reader.point = .finished result) ∨ reader.Awaits state.manager ∨
    (∀ weather, ∃ next, diskStep config state (.manager (.reader index weather)) = some next) ∨
    ∀ access, ∃ next, diskStep config state (.readerDisk index access) = some next
  closer : ∀ label next, label.moves index → diskStep config state label = some next →
    ∃ later, next.manager.readers index = some later ∧ later.call = reader.call ∧
      next.remaining config index later < state.remaining config index reader
  still : ∀ label next, ¬ label.moves index → diskStep config state label = some next →
    next.manager.readers index = some reader

/-! ## Runs without unhandled failures -/

section Steady

variable {config : Config} {contents : Str → List β} {state next : State β}

/-- A read is lost only to the thread that waits for a lock it holds. -/
structure Steady (state : State β) : Prop where
  healthy : Healthy state
  attended : Attended state
  lost : ∀ index reader, state.readers index = some reader → reader.point.isLost = true →
    reader.point = .frozen ∧ state.activeLocked = true

theorem Steady.unharmed (steady : Steady state) : Unharmed state where
  reads := by
    intro index reader present failed
    have lost : reader.point.isLost = true := by
      rw [failed]
      rfl
    obtain ⟨frozen, -⟩ := steady.lost index reader present lost
    rw [failed] at frozen
    cases frozen
  downloads := steady.healthy.outcomes

theorem Attended.uncancelled (attended : Attended state) {reader index chunk : Nat}
    {found : Reader β} {task : Task β} (isReader : state.readers reader = some found)
    (awaits : found.point.awaits = some (chunk, index))
    (present : state.tasks[index]? = some task) : task.point ≠ .cancelled := by
  intro cancelled
  obtain ⟨waited, isWaited, settled⟩ := attended.waited reader found chunk index isReader awaits
  rw [present, Option.some.injEq] at isWaited
  subst isWaited
  exact (settled (attended.cancelled index task present cancelled)).2 cancelled

/-- A lock that a thread waits for while it holds it stays locked. -/
theorem Stepped.jammed {label : Label β} (stepped : Stepped config state label next)
    (locked : state.activeLocked = true) : next.activeLocked = true := by
  by_contra free
  rw [Bool.not_eq_true] at free
  rw [stepped.activeLocked free] at locked
  cases locked

/-- How a reader can be lost in its own step. -/
theorem Moved.frozen_of_lost (steady : Steady state) {weather : Weather} {index : Nat}
    {call : ReadCall} {before after : ReaderPoint β}
    (present : state.readers index = some ⟨call, before⟩)
    (handled : weather.disk ≠ .raised)
    (moved : Moved config weather state call before next after) (lost : after.isLost = true) :
    after = .frozen ∧ next.activeLocked = true := by
  cases moved with
  | prefetchDeadlocked unlocked scheduled | deadlocked unlocked scheduled =>
      cases scheduledOrGot scheduled
      exact ⟨rfl, rfl⟩
  | @skipPrefetch chunk later point | @prefetchJoined chunk later task next unlocked scheduled
  | @prefetchRegistered chunk later task next added => cases later <;> cases lost
  | diskRaised raised =>
      rw [diskRaises_of_handled handled] at raised
      cases raised
  | @raised chunk todo result other task isPresent isOver =>
      rcases isOver with isDone | isCancelled
      · have outcome := steady.healthy.outcomes other task isPresent
        rw [isDone] at outcome
        cases outcome
      · exact absurd isCancelled (steady.attended.uncancelled present rfl isPresent)
  | nextPrefetch _ | prefetchSubmitted _ _ | remember | finish | memoryHit _ | memoryMiss _
  | diskHit _ | diskMiss | put | joined _ _ | submitted _ _ | registered _ | received _ _ =>
      cases lost

theorem Steady.step (steady : Steady state) {label : Label β} (calm : CalmLabel label)
    (stepped : Stepped config state label next) : Steady next := by
  refine ⟨steady.healthy.step calm stepped, steady.attended.step stepped, ?_⟩
  intro other reader present lost
  have jammed := fun locked => stepped.jammed locked
  have still (old : state.readers other = some reader) :
      reader.point = .frozen ∧ next.activeLocked = true := by
    obtain ⟨frozen, locked⟩ := steady.lost other reader old lost
    exact ⟨frozen, jammed locked⟩
  cases stepped with
  | begin unused =>
      rw [State.setReader_readers] at present
      split at present
      · cases present
        rw [(firstPoint_fine _).1] at lost
        cases lost
      · exact still present
  | @reader index weather moving moved point isReader isMoved =>
      rw [State.setReader_readers] at present
      split at present
      · cases present
        obtain ⟨call, before⟩ := moving
        have isLost : point = .frozen ∧ moved.activeLocked = true :=
          isMoved.frozen_of_lost steady isReader calm lost
        exact isLost
      · rw [isMoved.frame.2.1] at present
        exact still present
  | task isTask moved =>
      rw [State.setTask, moved.frame.2.1] at present
      exact still present
  | callback _ _ _ _ | invalidate _ | list _ | remove _ _ | vanished _ _ | removed _
  | removeFails _ | change =>
      exact still present

theorem wholeChunks_of_constant
    (constant : ∀ fileId, Constant config fileId (contents fileId) state) :
    WholeChunks config contents state where
  disk := fun fileId => (constant fileId).onDisk
  memory := fun fileId => (constant fileId).upheld.memory
  results := by
    intro index call result present
    have soFar := ((constant call.fileId).upheld.readers index _ present rfl).2 trivial
    simpa [exactLaw] using soFar

end Steady

/-! ## What an unhandled failure does -/

section Harm

variable {config : Config} {contents : Str → List β} {state : DiskState β} {manager : State β}
  {label : DiskLabel β} {moving : Label β}

theorem Mirrored.sameContent (mirrored : Mirrored config state label moving)
    (served : Served contents label) (fileId : Str) :
    SameContent fileId (contents fileId) moving := by
  cases mirrored with
  | @manager moving =>
      cases moving with
      | begin index call =>
          intro same
          rw [← same]
          exact served
      | change _ _ => exact absurd served id
      | reader _ _ | task _ _ | callback _ | invalidate _ _ | remove _ | removeFails _ => trivial
  | reader _ _ | task _ _ => trivial

theorem Mirrored.calm (mirrored : Mirrored config state label moving)
    (served : Served contents label) (handled : ¬ Unhandled config state label) :
    CalmLabel moving := by
  cases mirrored with
  | @manager moving =>
      cases moving with
      | reader _ _ =>
          intro raised
          cases raised
      | task _ _ => exact ⟨served, fun raised => by cases raised⟩
      | begin _ _ | callback _ | invalidate _ _ | remove _ | removeFails _ | change _ _ => trivial
  | reader raises _ => exact fun raised => handled (raises.mp raised)
  | task raises _ => exact ⟨rfl, fun raised => handled (raises.mp raised)⟩

theorem reader_failed {before after : State β} {reader : Nat} {weather : Weather}
    {call : ReadCall} {chunk : Nat} {todo : List Nat} {result : List β}
    (isReader : before.readers reader = some ⟨call, .lookDisk chunk todo result⟩)
    (raises : State.diskRaises config weather = true)
    (taken : step config before (.reader reader weather) = some after) :
    after.readers reader = some ⟨call, .failed⟩ := by
  simp only [step, isReader, Option.bind_some, readStep, raises, if_true, Option.map_some,
    Option.some.injEq] at taken
  subst taken
  exact (State.setReader_readers ..).trans (if_pos rfl)

/-- A task whose access to the disk cache raises is about to end with an
exception. -/
theorem task_raised {before after : State β} {index : Nat} {weather : Weather} {task : Task β}
    (present : before.tasks[index]? = some task)
    (accesses : task.point = .lookDisk ∨ ∃ data, task.point = .stored data)
    (raises : State.diskRaises config weather = true)
    (taken : step config before (.task index weather) = some after) :
    after.tasks[index]? = some { task with point := .leaving none } := by
  have leaves : downloadStep config weather before task task.point =
      some (before, .leaving none) := by
    rcases accesses with looks | ⟨data, stores⟩
    · simp only [looks, downloadStep, raises, if_true]
    · simp only [stores, downloadStep, raises, if_true]
  simp only [step, present, Option.bind_some, leaves, Option.map_some, Option.some.injEq] at taken
  subst taken
  rw [before.setTask_getElem?, if_pos rfl, present]
  rfl

/-- The exception of an unhandled failure reaches a read, or the future of a
download. -/
theorem Mirrored.harms (mirrored : Mirrored config state label moving)
    (taken : step config state.manager moving = some manager)
    (unhandled : Unhandled config state label) : ¬ Unharmed manager := by
  intro unharmed
  have raised {isVideo : Bool} {outcome : DiskOutcome} (isRaised : outcome = .raised)
      (diskOn : State.diskOff config ⟨isVideo, false, outcome⟩ = false) :
      State.diskRaises config ⟨isVideo, false, outcome⟩ = true := by
    subst isRaised
    simp [State.diskRaises, diskOn]
  cases mirrored with
  | manager => cases unhandled
  | reader raises diskOn =>
      have isRaised := raises.mpr unhandled
      cases unhandled with
      | readerOpens isReader saw fails =>
          have failed := reader_failed isReader (raised isRaised (diskOn isRaised)) taken
          exact unharmed.reads _ _ failed rfl
  | @task index access isVideo outcome raises diskOn =>
      have isRaised := raises.mpr unhandled
      obtain ⟨task, present, accesses⟩ : ∃ task, state.manager.tasks[index]? = some task ∧
          (task.point = .lookDisk ∨ ∃ data, task.point = .stored data) := by
        cases unhandled with
        | taskOpens present looks _ _ => exact ⟨_, present, Or.inl looks⟩
        | makesDirectory present stores _ _ _ | removesTemp present stores _ _ =>
            exact ⟨_, present, Or.inr ⟨_, stores⟩⟩
      have failed := task_raised present accesses (raised isRaised (diskOn isRaised)) taken
      have fine := unharmed.downloads index _ failed
      cases fine

end Harm

/-! ## Runs -/

section Runs

variable {config : Config} {contents : Str → List β} {start state next finish : DiskState β}
  {label : DiskLabel β}

theorem DiskIdle.publishing (idle : DiskIdle config contents start) : Publishing start where
  locked := by
    intro key left right leftTask rightTask isLeft
    rw [(idle.idle key.1).tasks] at isLeft
    cases isLeft
  writer := by
    intro index point isWriting
    rw [idle.writes index] at isWriting
    cases isWriting

/-- Seen from the chunk manager, the accesses of a run are single steps. -/
theorem viewed_of_reaches {allowed : DiskState β → DiskLabel β → Prop}
    {permitted : State β → Label β → Prop} (idle : DiskIdle config contents start)
    (mirrors : ∀ {state label moving}, allowed state label →
      Mirrored config state label moving → permitted state.manager moving)
    (reached : Reaches (diskStep config) allowed start finish) :
    Publishing finish ∧ Reaches (step config) permitted start.manager finish.manager := by
  refine reached.viewed DiskState.manager ?_ ?_ idle.publishing
  · intro before label after publishing _ taken
    exact publishing.step (diskStepped_of_diskStep taken)
  · intro before label after publishing isAllowed taken
    rcases (diskStepped_of_diskStep taken).viewed publishing with
      ⟨same, -⟩ | ⟨moving, isStep, mirrored⟩
    · exact Or.inl same
    · exact Or.inr ⟨moving, mirrors isAllowed mirrored, isStep⟩

/-- Whatever fails, chunk files are whole and finished reads are right. -/
theorem wholeChunks_of_reaches (idle : DiskIdle config contents start)
    (reached : Reaches (diskStep config) (fun _ label => Served contents label) start finish) :
    WholeChunks config contents finish.manager := by
  obtain ⟨-, viewed⟩ : Publishing finish ∧ Reaches (step config)
      (fun _ moving => ∀ fileId, SameContent fileId (contents fileId) moving)
      start.manager finish.manager :=
    viewed_of_reaches idle (fun served mirrored => mirrored.sameContent served) reached
  refine wholeChunks_of_constant fun fileId => ?_
  have constant : Constant config fileId (contents fileId) start.manager :=
    ⟨(idle.idle fileId).drive, (idle.idle fileId).exact.upheld, (idle.idle fileId).disk⟩
  exact viewed.invariant
    (fun constant same taken => constant.step (same fileId) (stepped_of_step taken)) constant

/-- While no unhandled call fails, reads are lost to a jammed lock only. -/
theorem steady_of_reaches (idle : DiskIdle config contents start)
    (reached : Reaches (diskStep config)
      (fun state label => Served contents label ∧ ¬ Unhandled config state label)
      start finish) : Publishing finish ∧ Steady finish.manager := by
  obtain ⟨publishing, viewed⟩ : Publishing finish ∧ Reaches (step config)
      (fun _ moving => CalmLabel moving) start.manager finish.manager :=
    viewed_of_reaches idle
      (fun allowed mirrored => mirrored.calm allowed.1 allowed.2) reached
  have booted : Booted start.manager :=
    ⟨(idle.idle []).tasks, (idle.idle []).active, (idle.idle []).readers⟩
  have steady : Steady start.manager := by
    refine ⟨(idle.idle []).exact.healthy, booted.attended, ?_⟩
    intro index reader present
    rw [booted.readers index] at present
    cases present
  refine ⟨publishing, viewed.invariant ?_ steady⟩
  intro before moving after steady calm taken
  exact steady.step calm (stepped_of_step taken)

/-- A step harms the reads exactly if a call fails in it that no handler
catches. -/
theorem unharmed_iff (publishing : Publishing state) (steady : Steady state.manager)
    (served : Served contents label) (taken : diskStep config state label = some next) :
    Unharmed next.manager ↔ ¬ Unhandled config state label := by
  rcases (diskStepped_of_diskStep taken).viewed publishing with
    ⟨same, handled⟩ | ⟨moving, isStep, mirrored⟩
  · rw [same]
    exact ⟨fun _ => handled, fun _ => steady.unharmed⟩
  · constructor
    · intro unharmed unhandled
      exact mirrored.harms isStep unhandled unharmed
    · intro handled
      exact (steady.step (mirrored.calm served handled) (stepped_of_step isStep)).unharmed

/-! ## The end of a read -/

theorem accessesDisk_reader {manager : State β} {index : Nat} {reader : Reader β}
    (present : manager.readers index = some reader) (weather : Weather) :
    manager.accessesDisk (.reader index weather) = true ↔
      ∃ chunk todo result, reader.point = .lookDisk chunk todo result := by
  obtain ⟨call, point⟩ := reader
  simp only [State.accessesDisk, present]
  cases point <;> simp

theorem readerStep_isSome {reader chunk : Nat} {call : ReadCall} {todo : List Nat}
    {result : List β}
    (isReader : state.manager.readers reader = some ⟨call, .lookDisk chunk todo result⟩)
    (access : Access) :
    ∃ next, diskStep config state (.readerDisk reader access) = some next := by
  simp only [diskStep, isReader, DiskState.readerStep]
  split
  · exact ⟨_, rfl⟩
  · rename_i outcome answered
    simp only [DiskState.endReader, step, isReader, Option.bind_some, readStep]
    split
    · exact ⟨_, rfl⟩
    · split <;> exact ⟨_, rfl⟩

theorem Steady.enabled (steady : Steady state.manager)
    (unlocked : state.manager.activeLocked = false) {index : Nat} {reader : Reader β}
    (present : state.manager.readers index = some reader) :
    (∃ result, reader.point = .finished result) ∨ reader.Awaits state.manager ∨
      (∀ weather,
        ∃ next, diskStep config state (.manager (.reader index weather)) = some next) ∨
      ∀ access, ∃ next, diskStep config state (.readerDisk index access) = some next := by
  have notLost : reader.point.isLost = false := by
    by_contra lost
    rw [Bool.not_eq_false] at lost
    obtain ⟨-, locked⟩ := steady.lost index reader present lost
    rw [unlocked] at locked
    cases locked
  have kept (chunk : Nat) (todo : List Nat) (result : List β) (other : Nat) (task : Task β)
      (isPoint : reader.point = .await chunk todo result other)
      (isTask : state.manager.tasks[other]? = some task) : task.point ≠ .cancelled := by
    apply steady.attended.uncancelled present ?_ isTask
    · exact chunk
    · rw [isPoint]
      rfl
  by_cases accesses : ∃ chunk todo result, reader.point = .lookDisk chunk todo result
  · obtain ⟨call, point⟩ := reader
    obtain ⟨chunk, todo, result, isPoint⟩ := accesses
    cases isPoint
    exact Or.inr (Or.inr (Or.inr (readerStep_isSome present)))
  · by_cases waiting : (∃ result, reader.point = .finished result) ∨ reader.Awaits state.manager
    · rcases waiting with isFinished | awaits
      · exact Or.inl isFinished
      · exact Or.inr (Or.inl awaits)
    · refine Or.inr (Or.inr (Or.inl fun weather => ?_))
      rw [not_or] at waiting
      rw [← accessesDisk_reader present weather, Bool.not_eq_true] at accesses
      rcases steady.healthy.enabled config { weather with disk := .success } unlocked present
          notLost kept with isFinished | awaits | ⟨after, point, moves⟩
      · exact absurd isFinished waiting.1
      · exact absurd awaits waiting.2
      · simp only [diskStep, accesses, Bool.false_eq_true, if_false, Label.offDisk, Cache.step,
          present, Option.bind_some, moves, Option.map_some]
        exact ⟨_, rfl⟩

/-- Two steps at the disk cache are worth one of the chunk manager. -/
theorem DiskStepped.closer {index : Nat} {reader : Reader β}
    (present : state.manager.readers index = some reader) (moves : label.moves index)
    (stepped : DiskStepped config state label next) :
    ∃ later, next.manager.readers index = some later ∧ later.call = reader.call ∧
      next.remaining config index later < state.remaining config index reader := by
  cases stepped with
  | @manager label manager off taken =>
      cases label with
      | reader other weather =>
          have same : other = index := moves
          subst same
          obtain ⟨later, isLater, sameCall, fewer⟩ :=
            (stepped_of_step taken).reader_closer present
          refine ⟨later, isLater, sameCall, ?_⟩
          change 2 * later.remaining config + (if state.readerSaw other then 0 else 1) <
            2 * reader.remaining config + if state.readerSaw other then 0 else 1
          omega
      | begin _ _ | task _ _ | callback _ | invalidate _ _ | remove _ | removeFails _
      | change _ _ =>
          exact absurd moves id
  | @readerSees other access call chunk todo result isReader unseen =>
      have same : other = index := moves
      subst same
      refine ⟨reader, present, rfl, ?_⟩
      change 2 * reader.remaining config +
          (if Function.update state.readerSaw other true other then 0 else 1) <
        2 * reader.remaining config + if state.readerSaw other then 0 else 1
      rw [Function.update_self, unseen]
      simp
  | @readerEnds other access call chunk todo result outcome _ isReader answered ended =>
      have same : other = index := moves
      subst same
      obtain ⟨manager, taken, isNext⟩ := Option.map_eq_some_iff.mp ended
      cases isNext
      obtain ⟨later, isLater, sameCall, fewer⟩ :=
        (stepped_of_step taken).reader_closer present
      refine ⟨later, isLater, sameCall, ?_⟩
      change 2 * later.remaining config +
          (if Function.update state.readerSaw other false other then 0 else 1) <
        2 * reader.remaining config + if state.readerSaw other then 0 else 1
      rw [Function.update_self]
      simp only [Bool.false_eq_true, if_false]
      omega
  | taskSees _ _ _ | taskEnds _ _ _ _ | writes _ _ _ | replaces _ _ _ _ | writeEnds _ _ _ _
  | removeTemp => exact absurd moves id

theorem Mirrored.moves {moving : Label β} {index : Nat} {weather : Weather}
    (mirrored : Mirrored config state label moving) (same : moving = .reader index weather) :
    label.moves index := by
  cases mirrored with
  | @manager moving => cases moving <;> cases same; rfl
  | reader _ _ =>
      cases same
      rfl
  | task _ _ => cases same

theorem Steady.diskReturns (publishing : Publishing state) (steady : Steady state.manager)
    (unlocked : state.manager.activeLocked = false) {index : Nat} {reader : Reader β}
    (present : state.manager.readers index = some reader) :
    DiskReturns config state index reader where
  enabled := steady.enabled unlocked present
  closer := fun _ _ moves taken => (diskStepped_of_diskStep taken).closer present moves
  still := by
    intro label next other taken
    rcases (diskStepped_of_diskStep taken).viewed publishing with
      ⟨same, -⟩ | ⟨moving, isStep, mirrored⟩
    · rw [same]
      exact present
    · exact (stepped_of_step isStep).reader_still present fun _ same =>
        other (mirrored.moves same)

/-- Chunk files are whole and finished reads right in every run.  In a run in
which no unhandled call fails no read raises, and every read comes to an end as
long as no thread holds the lock of the downloads while it waits for it; and a
step that breaks the condition does harm. -/
theorem unharmed_of_reaches (idle : DiskIdle config contents start) :
    (∀ finish, Reaches (diskStep config) (fun _ label => Served contents label) start finish →
      WholeChunks config contents finish.manager) ∧
    ∀ finish, Reaches (diskStep config)
        (fun state label => Served contents label ∧ ¬ Unhandled config state label)
        start finish →
      Unharmed finish.manager ∧
      (finish.manager.activeLocked = false → ∀ index reader,
        finish.manager.readers index = some reader → DiskReturns config finish index reader) ∧
      ∀ label next, Served contents label → diskStep config finish label = some next →
        (Unharmed next.manager ↔ ¬ Unhandled config finish label) := by
  constructor
  · intro finish reached
    exact wholeChunks_of_reaches idle reached
  · intro finish reached
    obtain ⟨publishing, steady⟩ := steady_of_reaches idle reached
    refine ⟨steady.unharmed, ?_, ?_⟩
    · intro unlocked index reader present
      exact steady.diskReturns publishing unlocked present
    · intro label next served taken
      exact unharmed_iff publishing steady served taken

end Runs

/-! ## Two reads of a first byte -/

/-- A Drive with one file. -/
def oneFile : Str → List Nat := fun fileId => if fileId = ['f'] then [1, 2, 3] else []

/-- A chunk manager at rest with the given chunk files. -/
def restingDisk (chunks : Dict ChunkKey (List Nat)) : DiskState Nat where
  manager := { State.empty 5 [1, 2, 3] with disk := chunks }
  temps := ∅
  readerSaw := fun _ => false
  taskSaw := fun _ => false
  writes := fun _ => none

theorem restingDisk_idle {chunks : Dict ChunkKey (List Nat)}
    (whole : ∀ fileId chunk data, chunks.lookup (fileId, chunk) = some data →
      data = oneByte.chunkOf (oneFile fileId) chunk) :
    DiskIdle oneByte oneFile (restingDisk chunks) where
  idle := fun fileId =>
    ⟨rfl, fun _ _ found => (by cases found), whole fileId, rfl, rfl, rfl, fun _ => rfl, rfl⟩
  readerSaw := fun _ => rfl
  taskSaw := fun _ => rfl
  writes := fun _ => rfl

def working : Access := ⟨false, true, 7, 1⟩

def breaking : Access := ⟨false, false, 7, 0⟩

/-- A read goes as far as the disk cache. -/
def readToDisk : List (DiskLabel Nat) :=
  .manager (.begin 0 ⟨['f'], 0, 1, 3⟩) ::
    List.replicate 12 (.manager (.reader 0 fairWeather))

/-- Its chunk is downloaded, `os.replace` fails, and the temporary file is
removed. -/
def unreplaced : List (DiskLabel Nat) :=
  readToDisk ++ .readerDisk 0 working ::
    List.replicate 2 (.manager (.reader 0 fairWeather)) ++
    List.replicate 4 (.manager (.task 2 fairWeather)) ++ .taskDisk 2 working ::
    List.replicate 3 (.manager (.task 2 fairWeather)) ++
    List.replicate 3 (.taskDisk 2 working) ++ .taskDisk 2 breaking ::
    List.replicate 2 (.taskDisk 2 working) ++
    List.replicate 2 (.manager (.task 2 fairWeather)) ++
    List.replicate 2 (.manager (.reader 0 fairWeather))

instance (contents : Str → List Nat) :
    (label : DiskLabel Nat) → Decidable (Served contents label)
  | .manager (.begin _ call) =>
      inferInstanceAs (Decidable (call.total = (contents call.fileId).length))
  | .manager (.task _ weather) =>
      inferInstanceAs (Decidable (weather.storageFails = false))
  | .manager (.change _ _) => .isFalse id
  | .manager (.reader _ _) | .manager (.callback _) | .manager (.invalidate _ _)
  | .manager (.remove _) | .manager (.removeFails _) | .readerDisk _ _ | .taskDisk _ _
  | .removeTemp _ _ => .isTrue trivial

/-- The failure is handled, and the read returns its byte. -/
theorem unharmed_of_reaches_unreplaced :
    ∃ finish, runAllowed (diskStep oneByte)
        (fun state label => Served oneFile label ∧ ¬ Unhandled oneByte state label)
        (restingDisk ∅) unreplaced = some finish ∧
      finish.manager.readers 0 = some ⟨⟨['f'], 0, 1, 3⟩, .finished [1]⟩ ∧
      finish.manager.disk.lookup (['f'], 0) = none ∧ Unharmed finish.manager := by
  have executes : (runAllowed (diskStep oneByte)
      (fun state label => Served oneFile label ∧ ¬ Unhandled oneByte state label)
      (restingDisk ∅) unreplaced).isSome := rfl
  obtain ⟨finish, executed⟩ := Option.isSome_iff_exists.mp executes
  have reader : finish.manager.readers 0 = some ⟨⟨['f'], 0, 1, 3⟩, .finished [1]⟩ :=
    look_of_run executed (·.manager.readers 0) rfl
  have file : finish.manager.disk.lookup (['f'], 0) = none :=
    look_of_run executed (·.manager.disk.lookup (['f'], 0)) rfl
  have idle : DiskIdle oneByte oneFile (restingDisk ∅) :=
    restingDisk_idle fun _ _ _ found => by cases found
  exact ⟨finish, executed, reader, file,
    ((unharmed_of_reaches idle).2 finish (Reaches.of_runAllowed executed)).1⟩

/-- An invalidation removes the chunk file between `os.path.exists` and
`open`. -/
def vanishing : List (DiskLabel Nat) :=
  readToDisk ++ [.readerDisk 0 working, .manager (.invalidate 0 ['f']),
    .manager (.remove 0), .manager (.remove 0), .readerDisk 0 working]

/-- Then the read fails, though the storage serves every chunk. -/
theorem unharmed_fails_on_vanished :
    ¬ ∀ start finish : DiskState Nat, DiskIdle oneByte oneFile start →
      Reaches (diskStep oneByte) (fun _ label => Served oneFile label) start finish →
      Unharmed finish.manager := by
  intro holds
  have executes : (runAllowed (diskStep oneByte) (fun _ label => Served oneFile label)
      (restingDisk (AList.singleton (['f'], 0) [1])) vanishing).isSome := rfl
  obtain ⟨finish, executed⟩ := Option.isSome_iff_exists.mp executes
  have failed : finish.manager.readers 0 = some ⟨⟨['f'], 0, 1, 3⟩, .failed⟩ :=
    look_of_run executed (·.manager.readers 0) rfl
  have idle : DiskIdle oneByte oneFile (restingDisk (AList.singleton (['f'], 0) [1])) := by
    apply restingDisk_idle
    intro fileId chunk data found
    change (AList.insert (['f'], 0) [1] (∅ : Dict ChunkKey (List Nat))).lookup _ = _ at found
    rw [Dict.lookup_insert_eq] at found
    split at found
    · rename_i same
      cases same
      cases found
      rfl
    · cases found
  have unharmed := holds _ finish idle (Reaches.of_runAllowed executed)
  exact unharmed.reads 0 _ failed rfl

end FuseDrive.Cache
