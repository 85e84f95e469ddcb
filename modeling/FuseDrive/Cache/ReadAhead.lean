import FuseDrive.Cache.SingleDownload
import Mathlib.Data.List.DropRight

/-!
# Reading ahead

A read that goes on where one of the last reads of its file ended has the two
chunks after its range prefetched.  `_prefetch` leaves a chunk alone that it
finds locked, cached or on disk, and gets a future of it otherwise.  So each of
the two is cached or on its way once the read has come past them, and stays so
as long as downloads succeed and what is cached stays cached.
-/

namespace FuseDrive.Cache

open Transition

variable {β : Type}

/-! ## What is ahead -/

/-- The chunk is in the memory cache or on disk. -/
def State.cached (state : State β) (key : ChunkKey) : Bool :=
  state.inMemory key || (state.disk.lookup key).isSome

/-- A download before it puts its chunk into the memory cache. -/
def TaskPoint.brings : TaskPoint β → Bool
  | .queued | .started | .waiting | .lookMemory | .lookDisk | .diskHit _ | .request
  | .requested | .fetched _ => true
  | .cancelled | .stored _ | .leaving _ | .returning _ | .done _ => false

/-- The next step of the download puts its chunk into the memory cache. -/
def TaskPoint.puts : TaskPoint β → Bool
  | .diskHit _ | .fetched _ => true
  | _ => false

def State.puts (state : State β) (key : ChunkKey) : Label β → Bool
  | .task index _ => (state.tasks[index]?).any fun task => task.key = key && task.point.puts
  | _ => false

/-- There was a download of the chunk, whatever has become of it. -/
def State.Known (state : State β) (key : ChunkKey) : Prop :=
  ∃ index, state.TaskOf index key

def State.Brought (state : State β) (key : ChunkKey) : Prop :=
  ∃ (index : Nat) (task : Task β), state.tasks[index]? = some task ∧ task.key = key ∧
    task.point.brings = true

/-- The chunk is cached or on its way. -/
def State.Ahead (state : State β) (key : ChunkKey) : Prop :=
  state.cached key = true ∨ state.Brought key

/-- Those who read the file know that it has the chunk, and the downloads of
the chunk succeed. -/
def Supplied (config : Config) (key : ChunkKey) (state : State β) : Label β → Prop
  | .begin _ call => call.fileId = key.1 → config.chunkStart key.2 < call.total
  | .task index weather => ∀ task ∈ state.tasks[index]?, task.key = key →
      weather.storageFails = false ∧ weather.disk ≠ .raised
  | _ => True

/-- The chunk is supplied and stays cached, and no read promotes a prefetch that
has its done-callback. -/
def Favourable (config : Config) (key : ChunkKey) (state : State β) (label : Label β) : Prop :=
  Supplied config key state label ∧ NoCallbackPromoted state label ∧
    (state.cached key = true ∨ state.puts key label = true →
      ∀ next, step config state label = some next → next.cached key = true)

/-! ## Downloads are not taken away -/

/-- What is known of the downloads. -/
structure Informed (config : Config) (key : ChunkKey) (state : State β) : Prop where
  registered : ∀ asked index wasPrefetch,
    state.active.lookup asked = some (index, wasPrefetch) → state.TaskOf index asked
  inside : ∀ (index : Nat) (task : Task β), state.tasks[index]? = some task → task.key = key →
    config.chunkStart key.2 < task.total

/-- A change of the downloads after which the chunk is still on its way. -/
structure Carries (config : Config) (key : ChunkKey) (state next : State β) : Prop where
  informed : Informed config key next
  brought : state.Brought key → next.Brought key
  known : next.Known key → state.Known key ∨ next.Brought key

section Carries

variable {config : Config} {key asked : ChunkKey} {state middle next : State β}

theorem Carries.of_eq (informed : Informed config key state) (tasks : next.tasks = state.tasks)
    (active : ∀ asked found, next.active.lookup asked = some found →
      state.active.lookup asked = some found) : Carries config key state next where
  informed := by
    constructor
    · intro asked index wasPrefetch found
      rw [State.TaskOf, tasks]
      exact informed.registered asked index wasPrefetch (active _ _ found)
    · rw [tasks]
      exact informed.inside
  brought := by
    rw [State.Brought, State.Brought, tasks]
    exact id
  known := by
    simp only [State.Known, State.TaskOf, tasks]
    exact Or.inl

theorem Carries.trans (first : Carries config key state middle)
    (second : Carries config key middle next) : Carries config key state next where
  informed := second.informed
  brought isBrought := second.brought (first.brought isBrought)
  known isKnown := by
    rcases second.known isKnown with wasKnown | isBrought
    · rcases first.known wasKnown with earlier | wasBrought
      · exact Or.inl earlier
      · exact Or.inr (second.brought wasBrought)
    · exact Or.inr isBrought

theorem State.taskOf_setTask {index : Nat} {task : Task β} (later : Task β)
    (present : state.tasks[index]? = some task) (sameKey : later.key = task.key) (other : Nat) :
    (state.setTask index later).TaskOf other key ↔ state.TaskOf other key := by
  unfold State.TaskOf
  rw [state.setTask_getElem?]
  split
  · rename_i isIndex
    rw [isIndex, present]
    simp [sameKey]
  · exact Iff.rfl

theorem Informed.setTask (informed : Informed config key state) {index : Nat}
    {task later : Task β} (present : state.tasks[index]? = some task)
    (sameKey : later.key = task.key) (sameTotal : later.total = task.total) :
    Informed config key (state.setTask index later) where
  registered asked other wasPrefetch found :=
    (State.taskOf_setTask later present sameKey other).mpr
      (informed.registered asked other wasPrefetch found)
  inside := by
    intro other found isFound isKey
    rw [state.setTask_getElem?] at isFound
    split at isFound
    · rw [present, Option.map_some, Option.some.injEq] at isFound
      subst isFound
      rw [sameTotal]
      exact informed.inside index task present (sameKey ▸ isKey)
    · exact informed.inside other found isFound isKey

theorem Carries.setTask (informed : Informed config key state) {index : Nat}
    {task later : Task β} (present : state.tasks[index]? = some task)
    (sameKey : later.key = task.key) (sameTotal : later.total = task.total)
    (goesOn : task.key = key → task.point.brings = true → later.point.brings = true) :
    Carries config key state (state.setTask index later) where
  informed := informed.setTask present sameKey sameTotal
  brought := by
    intro isBrought
    obtain ⟨other, found, isFound, isKey, brings⟩ := isBrought
    by_cases isIndex : other = index
    · subst isIndex
      rw [present, Option.some.injEq] at isFound
      subst isFound
      refine ⟨other, later, ?_, sameKey.trans isKey, goesOn isKey brings⟩
      rw [state.setTask_getElem?, if_pos rfl, present]
      rfl
    · refine ⟨other, found, ?_, isKey, brings⟩
      rw [state.setTask_getElem?, if_neg isIndex, isFound]
  known := by
    intro isKnown
    obtain ⟨other, isTask⟩ := isKnown
    exact Or.inl ⟨other, (State.taskOf_setTask later present sameKey other).mp isTask⟩

theorem State.submit_getElem? (total : Nat) (isPrefetch : Bool) (index : Nat) :
    (state.submit asked total isPrefetch).tasks[index]? =
      if index = state.tasks.length then some ⟨asked.1, asked.2, total, isPrefetch, .queued, 0⟩
      else state.tasks[index]? := by
  change (state.tasks ++ [_])[index]? = _
  grind

theorem State.brought_submit (total : Nat) (isPrefetch : Bool) :
    (state.submit asked total isPrefetch).Brought asked := by
  refine ⟨state.tasks.length, ⟨asked.1, asked.2, total, isPrefetch, .queued, 0⟩, ?_, rfl, rfl⟩
  rw [State.submit_getElem?, if_pos rfl]

theorem Informed.submit (informed : Informed config key state) {total : Nat}
    (inside : asked = key → config.chunkStart key.2 < total) (isPrefetch : Bool) :
    Informed config key (state.submit asked total isPrefetch) where
  registered := by
    intro other index wasPrefetch found
    unfold State.TaskOf
    rw [State.submit_getElem?]
    change (state.active.insert asked _).lookup other = _ at found
    rw [Dict.lookup_insert_eq] at found
    split at found
    · rename_i same
      cases found
      rw [if_pos rfl]
      exact ⟨_, rfl, same.symm⟩
    · obtain ⟨task, present, isKey⟩ := informed.registered other index wasPrefetch found
      have below := (List.getElem?_eq_some_iff.mp present).1
      rw [if_neg below.ne]
      exact ⟨task, present, isKey⟩
  inside := by
    intro index task present isKey
    rw [State.submit_getElem?] at present
    split at present
    · cases present
      exact inside isKey
    · exact informed.inside index task present isKey

theorem Carries.submit (informed : Informed config key state) {total : Nat}
    (inside : asked = key → config.chunkStart key.2 < total) (isPrefetch : Bool) :
    Carries config key state (state.submit asked total isPrefetch) where
  informed := informed.submit inside isPrefetch
  brought := by
    intro isBrought
    obtain ⟨index, task, present, isKey, brings⟩ := isBrought
    have below := (List.getElem?_eq_some_iff.mp present).1
    refine ⟨index, task, ?_, isKey, brings⟩
    rw [State.submit_getElem?, if_neg below.ne, present]
  known := by
    intro isKnown
    obtain ⟨index, task, present, isKey⟩ := isKnown
    rw [State.submit_getElem?] at present
    split at present
    · cases present
      subst isKey
      exact Or.inr (State.brought_submit total isPrefetch)
    · exact Or.inl ⟨index, task, present, isKey⟩

theorem Carries.removeFuture (informed : Informed config key state) :
    Carries config key state (state.removeFuture asked) := by
  refine .of_eq informed rfl fun other found isFound => ?_
  rw [State.removeFuture, Dict.lookup_erase_eq] at isFound
  split at isFound
  · cases isFound
  · exact isFound

theorem Carries.addDoneCallback (informed : Informed config key state) {index : Nat}
    (added : state.addDoneCallback asked index = some next) : Carries config key state next := by
  unfold State.addDoneCallback at added
  split at added
  · rename_i task present
    split at added
    · split at added <;> cases added
      exact .removeFuture informed
    · split at added <;> cases added
      exact .removeFuture informed
    · cases added
      exact .setTask informed present rfl rfl fun _ => id
  · cases added

theorem Carries.scheduledOrGot {total : Nat} {isPrefetch : Bool} {scheduled : State.Scheduled}
    (informed : Informed config key state)
    (inside : asked = key → config.chunkStart key.2 < total)
    (effect : ScheduledOrGot state asked total isPrefetch scheduled next)
    (unfrozen : scheduled ≠ .deadlocked) :
    Carries config key state next := by
  cases effect with
  | joined found started => exact .of_eq informed rfl fun _ _ found => found
  | submitted absent => exact .submit informed inside _
  | @promoted index task _ found present queued noCallback =>
      obtain ⟨known, isKnown, isAsked⟩ := informed.registered asked index true found
      rw [present, Option.some.injEq] at isKnown
      subst isKnown
      have stopped : Informed config key
          (state.setTask index { task with point := .cancelled }) :=
        informed.setTask present rfl rfl
      have first := Carries.submit stopped inside false
      have resubmitted := first.trans (.submit first.informed inside isPrefetch)
      by_cases same : asked = key
      · subst same
        exact ⟨resubmitted.informed, fun _ => State.brought_submit total isPrefetch,
          fun _ => Or.inr (State.brought_submit total isPrefetch)⟩
      · have apart : task.key ≠ key := fun isKey => same (isAsked.symm.trans isKey)
        have cancelled : Carries config key state
            (state.setTask index { task with point := .cancelled }) :=
          .setTask informed present rfl rfl fun isKey => absurd isKey apart
        exact cancelled.trans resubmitted
  | promotedAgain asked found present cancelled =>
      have first := Carries.submit informed inside false
      exact first.trans (.submit first.informed inside isPrefetch)
  | deadlocked asked found present queued callback => exact absurd rfl unfrozen

/-- No step of a read takes a download away, unless it freezes. -/
theorem Moved.carries {weather : Weather} {call : ReadCall} {before after : ReaderPoint β}
    (informed : Informed config key state)
    (inside : call.fileId = key.1 → config.chunkStart key.2 < call.total)
    (unfrozen : after ≠ .frozen)
    (moved : Moved config weather state call before next after) :
    Carries config key state next := by
  have sameFile {chunk : Nat} (same : (call.fileId, chunk) = key) :
      config.chunkStart key.2 < call.total :=
    inside (congrArg Prod.fst same)
  cases moved with
  | prefetchJoined _ scheduled | prefetchSubmitted _ scheduled | joined _ scheduled
  | submitted _ scheduled =>
      exact .scheduledOrGot informed sameFile (FuseDrive.Cache.scheduledOrGot scheduled) nofun
  | prefetchDeadlocked _ scheduled | deadlocked _ scheduled => exact absurd rfl unfrozen
  | prefetchRegistered added | registered added => exact .addDoneCallback informed added
  | skipPrefetch | nextPrefetch _ | remember | finish | memoryHit _ | memoryMiss _
  | diskRaised _ | diskHit _ | diskMiss | put | received _ _ | raised _ _ =>
      exact .of_eq informed rfl fun _ _ found => found

theorem Downloaded.keeps {weather : Weather} {task : Task β} {before after : TaskPoint β}
    (moved : Downloaded config weather state task before next after) :
    next.active = state.active ∧ next.recent = state.recent := by
  cases moved <;> exact ⟨rfl, rfl⟩

/-- A download that succeeds ends with the chunk in a cache. -/
theorem Downloaded.brings {weather : Weather} {task : Task β} {before after : TaskPoint β}
    (answers : weather.storageFails = false) (handled : weather.disk ≠ .raised)
    (inside : config.chunkStart task.chunk < task.total)
    (moved : Downloaded config weather state task before next after)
    (brings : before.brings = true) :
    after.brings = true ∨ state.cached task.key = true ∨ before.puts = true := by
  cases moved with
  | pick | enter _ | lock _ | memoryMiss _ | diskHit _ | diskMiss | ask | reply _ =>
      exact Or.inl rfl
  | memoryHit found =>
      refine Or.inr (Or.inl ?_)
      rw [State.cached, State.inMemory, found]
      rfl
  | keep | store => exact Or.inr (Or.inr rfl)
  | past beyond => exact absurd inside (Nat.not_lt.mpr beyond)
  | diskRaised raised =>
      rw [diskRaises_of_handled handled] at raised
      cases raised
  | refused fails =>
      rw [answers] at fails
      cases fails
  | writeRaised _ | writeSkipped | write | leave | finish => cases brings

end Carries

/-! ## The invariant -/

/-- A chunk that was ever asked for is ahead. -/
structure AheadOnceAsked (config : Config) (key : ChunkKey) (state : State β) : Prop where
  readers : ∀ index reader, state.readers index = some reader → reader.call.fileId = key.1 →
    config.chunkStart key.2 < reader.call.total
  informed : Informed config key state
  ahead : state.Known key → state.Ahead key

section Steps

variable {config : Config} {key : ChunkKey} {state next start finish : State β} {label : Label β}

theorem AheadOnceAsked.booted (booted : Booted start) : AheadOnceAsked config key start where
  readers := by
    intro index reader present
    rw [booted.readers index] at present
    cases present
  informed := by
    constructor
    · intro asked index wasPrefetch found
      rw [booted.active] at found
      cases found
    · intro index task present
      rw [booted.tasks] at present
      cases present
  ahead := by
    intro isKnown
    obtain ⟨index, task, present, -⟩ := isKnown
    rw [booted.tasks] at present
    cases present

/-- No favourable step takes the chunk away. -/
theorem AheadOnceAsked.carried (asked : AheadOnceAsked config key state)
    (favourable : Favourable config key state label)
    (taken : step config state label = some next) :
    Informed config key next ∧ (next.Known key → state.Known key ∨ next.Brought key) ∧
      (state.Brought key → next.Ahead key) := by
  have carried (carries : Carries config key state next) :
      Informed config key next ∧ (next.Known key → state.Known key ∨ next.Brought key) ∧
        (state.Brought key → next.Ahead key) :=
    ⟨carries.informed, carries.known, fun isBrought => Or.inr (carries.brought isBrought)⟩
  cases stepped_of_step taken with
  | @reader index weather reader moved point present isMoved =>
      have unfrozen : point ≠ .frozen := by
        intro isFrozen
        subst isFrozen
        obtain ⟨call, before⟩ := reader
        obtain ⟨chunk, todo, result, future, task, rfl, found, isTask, queued, callback⟩ :=
          isMoved.promotes_of_frozen
        have noCallback :=
          favourable.2.1 task (promoted_of_schedule present found isTask queued)
        exact absurd callback (Nat.not_lt.mpr noCallback.le)
      have carries := isMoved.carries asked.informed (asked.readers index reader present) unfrozen
      exact carried (carries.trans (.of_eq carries.informed rfl fun _ _ found => found))
  | @task index weather task moved point present isMoved =>
      have same : Carries config key state moved :=
        .of_eq asked.informed isMoved.frame.1 fun _ _ isFound => isMoved.keeps.1 ▸ isFound
      have isPresent : moved.tasks[index]? = some task := isMoved.frame.1 ▸ present
      refine ⟨same.informed.setTask isPresent rfl rfl, ?_, ?_⟩
      · intro isKnown
        obtain ⟨other, isTask⟩ := isKnown
        rw [State.taskOf_setTask { task with point := point } isPresent rfl, State.TaskOf,
          isMoved.frame.1] at isTask
        exact Or.inl ⟨other, isTask⟩
      · intro isBrought
        obtain ⟨other, found, isFound, isKey, brings⟩ := isBrought
        by_cases isIndex : other = index
        · subst isIndex
          rw [present, Option.some.injEq] at isFound
          subst isFound
          obtain ⟨answers, handled⟩ := favourable.1 task present isKey
          have inside := asked.informed.inside other task present isKey
          rw [← isKey] at inside
          rcases isMoved.brings answers handled inside brings with goesOn | kept | puts
          · refine Or.inr ⟨other, { task with point := point }, ?_, isKey, goesOn⟩
            rw [moved.setTask_getElem?, if_pos rfl, isPresent]
            rfl
          · exact Or.inl (favourable.2.2 (Or.inl (isKey ▸ kept)) _ taken)
          · refine Or.inl (favourable.2.2 (Or.inr ?_) _ taken)
            simp [State.puts, present, isKey, puts]
        · refine Or.inr ⟨other, found, ?_, isKey, brings⟩
          rw [moved.setTask_getElem?, if_neg isIndex, isMoved.frame.1, isFound]
  | @callback index task outcome present isDone unlocked registered =>
      have removed : Carries config key state (state.removeFuture task.key) :=
        .removeFuture asked.informed
      exact carried (removed.trans (.setTask removed.informed present rfl rfl fun _ => id))
  | begin _ | invalidate _ | list _ | remove _ _ | vanished _ _ | removed _ | removeFails _
  | change =>
      exact carried (.of_eq asked.informed rfl fun _ _ found => found)

theorem AheadOnceAsked.step (asked : AheadOnceAsked config key state)
    (favourable : Favourable config key state label)
    (taken : step config state label = some next) :
    AheadOnceAsked config key next ∧ (state.Ahead key → next.Ahead key) := by
  obtain ⟨informed, known, brought⟩ := asked.carried favourable taken
  have stays : state.Ahead key → next.Ahead key := by
    intro isAhead
    rcases isAhead with isCached | isBrought
    · exact Or.inl (favourable.2.2 (Or.inl isCached) next taken)
    · exact brought isBrought
  refine ⟨⟨?_, informed, ?_⟩, stays⟩
  · intro index reader present file
    rcases (stepped_of_step taken).reader_of_next present with ⟨before, was, sameCall⟩ | isBegin
    · rw [← sameCall] at file ⊢
      exact asked.readers index before was file
    · subst isBegin
      exact favourable.1 file
  · intro isKnown
    rcases known isKnown with wasKnown | isBrought
    · exact stays (asked.ahead wasKnown)
    · exact Or.inr isBrought

end Steps

/-! ## A read that prefetches -/

/-- The chunks a read has still to see to in `_prefetch`. -/
def ReaderPoint.toPrefetch : ReaderPoint β → List Nat
  | .prefetch _ later (.register _) => later
  | .prefetch chunk later _ => chunk :: later
  | _ => []

theorem toPrefetch_afterPrefetch (later : List Nat) :
    (afterPrefetch later : ReaderPoint β).toPrefetch = later := by
  cases later <;> rfl

section Prefetch

variable {config : Config} {key : ChunkKey} {state next start started finish : State β}
  {call : ReadCall}

theorem known_of_scheduled (informed : Informed config key state) {asked : ChunkKey} {total : Nat}
    {scheduled : State.Scheduled}
    (taken : state.scheduleOrGet asked total true = (scheduled, next)) :
    next.Known asked ∧ scheduled ≠ .deadlocked := by
  cases scheduledOrGot taken with
  | joined found _ => exact ⟨⟨_, informed.registered asked _ _ found⟩, nofun⟩
  | submitted absent =>
      obtain ⟨index, task, present, isKey, -⟩ : (state.submit asked total true).Brought asked :=
        State.brought_submit total true
      exact ⟨⟨index, task, present, isKey⟩, nofun⟩
  | promoted asked | promotedAgain asked | deadlocked asked => cases asked

/-- `_prefetch` leaves a chunk that is cached or was asked for. -/
theorem prefetchStep_toPrefetch (informed : Informed config key state) {chunk : Nat}
    {later : List Nat} {point : PrefetchPoint} {after : ReaderPoint β}
    (taken : prefetchStep state call chunk later point = some (next, after)) {wanted : Nat}
    (left : wanted ∈ (ReaderPoint.prefetch chunk later point : ReaderPoint β).toPrefetch) :
    wanted ∈ after.toPrefetch ∨ next.cached (call.fileId, wanted) = true ∨
      next.Known (call.fileId, wanted) := by
  have seenTo (member : wanted ∈ chunk :: later)
      (found : next.cached (call.fileId, chunk) = true ∨ next.Known (call.fileId, chunk)) :
      wanted ∈ later ∨ next.cached (call.fileId, wanted) = true ∨
        next.Known (call.fileId, wanted) := by
    rcases List.mem_cons.mp member with rfl | waits
    · exact Or.inr found
    · exact Or.inl waits
  cases point with
  | hasLock =>
      simp only [prefetchStep] at taken
      split at taken <;> cases taken
      · rename_i locked
        obtain ⟨task, member, refers⟩ := List.any_eq_true.mp locked
        obtain ⟨index, present⟩ := List.getElem?_of_mem member
        simp only [Bool.and_eq_true, decide_eq_true_eq] at refers
        rw [toPrefetch_afterPrefetch]
        exact seenTo left (Or.inr ⟨index, task, present, refers.1⟩)
      · exact Or.inl left
  | memory =>
      simp only [prefetchStep] at taken
      split at taken <;> cases taken
      · rename_i found
        rw [toPrefetch_afterPrefetch]
        apply seenTo left
        rw [State.cached, State.inMemory, found]
        exact Or.inl rfl
      · exact Or.inl left
  | disk =>
      simp only [prefetchStep] at taken
      split at taken <;> cases taken
      · rename_i found
        rw [toPrefetch_afterPrefetch]
        apply seenTo left
        rw [State.cached, found, Bool.or_true]
        exact Or.inl rfl
      · exact Or.inl left
  | schedule =>
      simp only [prefetchStep] at taken
      split at taken
      · cases taken
      · split at taken <;> cases taken <;> rename_i scheduled <;>
          obtain ⟨known, unfrozen⟩ := known_of_scheduled informed scheduled
        · rw [toPrefetch_afterPrefetch]
          exact seenTo left (Or.inr known)
        · exact seenTo left (Or.inr known)
        · exact absurd rfl unfrozen
  | register task =>
      simp only [prefetchStep, Option.map_eq_some_iff] at taken
      obtain ⟨added, isAdded, same⟩ := taken
      cases same
      rw [toPrefetch_afterPrefetch]
      exact Or.inl left

theorem reader_of_step {label : Label β} {index : Nat} {reader : Reader β}
    (present : state.readers index = some reader) (taken : step config state label = some next) :
    (∃ weather moved point, readStep config weather state reader.call reader.point =
        some (moved, point) ∧ next = moved.setReader index ⟨reader.call, point⟩) ∨
      next.readers index = some reader := by
  cases label with
  | reader moving weather =>
      simp only [step, Option.bind_eq_some_iff, Option.map_eq_some_iff] at taken
      obtain ⟨other, isOther, ⟨moved, point⟩, success, rfl⟩ := taken
      by_cases same : index = moving
      · subst same
        rw [present, Option.some.injEq] at isOther
        subst isOther
        exact Or.inl ⟨weather, moved, point, success, rfl⟩
      · right
        rw [State.setReader_readers, if_neg same, (moved_of_readStep success).frame.2.1]
        exact present
  | begin started call =>
      right
      simp only [step] at taken
      split at taken <;> cases taken
      rename_i unused
      have other : index ≠ started := by
        intro same
        rw [same, unused] at present
        cases present
      rw [State.setReader_readers, if_neg other]
      exact present
  | task moving weather =>
      right
      cases stepped_of_step taken with
      | task _ moved => exact moved.frame.2.1 ▸ present
  | callback _ | invalidate _ _ | remove _ | removeFails _ | change _ _ =>
      right
      cases stepped_of_step taken <;> exact present

/-- The read has still to see to the chunk, or the chunk is ahead. -/
def SeesTo (index : Nat) (call : ReadCall) (key : ChunkKey) (state : State β) : Prop :=
  ∃ point, state.readers index = some ⟨call, point⟩ ∧
    (key.2 ∈ point.toPrefetch ∨ state.Ahead key)

theorem SeesTo.step {label : Label β} {index : Nat} (seesTo : SeesTo index call key state)
    (asked : AheadOnceAsked config key state) (file : call.fileId = key.1)
    (favourable : Favourable config key state label)
    (taken : step config state label = some next) : SeesTo index call key next := by
  obtain ⟨point, present, left⟩ := seesTo
  obtain ⟨askedNext, stays⟩ := asked.step favourable taken
  rcases reader_of_step present taken with ⟨weather, moved, after, success, rfl⟩ | same
  · refine ⟨after, (State.setReader_readers ..).trans (if_pos rfl), ?_⟩
    rcases left with waits | isAhead
    · cases point with
      | prefetch chunk later point =>
          rcases prefetchStep_toPrefetch asked.informed success waits with still | found | known
          · exact Or.inl still
          · rw [file] at found
            exact Or.inr (Or.inl found)
          · rw [file] at known
            exact Or.inr (askedNext.ahead known)
      | remember | lookMemory | lookDisk | putMemory | schedule | register | await | finished
      | failed | frozen => cases waits
    · exact Or.inr (stays isAhead)
  · exact ⟨point, same, left.imp_right stays⟩

/-- A read that starts in a chunk at most two after one in which a remembered
read of the file ended, or before any was remembered, sees to the two chunks
after its own. -/
theorem seesTo_of_begin {index : Nat}
    (goesOn : state.recentChunks call.fileId = [] ∨ ∃ last ∈ state.recentChunks call.fileId,
      last ≤ config.startChunk call ∧ config.startChunk call ≤ last + 2)
    (inside : call.offset < call.total)
    (following : (key.2 : Int) = config.endChunk call + 1 ∨
      (key.2 : Int) = config.endChunk call + 2)
    (taken : step config state (.begin index call) = some started) :
    SeesTo index call key started := by
  simp only [step] at taken
  split at taken <;> cases taken
  have sequential : state.isSequential config call = true := by
    simp only [State.isSequential, decide_eq_true_eq]
    rcases goesOn with nothing | ⟨last, member, after, near⟩
    · exact Or.inl nothing
    · have distance : last = config.startChunk call ∨ last = config.startChunk call - 1 ∨
          last = config.startChunk call - 2 := by omega
      rcases distance with rfl | rfl | rfl
      · exact Or.inr (Or.inl member)
      · exact Or.inr (Or.inr (Or.inl member))
      · exact Or.inr (Or.inr (Or.inr member))
  refine ⟨_, (State.setReader_readers ..).trans (if_pos rfl), Or.inl ?_⟩
  rw [State.firstPoint, if_neg (Nat.not_le.mpr inside), if_pos sequential]
  change key.2 ∈ [(config.endChunk call + 1).toNat, (config.endChunk call + 2).toNat]
  rw [List.mem_cons, List.mem_singleton]
  omega

end Prefetch

/-! ## The ten reads that are remembered -/

/-- The last chunk of the read that the step remembers. -/
def State.remembers (config : Config) (fileId : Str) (state : State β) : Label β → List Int
  | .reader index _ =>
      match state.readers index with
      | some ⟨call, .remember⟩ => if call.fileId = fileId then [config.endChunk call] else []
      | _ => []
  | _ => []

/-- The last chunks of the reads of a file, in the order in which they are
remembered. -/
def remembered (config : Config) (fileId : Str) : State β → List (Label β) → List Int
  | _, [] => []
  | state, label :: labels =>
      state.remembers config fileId label ++
        match step config state label with
        | some next => remembered config fileId next labels
        | none => []

theorem rtake_rtake_append {α : Type} (first second : List α) (count : Nat) :
    (first.rtake count ++ second).rtake count = (first ++ second).rtake count := by
  simp only [List.rtake_eq_reverse_take_reverse, List.reverse_append, List.reverse_reverse,
    List.take_append, List.take_take]
  rw [Nat.min_eq_left (Nat.sub_le count second.reverse.length)]

section Remembered

variable {config : Config} {key : ChunkKey} {state next start started finish : State β}
  {call : ReadCall}

theorem State.recentChunks_remember (fileId : Str) :
    (state.remember config call).recentChunks fileId =
      if call.fileId = fileId then
        (state.recentChunks fileId ++ [config.endChunk call]).rtake 10
      else state.recentChunks fileId := by
  unfold State.remember State.recentChunks
  rw [Dict.lookup_insert_eq]
  by_cases same : call.fileId = fileId
  · subst same
    rw [if_pos rfl, if_pos rfl]
    rfl
  · rw [if_neg same, if_neg (Ne.symm same)]

/-- Only `remember` changes the memory of the reads. -/
theorem Moved.recent_eq {weather : Weather} {before after : ReaderPoint β}
    (moved : Moved config weather state call before next after) (other : before ≠ .remember) :
    next.recent = state.recent := by
  cases moved with
  | prefetchJoined _ scheduled | prefetchSubmitted _ scheduled | prefetchDeadlocked _ scheduled
  | joined _ scheduled | submitted _ scheduled | deadlocked _ scheduled =>
      rw [State.scheduleOrGet_eq scheduled]
  | prefetchRegistered added | registered added => rw [State.addDoneCallback_eq added]
  | remember => exact absurd rfl other
  | skipPrefetch | nextPrefetch _ | finish | memoryHit _ | memoryMiss _ | diskRaised _
  | diskHit _ | diskMiss | put | received _ _ | raised _ _ => rfl

theorem recentChunks_of_step {label : Label β} (fileId : Str)
    (short : (state.recentChunks fileId).length ≤ 10)
    (taken : step config state label = some next) :
    next.recentChunks fileId =
      (state.recentChunks fileId ++ state.remembers config fileId label).rtake 10 := by
  have unchanged (nothing : state.remembers config fileId label = [])
      (same : next.recent = state.recent) : next.recentChunks fileId =
        (state.recentChunks fileId ++ state.remembers config fileId label).rtake 10 := by
    rw [nothing, List.append_nil, List.rtake, Nat.sub_eq_zero_of_le short, List.drop_zero,
      State.recentChunks, State.recentChunks, same]
  cases stepped_of_step taken with
  | @reader index weather reader moved point present isMoved =>
      obtain ⟨call, before⟩ := reader
      by_cases isRemember : before = .remember
      · subst isRemember
        cases isMoved
        change (state.remember config call).recentChunks fileId = _
        rw [State.recentChunks_remember, State.remembers, present]
        dsimp only
        split
        · rfl
        · rw [List.append_nil, List.rtake, Nat.sub_eq_zero_of_le short, List.drop_zero]
      · refine unchanged ?_ (isMoved.recent_eq isRemember)
        rw [State.remembers, present]
        cases before <;> first | rfl | exact absurd rfl isRemember
  | task _ moved => exact unchanged rfl moved.keeps.2
  | begin _ | callback _ _ _ _ | invalidate _ | list _ | remove _ _ | vanished _ _ | removed _
  | removeFails _ | change =>
      exact unchanged rfl rfl

/-- `recent_chunks` are the last chunks of the ten reads remembered last. -/
theorem recentChunks_of_run {labels : List (Label β)} (fileId : Str)
    (short : (start.recentChunks fileId).length ≤ 10)
    (executed : run (step config) start labels = some finish) :
    finish.recentChunks fileId =
      (start.recentChunks fileId ++ remembered config fileId start labels).rtake 10 := by
  induction labels generalizing start with
  | nil =>
      cases executed
      rw [remembered, List.append_nil, List.rtake, Nat.sub_eq_zero_of_le short, List.drop_zero]
  | cons label labels induction =>
      obtain ⟨next, taken, rest⟩ := Option.bind_eq_some_iff.mp executed
      have recent := recentChunks_of_step fileId short taken
      have stillShort : (next.recentChunks fileId).length ≤ 10 := by
        rw [recent, List.rtake, List.length_drop]
        omega
      rw [induction stillShort rest, recent, rtake_rtake_append, remembered, taken,
        List.append_assoc]

end Remembered

/-! ## Reading on -/

section ReadOn

variable {config : Config} {key : ChunkKey} {state start started finish : State β}
  {call : ReadCall}

/-- The two chunks after a read that goes on where one of the ten reads
remembered last ended, and those after the first read, are cached or on their
way from the moment the read has come past their prefetching. -/
theorem seesTo_of_run {index : Nat} {labels : List (Label β)} (booted : Booted start)
    (unread : start.recent = ∅)
    (along : AllowedAlong (step config) (Favourable config key) start labels)
    (executed : run (step config) start labels = some state)
    (file : call.fileId = key.1)
    (goesOn : remembered config call.fileId start labels = [] ∨
      ∃ last ∈ (remembered config call.fileId start labels).rtake 10,
        last ≤ config.startChunk call ∧ config.startChunk call ≤ last + 2)
    (inside : call.offset < call.total)
    (following : (key.2 : Int) = config.endChunk call + 1 ∨
      (key.2 : Int) = config.endChunk call + 2)
    (begins : Favourable config key state (.begin index call))
    (taken : step config state (.begin index call) = some started)
    (after : Reaches (step config) (Favourable config key) started finish) :
    SeesTo index call key finish := by
  have asked : AheadOnceAsked config key state :=
    (Reaches.of_run along executed).invariant
      (fun asked favourable taken => (asked.step favourable taken).1) (.booted booted)
  have nothing : start.recentChunks call.fileId = [] := by
    rw [State.recentChunks, unread]
    rfl
  have recent : state.recentChunks call.fileId =
      (remembered config call.fileId start labels).rtake 10 := by
    rw [recentChunks_of_run call.fileId (by rw [nothing]; exact Nat.zero_le 10) executed, nothing,
      List.nil_append]
  have near : state.recentChunks call.fileId = [] ∨
      ∃ last ∈ state.recentChunks call.fileId,
        last ≤ config.startChunk call ∧ config.startChunk call ≤ last + 2 := by
    rw [recent]
    refine goesOn.imp_left fun noRead => ?_
    rw [noRead, List.rtake_nil]
  have both : (fun state => AheadOnceAsked config key state ∧ SeesTo index call key state)
      finish := by
    apply after.invariant
    · intro state label next both favourable taken
      obtain ⟨asked, seesTo⟩ := both
      exact ⟨(asked.step favourable taken).1, seesTo.step asked file favourable taken⟩
    · exact ⟨(asked.step begins taken).1, seesTo_of_begin near inside following taken⟩
  exact both.2

end ReadOn

instance (config : Config) (key : ChunkKey) (state : State Nat) :
    (label : Label Nat) → Decidable (Supplied config key state label)
  | .begin _ call =>
      inferInstanceAs (Decidable (call.fileId = key.1 → config.chunkStart key.2 < call.total))
  | .task index weather =>
      inferInstanceAs (Decidable (∀ task ∈ state.tasks[index]?, task.key = key →
        weather.storageFails = false ∧ weather.disk ≠ .raised))
  | .reader _ _ | .callback _ | .invalidate _ _ | .remove _ | .removeFails _ | .change _ _ =>
      .isTrue trivial

instance (config : Config) (key : ChunkKey) (state : State Nat) (label : Label Nat) :
    Decidable (Favourable config key state label) :=
  inferInstanceAs (Decidable (Supplied config key state label ∧
    NoCallbackPromoted state label ∧
    (state.cached key = true ∨ state.puts key label = true →
      ∀ next ∈ step config state label, next.cached key = true)))

/-- The first read sees to the chunks 1 and 2. -/
def readFirst : List (Label Nat) :=
  .begin 0 ⟨['f'], 0, 1, 3⟩ :: List.replicate 11 (.reader 0 fairWeather)

/-- A read of the next byte, as far as its prefetching. -/
def readNext (state : State Nat) : Option (State Nat) :=
  (step oneByte state (.begin 1 ⟨['f'], 1, 1, 3⟩)).bind
    (runAllowed (step oneByte) (Favourable oneByte (['f'], 2)) ·
      (List.replicate 9 (.reader 1 fairWeather)))

/-- The next read finds the chunk 2 on its way. -/
theorem seesTo_of_run_readNext :
    ∃ state finish, run (step oneByte) (State.empty 5 [1, 2, 3]) readFirst = some state ∧
      remembered oneByte ['f'] (State.empty 5 [1, 2, 3]) readFirst = [0] ∧
      readNext state = some finish ∧
      finish.readers 1 = some ⟨⟨['f'], 1, 1, 3⟩, .remember⟩ ∧
      SeesTo 1 ⟨['f'], 1, 1, 3⟩ (['f'], 2) finish := by
  obtain ⟨state, executed⟩ := Option.isSome_iff_exists.mp
    (show (runAllowed (step oneByte) (Favourable oneByte (['f'], 2)) (State.empty 5 [1, 2, 3])
      readFirst).isSome from rfl)
  obtain ⟨along, ran⟩ := run_of_runAllowed executed
  obtain ⟨finish, ends⟩ :=
    Option.isSome_iff_exists.mp (look_of_run executed (fun state => (readNext state).isSome) rfl)
  obtain ⟨started, begun, goesOn⟩ := Option.bind_eq_some_iff.mp ends
  have reader := look_of_run executed (fun state => (readNext state).map (·.readers 1)) rfl
  rw [ends] at reader
  have begins := look_of_run executed (fun state =>
    decide (Favourable oneByte (['f'], 2) state (.begin 1 ⟨['f'], 1, 1, 3⟩))) rfl
  exact ⟨state, finish, ran, rfl, ends, Option.some.inj reader,
    seesTo_of_run (Booted.empty 5 [1, 2, 3]) rfl along ran rfl
      (Or.inr ⟨0, by decide, by decide, by decide⟩) (by decide) (Or.inl rfl)
      (of_decide_eq_true begins) begun (Reaches.of_runAllowed goesOn)⟩

end FuseDrive.Cache
