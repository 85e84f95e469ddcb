import FuseDrive.Cache.ReaderFutures

/-!
# The steps of the disk cache

In the chunk manager an access to the disk cache is one step.  Here every call
to the file system is a step of its own, which can fail: `os.path.exists` and
`open` in `read_chunk_from_disk_cache`; `os.makedirs`, the opening and writing
of the temporary file and `os.replace` in `write_chunk_to_disk_cache`, and the
removal of the temporary file in its handler.  Between any two of them another
thread can intervene, an invalidation for example.

The exclusive lock of the chunk keeps two tasks from writing one temporary
file, so what `os.replace` publishes is the whole chunk and an access still
comes to one step of the chunk manager.
-/

namespace FuseDrive.Cache

open Transition

variable {β : Type}

/-- What the surroundings answer to a call to the file system:
`is_video_file_by_extension`, whether the call succeeds if its file is there,
`time.time()`, and how much of the chunk has reached the temporary file. -/
structure Access where
  isVideo : Bool
  works : Bool
  time : Nat
  written : Nat
deriving DecidableEq

/-- The chunk of a temporary file and the time in its name. -/
abbrev TempFile := ChunkKey × Nat

/-- Program points of `write_chunk_to_disk_cache` behind `os.makedirs`. -/
inductive WritePoint where
  | openTemp (time : Nat)
  | write (time : Nat)
  | replace (time : Nat)
  /-- In the handler, about to look for the temporary file. -/
  | lookTemp (time : Nat)
  | removeTemp (time : Nat)
deriving DecidableEq

/-- The chunk manager, the temporary files of the disk cache, the readers and
tasks that have seen their chunk file exist, and the tasks that are writing. -/
structure DiskState (β : Type) where
  manager : State β
  temps : Dict TempFile (List β)
  readerSaw : Nat → Bool
  taskSaw : Nat → Bool
  writes : Nat → Option WritePoint

/-- A call of `read_chunk_from_disk_cache`: the outcome, if this call ends it.
`present` tells that the chunk file is there and `saw` that
`os.path.exists` has found it. -/
def readAccess (config : Config) (access : Access) (present saw : Bool) :
    Option DiskOutcome :=
  if saw then some (if access.works && present then .success else .raised)
  else if State.diskOff config ⟨access.isVideo, false, .success⟩ || !present then some .success
  else none

/-- How a call of `write_chunk_to_disk_cache` leaves the temporary files, and
what follows it. -/
inductive WriteStep (β : Type) where
  | continues (temps : Dict TempFile (List β)) (point : WritePoint)
  | replaced (temps : Dict TempFile (List β)) (content : List β)
  | ended (temps : Dict TempFile (List β)) (outcome : DiskOutcome)

/-- A call of `write_chunk_to_disk_cache`. -/
def writeAccess (config : Config) (access : Access) (key : ChunkKey) (data : List β)
    (temps : Dict TempFile (List β)) : Option WritePoint → WriteStep β
  | none =>
      if State.diskOff config ⟨access.isVideo, false, .success⟩ then .ended temps .success
      -- `os.makedirs` is outside the `try`
      else if access.works then .continues temps (.openTemp access.time)
      else .ended temps .raised
  | some (.openTemp time) =>
      if access.works then .continues (temps.insert (key, time) []) (.write time)
      else .continues temps (.lookTemp time)
  | some (.write time) =>
      let written :=
        -- the name may be gone while the file is open
        if (temps.lookup (key, time)).isSome then
          temps.insert (key, time) (data.take access.written)
        else temps
      if !access.works then .continues written (.lookTemp time)
      else if data.length ≤ access.written then .continues written (.replace time)
      else .continues written (.write time)
  | some (.replace time) =>
      match temps.lookup (key, time) with
      | some content =>
          if access.works then .replaced (temps.erase (key, time)) content
          else .continues temps (.lookTemp time)
      | none => .continues temps (.lookTemp time)
  | some (.lookTemp time) =>
      if (temps.lookup (key, time)).isSome then .continues temps (.removeTemp time)
      else .ended temps .caught
  | some (.removeTemp time) =>
      if access.works && (temps.lookup (key, time)).isSome then
        .ended (temps.erase (key, time)) .caught
      else .ended temps .raised

/-- The step of the chunk manager is an access to the disk cache. -/
def State.accessesDisk (state : State β) : Label β → Bool
  | .reader index _ =>
      match state.readers index with
      | some ⟨_, .lookDisk _ _ _⟩ => true
      | _ => false
  | .task index _ =>
      match (state.tasks[index]?).map Task.point with
      | some .lookDisk | some (.stored _) => true
      | _ => false
  | _ => false

/-- The step without the outcome of an access to the disk cache. -/
def Label.offDisk : Label β → Label β
  | .reader index weather => .reader index { weather with disk := .success }
  | .task index weather => .task index { weather with disk := .success }
  | label => label

/-- The steps: of the chunk manager, of an access of a reader or a task to the
disk cache, and of an invalidation that removes a temporary file. -/
inductive DiskLabel (β : Type) where
  | manager (label : Label β)
  | readerDisk (reader : Nat) (access : Access)
  | taskDisk (task : Nat) (access : Access)
  | removeTemp (invalidation : Nat) (temp : TempFile)

namespace DiskState

/-- The access of a task comes to its end: the task goes on from it. -/
def endTask (config : Config) (state : DiskState β) (index : Nat) (weather : Weather) :
    Option (DiskState β) :=
  (step config state.manager (.task index weather)).map fun manager =>
    { state with
      manager := manager
      taskSaw := Function.update state.taskSaw index false
      writes := Function.update state.writes index none }

def endReader (config : Config) (state : DiskState β) (reader : Nat) (weather : Weather) :
    Option (DiskState β) :=
  (step config state.manager (.reader reader weather)).map fun manager =>
    { state with
      manager := manager
      readerSaw := Function.update state.readerSaw reader false }

def setTemps (state : DiskState β) (temps : Dict TempFile (List β)) : DiskState β :=
  { state with temps := temps }

/-- `os.replace` has put the content at the place of the chunk. -/
def placeChunk (state : DiskState β) (key : ChunkKey) (content : List β) : DiskState β :=
  { state with
    manager := { state.manager with disk := state.manager.disk.insert key content } }

/-- An access of a reader at a chunk. -/
def readerStep (config : Config) (state : DiskState β) (reader : Nat) (key : ChunkKey)
    (access : Access) : Option (DiskState β) :=
  let saw := state.readerSaw reader
  match readAccess config access (state.manager.disk.lookup key).isSome saw with
  | none => some { state with readerSaw := Function.update state.readerSaw reader true }
  | some outcome => state.endReader config reader ⟨access.isVideo || saw, false, outcome⟩

/-- An access of a task to the disk cache. -/
def taskStep (config : Config) (state : DiskState β) (index : Nat) (task : Task β)
    (access : Access) : Option (DiskState β) :=
  match task.point with
  | .lookDisk =>
      let saw := state.taskSaw index
      match readAccess config access (state.manager.disk.lookup task.key).isSome saw with
      | none => some { state with taskSaw := Function.update state.taskSaw index true }
      | some outcome => state.endTask config index ⟨access.isVideo || saw, false, outcome⟩
  | .stored data =>
      let point := state.writes index
      match writeAccess config access task.key data state.temps point with
      | .continues temps next =>
          some { state with
            temps := temps
            writes := Function.update state.writes index (some next) }
      | .replaced temps content =>
          ((state.setTemps temps).endTask config index ⟨true, false, .caught⟩).map
            (·.placeChunk task.key content)
      | .ended temps outcome =>
          (state.setTemps temps).endTask config index
            ⟨access.isVideo || point.isSome, false, outcome⟩
  | _ => none

end DiskState

/-- The transition system. -/
def diskStep (config : Config) (state : DiskState β) : DiskLabel β → Option (DiskState β)
  | .manager label =>
      if state.manager.accessesDisk label then none
      else
        (step config state.manager label.offDisk).map fun manager =>
          { state with manager := manager }
  | .readerDisk reader access =>
      match state.manager.readers reader with
      | some ⟨call, .lookDisk chunk _ _⟩ =>
          state.readerStep config reader (call.fileId, chunk) access
      | _ => none
  | .taskDisk index access =>
      (state.manager.tasks[index]?).bind fun task => state.taskStep config index task access
  | .removeTemp index temp =>
      match state.manager.invalidations index with
      | .removing fileId _ =>
          if temp.1.1 = fileId then some (state.setTemps (state.temps.erase temp)) else none
      | _ => none

/-- The calls whose failure no handler catches: the opening of a chunk file
that was seen to exist, `os.makedirs`, and the removal of a temporary file that
was seen to exist. -/
inductive Unhandled (config : Config) (state : DiskState β) : DiskLabel β → Prop where
  | readerOpens {reader access call chunk todo result}
      (isReader : state.manager.readers reader = some ⟨call, .lookDisk chunk todo result⟩)
      (saw : state.readerSaw reader = true)
      (fails : access.works = false ∨
        state.manager.disk.lookup (call.fileId, chunk) = none) :
      Unhandled config state (.readerDisk reader access)
  | taskOpens {index access task} (present : state.manager.tasks[index]? = some task)
      (looks : task.point = .lookDisk) (saw : state.taskSaw index = true)
      (fails : access.works = false ∨ state.manager.disk.lookup task.key = none) :
      Unhandled config state (.taskDisk index access)
  | makesDirectory {index access task data}
      (present : state.manager.tasks[index]? = some task) (stores : task.point = .stored data)
      (begins : state.writes index = none)
      (diskOn : State.diskOff config ⟨access.isVideo, false, .success⟩ = false)
      (fails : access.works = false) : Unhandled config state (.taskDisk index access)
  | removesTemp {index access task data time}
      (present : state.manager.tasks[index]? = some task) (stores : task.point = .stored data)
      (removes : state.writes index = some (.removeTemp time))
      (fails : access.works = false ∨ state.temps.lookup (task.key, time) = none) :
      Unhandled config state (.taskDisk index access)

/-! ## What a step can do -/

/-- The effect of every step. -/
inductive DiskStepped (config : Config) (state : DiskState β) :
    DiskLabel β → DiskState β → Prop where
  | manager {label manager} (off : state.manager.accessesDisk label = false)
      (taken : step config state.manager label.offDisk = some manager) :
      DiskStepped config state (.manager label) { state with manager := manager }
  | readerSees {reader access call chunk todo result}
      (isReader : state.manager.readers reader = some ⟨call, .lookDisk chunk todo result⟩)
      (unseen : state.readerSaw reader = false) :
      DiskStepped config state (.readerDisk reader access)
        { state with readerSaw := Function.update state.readerSaw reader true }
  | readerEnds {reader access call chunk todo result outcome next}
      (isReader : state.manager.readers reader = some ⟨call, .lookDisk chunk todo result⟩)
      (answered : readAccess config access
        (state.manager.disk.lookup (call.fileId, chunk)).isSome (state.readerSaw reader) =
          some outcome)
      (ended : state.endReader config reader
        ⟨access.isVideo || state.readerSaw reader, false, outcome⟩ = some next) :
      DiskStepped config state (.readerDisk reader access) next
  | taskSees {index access task} (present : state.manager.tasks[index]? = some task)
      (looks : task.point = .lookDisk) (unseen : state.taskSaw index = false) :
      DiskStepped config state (.taskDisk index access)
        { state with taskSaw := Function.update state.taskSaw index true }
  | taskEnds {index access task outcome next}
      (present : state.manager.tasks[index]? = some task) (looks : task.point = .lookDisk)
      (answered : readAccess config access (state.manager.disk.lookup task.key).isSome
        (state.taskSaw index) = some outcome)
      (ended : state.endTask config index
        ⟨access.isVideo || state.taskSaw index, false, outcome⟩ = some next) :
      DiskStepped config state (.taskDisk index access) next
  | writes {index access task data temps point}
      (present : state.manager.tasks[index]? = some task) (stores : task.point = .stored data)
      (answered : writeAccess config access task.key data state.temps (state.writes index) =
        .continues temps point) :
      DiskStepped config state (.taskDisk index access)
        { state with
          temps := temps
          writes := Function.update state.writes index (some point) }
  | replaces {index access task data temps content next}
      (present : state.manager.tasks[index]? = some task) (stores : task.point = .stored data)
      (answered : writeAccess config access task.key data state.temps (state.writes index) =
        .replaced temps content)
      (ended : (state.setTemps temps).endTask config index ⟨true, false, .caught⟩ =
        some next) :
      DiskStepped config state (.taskDisk index access) (next.placeChunk task.key content)
  | writeEnds {index access task data temps outcome next}
      (present : state.manager.tasks[index]? = some task) (stores : task.point = .stored data)
      (answered : writeAccess config access task.key data state.temps (state.writes index) =
        .ended temps outcome)
      (ended : (state.setTemps temps).endTask config index
        ⟨access.isVideo || (state.writes index).isSome, false, outcome⟩ = some next) :
      DiskStepped config state (.taskDisk index access) next
  | removeTemp {index temp} :
      DiskStepped config state (.removeTemp index temp)
        (state.setTemps (state.temps.erase temp))

theorem readAccess_eq_none {config : Config} {access : Access} {present saw : Bool}
    (continues : readAccess config access present saw = none) : saw = false := by
  unfold readAccess at continues
  split at continues
  · cases continues
  · exact Bool.eq_false_iff.mpr ‹_›

theorem diskStepped_of_diskStep {config : Config} {state next : DiskState β}
    {label : DiskLabel β} (taken : diskStep config state label = some next) :
    DiskStepped config state label next := by
  cases label with
  | manager label =>
      simp only [diskStep] at taken
      split at taken
      · cases taken
      · rename_i off
        obtain ⟨manager, isStep, same⟩ := Option.map_eq_some_iff.mp taken
        cases same
        exact .manager (Bool.eq_false_iff.mpr off) isStep
  | readerDisk reader access =>
      simp only [diskStep] at taken
      split at taken
      · rename_i call chunk todo result isReader
        simp only [DiskState.readerStep] at taken
        split at taken
        · rename_i continues
          cases taken
          exact .readerSees isReader (readAccess_eq_none continues)
        · rename_i outcome answered
          exact .readerEnds isReader answered taken
      · cases taken
  | taskDisk index access =>
      obtain ⟨task, present, success⟩ := Option.bind_eq_some_iff.mp taken
      simp only [DiskState.taskStep] at success
      split at success
      · rename_i looks
        split at success
        · rename_i continues
          cases success
          exact .taskSees present looks (readAccess_eq_none continues)
        · rename_i outcome answered
          exact .taskEnds present looks answered success
      · rename_i data stores
        split at success
        · rename_i temps point answered
          cases success
          exact .writes present stores answered
        · rename_i temps content answered
          obtain ⟨ended, isEnded, same⟩ := Option.map_eq_some_iff.mp success
          cases same
          exact .replaces present stores answered isEnded
        · rename_i temps outcome answered
          exact .writeEnds present stores answered success
      · cases success
  | removeTemp index temp =>
      simp only [diskStep] at taken
      split at taken
      · split at taken <;> cases taken
        exact .removeTemp
      · cases taken

/-! ## The temporary files -/

section WriteAccess

variable {config : Config} {access : Access} {key : ChunkKey} {data content : List β}
  {temps later : Dict TempFile (List β)} {point : Option WritePoint} {next : WritePoint}
  {outcome : DiskOutcome}

/-- A writer touches temporary files of its chunk only, and has written the
whole chunk when it comes to `os.replace`. -/
theorem writeAccess_continues
    (answered : writeAccess config access key data temps point = .continues later next) :
    (∀ temp : TempFile, temp.1 ≠ key → later.lookup temp = temps.lookup temp) ∧
      ∀ time content, next = .replace time → later.lookup (key, time) = some content →
        content = data := by
  have others (time : Nat) (content : List β) (temp : TempFile) (other : temp.1 ≠ key) :
      (temps.insert (key, time) content).lookup temp = temps.lookup temp := by
    rw [Dict.lookup_insert_eq, if_neg]
    intro same
    exact other (congrArg Prod.fst same)
  unfold writeAccess at answered
  split at answered
  · split at answered
    · cases answered
    · split at answered <;> cases answered
      exact ⟨fun _ _ => rfl, nofun⟩
  · split at answered <;> cases answered
    · exact ⟨others _ _, nofun⟩
    · exact ⟨fun _ _ => rfl, nofun⟩
  · rename_i time
    have kept (temp : TempFile) (other : temp.1 ≠ key) :
        (if (temps.lookup (key, time)).isSome then
          temps.insert (key, time) (data.take access.written) else temps).lookup temp =
          temps.lookup temp := by
      split
      · exact others _ _ temp other
      · rfl
    simp only at answered
    split at answered
    · cases answered
      exact ⟨kept, nofun⟩
    · split at answered <;> cases answered
      · rename_i complete
        refine ⟨kept, fun at_ content same found => ?_⟩
        cases same
        split at found
        · rw [Dict.lookup_insert_eq, if_pos rfl, List.take_of_length_le complete] at found
          exact (Option.some.inj found).symm
        · rename_i absent
          rw [found] at absent
          exact absurd rfl absent
      · exact ⟨kept, nofun⟩
  · split at answered
    · split at answered <;> cases answered
      exact ⟨fun _ _ => rfl, nofun⟩
    · cases answered
      exact ⟨fun _ _ => rfl, nofun⟩
  · split at answered <;> cases answered
    exact ⟨fun _ _ => rfl, nofun⟩
  · split at answered <;> cases answered

theorem lookup_of_erase {temp other : TempFile}
    (found : (temps.erase temp).lookup other = some content) :
    temps.lookup other = some content := by
  rw [Dict.lookup_erase_eq] at found
  split at found
  · cases found
  · exact found

/-- What is moved to the place of the chunk is the temporary file. -/
theorem writeAccess_replaced
    (answered : writeAccess config access key data temps point = .replaced later content) :
    (∃ time, point = some (.replace time) ∧ temps.lookup (key, time) = some content) ∧
      ∀ temp found, later.lookup temp = some found → temps.lookup temp = some found := by
  unfold writeAccess at answered
  split at answered
  · split at answered
    · cases answered
    · split at answered <;> cases answered
  · split at answered <;> cases answered
  · simp only at answered
    split at answered
    · cases answered
    · split at answered <;> cases answered
  · rename_i time
    split at answered
    · rename_i isContent
      split at answered <;> cases answered
      exact ⟨⟨time, rfl, isContent⟩, fun _ _ found => lookup_of_erase found⟩
    · cases answered
  · split at answered <;> cases answered
  · split at answered <;> cases answered

/-- How a write comes to an end without a chunk file: it is off, it has handled
an exception, or it raises one. -/
inductive WriteEnded (config : Config) (access : Access) (key : ChunkKey)
    (temps : Dict TempFile (List β)) : Option WritePoint → DiskOutcome → Prop where
  | off (diskOff : State.diskOff config ⟨access.isVideo, false, .success⟩ = true) :
      WriteEnded config access key temps none .success
  | notMade (diskOn : State.diskOff config ⟨access.isVideo, false, .success⟩ = false)
      (fails : access.works = false) : WriteEnded config access key temps none .raised
  | gone {time} : WriteEnded config access key temps (some (.lookTemp time)) .caught
  | removed {time} (works : access.works = true)
      (isTemp : temps.lookup (key, time) ≠ none) :
      WriteEnded config access key temps (some (.removeTemp time)) .caught
  | notRemoved {time} (fails : access.works = false ∨ temps.lookup (key, time) = none) :
      WriteEnded config access key temps (some (.removeTemp time)) .raised

theorem writeAccess_ended
    (answered : writeAccess config access key data temps point = .ended later outcome) :
    WriteEnded config access key temps point outcome ∧
      ∀ temp found, later.lookup temp = some found → temps.lookup temp = some found := by
  unfold writeAccess at answered
  split at answered
  · split at answered
    · cases answered
      exact ⟨.off ‹_›, fun _ _ found => found⟩
    · rename_i diskOn
      split at answered <;> cases answered
      rename_i fails
      exact ⟨.notMade (Bool.eq_false_iff.mpr diskOn) (Bool.eq_false_iff.mpr fails),
        fun _ _ found => found⟩
  · split at answered <;> cases answered
  · simp only at answered
    split at answered
    · cases answered
    · split at answered <;> cases answered
  · split at answered
    · split at answered <;> cases answered
    · cases answered
  · split at answered <;> cases answered
    exact ⟨.gone, fun _ _ found => found⟩
  · rename_i time
    split at answered <;> cases answered
    · rename_i removed
      rw [Bool.and_eq_true, Option.isSome_iff_ne_none] at removed
      exact ⟨.removed removed.1 removed.2, fun _ _ found => lookup_of_erase found⟩
    · rename_i fails
      rw [Bool.and_eq_true, not_and_or, Bool.not_eq_true, Option.not_isSome_iff_eq_none]
        at fails
      exact ⟨.notRemoved fails, fun _ _ found => found⟩

end WriteAccess

/-! ## Every step is one of the chunk manager, or hidden -/

section Refinement

variable {config : Config} {state next : DiskState β} {label : DiskLabel β}

theorem Stepped.holder {manager later : State β} {moving : Label β}
    (stepped : Stepped config manager moving later) {index : Nat} {task : Task β}
    (present : manager.tasks[index]? = some task) (holds : task.point.holdsLock = true)
    (other : ∀ weather, moving ≠ .task index weather) :
    ∃ after, later.tasks[index]? = some after ∧ after.key = task.key ∧
      after.point = task.point := by
  by_cases isTask : ∃ moved weather, moving = .task moved weather
  · obtain ⟨moved, weather, isMoving⟩ := isTask
    subst isMoving
    cases stepped with
    | @task _ _ mover state point isMover isMoved =>
        refine ⟨task, ?_, rfl, rfl⟩
        rw [isMoved.look isMover, if_neg]
        · exact present
        · intro same
          exact other weather (by rw [same])
  · have same : SameWatched task.key manager later :=
      stepped.sameWatched fun moved weather isMoving => isTask ⟨moved, weather, isMoving⟩
    exact same.new index task present rfl (TaskPoint.watched_of_holdsLock holds)

/-- A task that writes is behind its download, and alone with its chunk; before
`os.replace` the temporary file has the whole chunk. -/
structure Publishing (state : DiskState β) : Prop where
  locked : ∀ key, LockedOnce key state.manager
  writer : ∀ index point, state.writes index = some point →
    ∃ task data, state.manager.tasks[index]? = some task ∧ task.point = .stored data ∧
      ∀ time content, point = .replace time →
        state.temps.lookup (task.key, time) = some content → content = data

/-- A step of the chunk manager leaves the writers it does not end alone. -/
theorem Publishing.manager (publishing : Publishing state) {moving : Label β}
    (taken : step config state.manager moving = some next.manager)
    (temps : ∀ temp content, next.temps.lookup temp = some content →
      state.temps.lookup temp = some content)
    (writes : ∀ index point, next.writes index = some point →
      state.writes index = some point ∧ ∀ weather, moving ≠ .task index weather) :
    Publishing next := by
  have stepped := stepped_of_step taken
  constructor
  · intro key
    exact (publishing.locked key).step stepped
  · intro index point isWriting
    obtain ⟨wasWriting, other⟩ := writes index point isWriting
    obtain ⟨task, data, present, stores, whole⟩ := publishing.writer index point wasWriting
    have holds : task.point.holdsLock = true := by
      rw [stores]
      rfl
    obtain ⟨after, isAfter, sameKey, samePoint⟩ := stepped.holder present holds other
    refine ⟨after, data, isAfter, samePoint.trans stores, ?_⟩
    intro time content isReplace found
    rw [sameKey] at found
    exact whole time content isReplace (temps _ _ found)

theorem Publishing.endTask (publishing : Publishing state) {index : Nat} {weather : Weather}
    {temps : Dict TempFile (List β)}
    (fewer : ∀ temp content, temps.lookup temp = some content →
      state.temps.lookup temp = some content)
    (ended : (state.setTemps temps).endTask config index weather = some next) :
    Publishing next := by
  obtain ⟨manager, taken, same⟩ := Option.map_eq_some_iff.mp ended
  cases same
  refine publishing.manager taken fewer fun other point isWriting => ?_
  change Function.update state.writes index none other = some point at isWriting
  rw [Function.update_apply] at isWriting
  split at isWriting
  · cases isWriting
  · rename_i different
    refine ⟨isWriting, fun weather same => ?_⟩
    cases same
    exact different rfl

theorem Publishing.continues (publishing : Publishing state) {index : Nat} {access : Access}
    {task : Task β} {data : List β} {temps : Dict TempFile (List β)} {point : WritePoint}
    (present : state.manager.tasks[index]? = some task) (stores : task.point = .stored data)
    (answered : writeAccess config access task.key data state.temps (state.writes index) =
      .continues temps point) :
    Publishing { state with
      temps := temps
      writes := Function.update state.writes index (some point) } := by
  obtain ⟨others, whole⟩ := writeAccess_continues answered
  constructor
  · exact publishing.locked
  · intro other found isWriting
    change Function.update state.writes index (some point) other = some found at isWriting
    rw [Function.update_apply] at isWriting
    split at isWriting
    · rename_i same
      subst same
      cases isWriting
      exact ⟨task, data, present, stores, whole⟩
    · rename_i different
      obtain ⟨writer, written, isWriter, writes, isWhole⟩ :=
        publishing.writer other found isWriting
      refine ⟨writer, written, isWriter, writes, ?_⟩
      intro time content isReplace isTemp
      have apart : writer.key ≠ task.key := by
        intro sameKey
        have alone := publishing.locked task.key other index writer task isWriter present sameKey
          rfl (by rw [writes]; rfl) (by rw [stores]; rfl)
        exact different alone
      rw [others (writer.key, time) apart] at isTemp
      exact isWhole time content isReplace isTemp

theorem Publishing.step (publishing : Publishing state)
    (stepped : DiskStepped config state label next) : Publishing next := by
  cases stepped with
  | @manager label manager off taken =>
      refine publishing.manager taken (fun _ _ found => found) fun index point isWriting => ?_
      refine ⟨isWriting, fun weather same => ?_⟩
      obtain ⟨task, data, present, stores, -⟩ := publishing.writer index point isWriting
      cases label with
      | task other given =>
          cases same
          simp [State.accessesDisk, present, stores] at off
      | begin _ _ | reader _ _ | callback _ | invalidate _ _ | remove _ | removeFails _
      | change _ _ =>
          cases same
  | readerSees _ _ | taskSees _ _ _ => exact ⟨publishing.locked, publishing.writer⟩
  | readerEnds isReader answered ended =>
      obtain ⟨manager, taken, same⟩ := Option.map_eq_some_iff.mp ended
      cases same
      refine publishing.manager taken (fun _ _ found => found) fun index point isWriting => ?_
      exact ⟨isWriting, fun weather => by simp⟩
  | taskEnds present looks answered ended =>
      exact publishing.endTask (fun _ _ found => found) ended
  | writes present stores answered => exact publishing.continues present stores answered
  | replaces present stores answered ended =>
      have after := publishing.endTask (writeAccess_replaced answered).2 ended
      exact ⟨after.locked, after.writer⟩
  | writeEnds present stores answered ended =>
      exact publishing.endTask (writeAccess_ended answered).2 ended
  | removeTemp =>
      constructor
      · exact publishing.locked
      · intro index point isWriting
        obtain ⟨task, data, present, stores, whole⟩ := publishing.writer index point isWriting
        refine ⟨task, data, present, stores, ?_⟩
        intro time content isReplace found
        exact whole time content isReplace (lookup_of_erase found)

/-- The step of the chunk manager that a step comes to, if it is not hidden. -/
inductive Mirrored (config : Config) (state : DiskState β) : DiskLabel β → Label β → Prop where
  | manager {moving} : Mirrored config state (.manager moving) moving.offDisk
  | reader {reader access isVideo outcome}
      (raises : outcome = .raised ↔ Unhandled config state (.readerDisk reader access))
      (diskOn : outcome = .raised →
        State.diskOff config ⟨isVideo, false, outcome⟩ = false) :
      Mirrored config state (.readerDisk reader access)
        (.reader reader ⟨isVideo, false, outcome⟩)
  | task {index access isVideo outcome}
      (raises : outcome = .raised ↔ Unhandled config state (.taskDisk index access))
      (diskOn : outcome = .raised →
        State.diskOff config ⟨isVideo, false, outcome⟩ = false) :
      Mirrored config state (.taskDisk index access)
        (.task index ⟨isVideo, false, outcome⟩)

theorem readAccess_raised {access : Access} {file : Option (List β)} {saw : Bool}
    {outcome : DiskOutcome}
    (answered : readAccess config access file.isSome saw = some outcome) :
    outcome = .raised ↔ saw = true ∧ (access.works = false ∨ file = none) := by
  unfold readAccess at answered
  split at answered
  · rename_i isSeen
    subst isSeen
    cases works : access.works <;> cases file <;> simp [works] at answered <;>
      subst answered <;> simp
  · rename_i unseen
    split at answered <;> cases answered
    simp [Bool.eq_false_iff.mpr unseen]

theorem diskOff_of_video (isVideo : Bool) {outcome : DiskOutcome} :
    State.diskOff config ⟨isVideo || true, false, outcome⟩ = false := by
  simp [State.diskOff]

theorem unhandled_reader {reader : Nat} {access : Access} {call : ReadCall} {chunk : Nat}
    {todo : List Nat} {result : List β}
    (isReader : state.manager.readers reader = some ⟨call, .lookDisk chunk todo result⟩) :
    Unhandled config state (.readerDisk reader access) ↔
      state.readerSaw reader = true ∧ (access.works = false ∨
        state.manager.disk.lookup (call.fileId, chunk) = none) := by
  constructor
  · intro unhandled
    cases unhandled with
    | readerOpens found saw fails =>
        rw [isReader, Option.some.injEq, Reader.mk.injEq] at found
        obtain ⟨sameCall, samePoint⟩ := found
        cases sameCall
        cases samePoint
        exact ⟨saw, fails⟩
  · intro opening
    exact .readerOpens isReader opening.1 opening.2

theorem unhandled_looking {index : Nat} {access : Access} {task : Task β}
    (present : state.manager.tasks[index]? = some task) (looks : task.point = .lookDisk) :
    Unhandled config state (.taskDisk index access) ↔
      state.taskSaw index = true ∧ (access.works = false ∨
        state.manager.disk.lookup task.key = none) := by
  constructor
  · intro unhandled
    cases unhandled with
    | taskOpens found _ saw fails =>
        rw [present, Option.some.injEq] at found
        subst found
        exact ⟨saw, fails⟩
    | makesDirectory found stores _ _ _ | removesTemp found stores _ _ =>
        rw [present, Option.some.injEq] at found
        subst found
        rw [looks] at stores
        cases stores
  · intro opening
    exact .taskOpens present looks opening.1 opening.2

theorem unhandled_storing {index : Nat} {access : Access} {task : Task β} {data : List β}
    (present : state.manager.tasks[index]? = some task) (stores : task.point = .stored data) :
    Unhandled config state (.taskDisk index access) ↔
      (state.writes index = none ∧
        State.diskOff config ⟨access.isVideo, false, .success⟩ = false ∧
        access.works = false) ∨
      ∃ time, state.writes index = some (.removeTemp time) ∧
        (access.works = false ∨ state.temps.lookup (task.key, time) = none) := by
  constructor
  · intro unhandled
    cases unhandled with
    | taskOpens found looks _ _ =>
        rw [present, Option.some.injEq] at found
        subst found
        rw [stores] at looks
        cases looks
    | makesDirectory _ _ begins diskOn fails => exact Or.inl ⟨begins, diskOn, fails⟩
    | removesTemp found _ removes fails =>
        rw [present, Option.some.injEq] at found
        subst found
        exact Or.inr ⟨_, removes, fails⟩
  · intro fails
    rcases fails with ⟨begins, diskOn, fails⟩ | ⟨time, removes, fails⟩
    · exact .makesDirectory present stores begins diskOn fails
    · exact .removesTemp present stores removes fails

/-- `Unhandled`, as a test. -/
def DiskState.fails (config : Config) (state : DiskState β) : DiskLabel β → Bool
  | .readerDisk reader access =>
      match state.manager.readers reader with
      | some ⟨call, .lookDisk chunk _ _⟩ =>
          state.readerSaw reader &&
            (!access.works || (state.manager.disk.lookup (call.fileId, chunk)).isNone)
      | _ => false
  | .taskDisk index access =>
      match state.manager.tasks[index]? with
      | some task =>
          match task.point, state.writes index with
          | .lookDisk, _ =>
              state.taskSaw index &&
                (!access.works || (state.manager.disk.lookup task.key).isNone)
          | .stored _, none =>
              !State.diskOff config ⟨access.isVideo, false, .success⟩ && !access.works
          | .stored _, some (.removeTemp time) =>
              !access.works || (state.temps.lookup (task.key, time)).isNone
          | _, _ => false
      | none => false
  | _ => false

theorem fails_iff : state.fails config label = true ↔ Unhandled config state label := by
  cases label with
  | manager _ | removeTemp _ _ => exact ⟨nofun, nofun⟩
  | readerDisk reader access =>
      simp only [DiskState.fails]
      split
      · rename_i isReader
        rw [unhandled_reader isReader]
        simp
      · rename_i elsewhere
        refine ⟨nofun, fun unhandled => ?_⟩
        cases unhandled with
        | readerOpens isReader _ _ => exact absurd isReader (elsewhere _ _ _ _)
  | taskDisk index access =>
      simp only [DiskState.fails]
      split
      · rename_i task present
        split
        · rename_i looks
          rw [unhandled_looking present looks]
          simp
        · rename_i stores begins
          rw [unhandled_storing present stores, begins]
          simp
        · rename_i stores removes
          rw [unhandled_storing present stores, removes]
          simp
        · rename_i looks begins removes
          refine ⟨nofun, fun unhandled => ?_⟩
          cases unhandled with
          | taskOpens isTask isPoint _ _ =>
              rw [present, Option.some.injEq] at isTask
              exact absurd (isTask ▸ isPoint) looks
          | makesDirectory isTask isPoint isNone _ _ =>
              rw [present, Option.some.injEq] at isTask
              exact absurd isNone (begins _ (isTask ▸ isPoint))
          | removesTemp isTask isPoint isRemoval _ =>
              rw [present, Option.some.injEq] at isTask
              exact absurd isRemoval (removes _ _ (isTask ▸ isPoint))
      · rename_i absent
        refine ⟨nofun, fun unhandled => ?_⟩
        cases unhandled with
        | taskOpens present _ _ _ | makesDirectory present _ _ _ _ | removesTemp present _ _ _ =>
            rw [absent] at present
            cases present

instance : Decidable (Unhandled config state label) := decidable_of_iff _ fails_iff

/-- What a write raises is what no handler catches. -/
theorem WriteEnded.raises {index : Nat} {access : Access} {task : Task β} {data : List β}
    {outcome : DiskOutcome}
    (ended : WriteEnded config access task.key state.temps (state.writes index) outcome)
    (present : state.manager.tasks[index]? = some task) (stores : task.point = .stored data) :
    (outcome = .raised ↔ Unhandled config state (.taskDisk index access)) ∧
      (outcome = .raised → State.diskOff config
        ⟨access.isVideo || (state.writes index).isSome, false, outcome⟩ = false) := by
  rw [unhandled_storing present stores]
  generalize state.writes index = point at ended
  cases ended with
  | off diskOff => simp [diskOff]
  | notMade diskOn fails =>
      refine ⟨by simp [diskOn, fails], fun _ => ?_⟩
      rw [Option.isSome_none, Bool.or_false]
      exact diskOn
  | gone => simp
  | removed works isTemp => simp [works, isTemp]
  | notRemoved fails => exact ⟨by simp [fails], fun _ => diskOff_of_video access.isVideo⟩

/-- The file that is moved to its place makes the step the one of a write that
succeeds. -/
theorem endTask_placeChunk {index : Nat} {task : Task β} {data : List β}
    {temps : Dict TempFile (List β)}
    (present : state.manager.tasks[index]? = some task) (stores : task.point = .stored data)
    (ended : (state.setTemps temps).endTask config index ⟨true, false, .caught⟩ = some next) :
    step config state.manager (.task index ⟨true, false, .success⟩) =
      some (next.placeChunk task.key data).manager := by
  obtain ⟨manager, taken, same⟩ := Option.map_eq_some_iff.mp ended
  subst same
  change step config state.manager (.task index ⟨true, false, .caught⟩) = some manager at taken
  simp only [step, present, stores, Option.bind_some, downloadStep, State.diskRaises,
    State.diskOff, State.writeChunkToDiskCache] at taken ⊢
  simp only [Bool.not_true, Bool.and_false, Bool.not_false, decide_false,
    Bool.false_eq_true, reduceCtorEq, if_false, if_true, or_true, or_false, Option.map_some,
    Option.some.injEq] at taken ⊢
  subst taken
  rfl

/-- A step is one of the chunk manager, or it leaves the chunk manager as it
is and does no harm. -/
theorem DiskStepped.viewed (publishing : Publishing state)
    (stepped : DiskStepped config state label next) :
    (next.manager = state.manager ∧ ¬ Unhandled config state label) ∨
      ∃ moving, step config state.manager moving = some next.manager ∧
        Mirrored config state label moving := by
  cases stepped with
  | manager off taken => exact Or.inr ⟨_, taken, .manager⟩
  | readerSees isReader unseen =>
      left
      rw [unhandled_reader isReader, unseen]
      exact ⟨rfl, by simp⟩
  | taskSees present looks unseen =>
      left
      rw [unhandled_looking present looks, unseen]
      exact ⟨rfl, by simp⟩
  | @readerEnds reader access call chunk todo result outcome _ isReader answered ended =>
      obtain ⟨manager, taken, same⟩ := Option.map_eq_some_iff.mp ended
      cases same
      have raises := readAccess_raised answered
      refine Or.inr ⟨_, taken, .reader (raises.trans (unhandled_reader isReader).symm) ?_⟩
      intro raised
      rw [(raises.mp raised).1]
      exact diskOff_of_video access.isVideo
  | @taskEnds index access task outcome _ present looks answered ended =>
      obtain ⟨manager, taken, same⟩ := Option.map_eq_some_iff.mp ended
      cases same
      have raises := readAccess_raised answered
      refine Or.inr ⟨_, taken, .task (raises.trans (unhandled_looking present looks).symm) ?_⟩
      intro raised
      rw [(raises.mp raised).1]
      exact diskOff_of_video access.isVideo
  | @writes index access task data temps point present stores answered =>
      left
      refine ⟨rfl, fun unhandled => ?_⟩
      rcases (unhandled_storing present stores).mp unhandled with
        ⟨begins, diskOn, fails⟩ | ⟨time, removes, fails⟩
      · simp [begins, writeAccess, diskOn, fails] at answered
      · rw [removes] at answered
        simp only [writeAccess] at answered
        split at answered <;> cases answered
  | @replaces index access task data temps content _ present stores answered ended =>
      obtain ⟨⟨time, replaces, isContent⟩, -⟩ := writeAccess_replaced answered
      obtain ⟨writer, written, isWriter, writes, whole⟩ := publishing.writer index _ replaces
      rw [present, Option.some.injEq] at isWriter
      subst isWriter
      rw [stores] at writes
      cases writes
      have same := whole time content rfl isContent
      subst same
      refine Or.inr ⟨_, endTask_placeChunk present stores ended, .task ?_ nofun⟩
      rw [unhandled_storing present stores, replaces]
      simp
  | @writeEnds index access task data temps outcome _ present stores answered ended =>
      obtain ⟨manager, taken, same⟩ := Option.map_eq_some_iff.mp ended
      cases same
      have raises := (writeAccess_ended answered).1.raises present stores
      exact Or.inr ⟨_, taken, .task raises.1 raises.2⟩
  | removeTemp => exact Or.inl ⟨rfl, nofun⟩

end Refinement

end FuseDrive.Cache
