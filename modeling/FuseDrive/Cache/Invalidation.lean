import FuseDrive.Cache.ChunkLaw

/-!
# What an invalidation leaves behind

`invalidate_file_chunks_cache` clears the memory cache and removes the disk
cache of a file, but takes neither the chunk locks nor notice of the downloads
and readers under way.  After it has returned only the new content can be read,
provided that nothing of the old content was in flight when it began, that
nobody took an old chunk from the disk cache before it was removed, and that no
exception, which the call would swallow, ended the removal before.  A download
that had fetched an old chunk puts it back.
-/

namespace FuseDrive.Cache

open Transition

variable {β : Type}

/-- All bytes of a chunk are bytes of the new content. -/
def AllFresh (fresh : β → Prop) (data : List β) : Prop :=
  ∀ byte ∈ data, fresh byte

/-- Chunks and results consist of bytes of the new content. -/
def freshLaw (fileId : Str) (fresh : β → Prop) : ChunkLaw β where
  fileId := fileId
  total := fun _ => True
  chunk := fun _ data => AllFresh fresh data
  soFar := fun _ _ result => AllFresh fresh result

theorem AllFresh.slice {fresh : β → Prop} {data : List β} (all : AllFresh fresh data)
    (offset length : Nat) : AllFresh fresh (slice data offset length) :=
  fun byte member => all byte (mem_of_mem_slice member)

theorem freshLaw_closed (config : Config) (fileId : Str) (fresh : β → Prop) :
    (freshLaw fileId fresh).Closed config where
  past := fun _ _ _ _ => nofun
  beyond := fun _ _ _ _ => nofun
  begun := fun _ _ _ _ => nofun
  taken := by
    intro call chunk todo result data soFar isFresh byte member
    rcases List.mem_append.mp member with old | new
    · exact soFar byte old
    · exact isFresh.slice _ _ byte new

theorem freshLaw_served {config : Config} {fileId : Str} {fresh : β → Prop}
    {state : State β} (drive : AllFresh fresh (state.drive fileId)) (label : Label β) :
    (freshLaw fileId fresh).Served config state label := by
  refine ChunkLaw.served_of_forall (fun task file _ _ => ?_) label
  have sameFile : task.fileId = fileId := file
  change AllFresh fresh (slice (state.drive task.fileId) _ _)
  rw [sameFile]
  exact drive.slice _ _

theorem freshLaw_begun (fileId : Str) (fresh : β → Prop) (label : Label β) :
    (freshLaw fileId fresh).Begun label := by
  cases label with
  | begin index call => exact fun _ => trivial
  | reader _ _ | task _ _ | callback _ | invalidate _ _ | remove _ | removeFails _ | change _ _ =>
      trivial

/-! ## The condition -/

/-- A manager without readers and tasks, over any caches. -/
structure Booted (state : State β) : Prop where
  tasks : state.tasks = []
  active : state.active = ∅
  readers : ∀ index, state.readers index = none

/-- The bytes a task is about to put into a cache. -/
def TaskPoint.carried : TaskPoint β → Option (List β)
  | .diskHit data | .fetched data | .stored data => some data
  | _ => none

/-- The bytes a task hands to those who wait for it. -/
def TaskPoint.outcome : TaskPoint β → Option (List β)
  | .leaving outcome | .returning outcome | .done outcome => outcome
  | _ => none

/-- Nothing of the old content of the file is on its way into the caches or
registered for new readers. -/
structure NothingInFlight (fileId : Str) (fresh : β → Prop) (state : State β) : Prop where
  tasks : ∀ (index : Nat) (task : Task β), state.tasks[index]? = some task →
    task.fileId = fileId → ∀ data, task.point.carried = some data → AllFresh fresh data
  active : ∀ chunk index wasPrefetch (task : Task β),
    state.active.lookup (fileId, chunk) = some (index, wasPrefetch) →
    state.tasks[index]? = some task →
    ∀ data, task.point.outcome = some data → AllFresh fresh data
  readers : ∀ index call chunk todo result data,
    state.readers index = some ⟨call, .putMemory chunk todo result data⟩ →
    call.fileId = fileId → AllFresh fresh data

theorem Booted.nothingInFlight {state : State β} (booted : Booted state) {fileId : Str}
    {fresh : β → Prop} : NothingInFlight fileId fresh state := by
  constructor
  · simp [booted.tasks]
  · simp [booted.active]
  · simp [booted.readers]

/-- The new content of the file stays. -/
def StaysFresh (fileId : Str) (fresh : β → Prop) (_ : State β) : Label β → Prop
  | .change otherId content => otherId = fileId → AllFresh fresh content
  | _ => True

/-- The step ends the removal of an invalidation by an exception. -/
def StopsRemoval (index : Nat) (state : State β) : Label β → Prop
  | .remove other => other = index ∧ ∃ fileId chunk chunks,
      state.invalidations index = .removing fileId (chunk :: chunks) ∧
        state.disk.lookup (fileId, chunk) = none
  | .removeFails other => other = index
  | _ => False

/-- While the invalidation runs nobody takes an old chunk from the disk cache,
and the removal does not end early with an old chunk on disk. -/
def Meanwhile (fileId : Str) (fresh : β → Prop) (index : Nat) (state : State β)
    (label : Label β) : Prop :=
  StaysFresh fileId fresh state label ∧ (freshLaw fileId fresh).Taken state label ∧
    (StopsRemoval index state label → (freshLaw fileId fresh).OnDisk state)

/-- The caches hold the new content only, and so do the results of readers
that began after `returned` and the tasks they wait for. -/
structure OnlyFresh (fileId : Str) (fresh : β → Prop) (returned state : State β) :
    Prop where
  memory : ∀ chunk data, state.memory.cache.lookup (fileId, chunk) = some data →
    AllFresh fresh data
  disk : ∀ chunk data, state.disk.lookup (fileId, chunk) = some data → AllFresh fresh data
  handed : ∀ index call chunk todo result other (task : Task β) data,
    returned.readers index = none →
    state.readers index = some ⟨call, .await chunk todo result other⟩ →
    call.fileId = fileId → state.tasks[other]? = some task →
    task.point = .done (some data) → AllFresh fresh data
  results : ∀ index call result, returned.readers index = none →
    state.readers index = some ⟨call, .finished result⟩ → call.fileId = fileId →
    AllFresh fresh result

/-! ## Before the invalidation -/

/-- What holds of the tasks and their registration in every run. -/
def anyLaw (fileId : Str) : ChunkLaw β where
  fileId := fileId
  total := fun _ => True
  chunk := fun _ _ => True
  soFar := fun _ _ _ => True

/-- No reader is followed. -/
abbrev nobody : Nat → Prop := fun _ => False

theorem Booted.upheld {config : Config} {followed : Nat → Prop} {state : State β}
    (booted : Booted state) (fileId : Str) :
    Upheld config (anyLaw fileId) (fun _ => True) followed state := by
  refine ⟨fun _ _ _ => trivial, ?_, ?_, fun _ _ => trivial, ?_⟩
  · simp [booted.tasks]
  · simp [booted.active]
  · simp [booted.readers]

theorem anyLaw_step {config : Config} {fileId : Str} {followed : Nat → Prop}
    {state next : State β} {label : Label β}
    (upheld : Upheld config (anyLaw fileId) (fun _ => True) followed state)
    (stepped : Stepped config state label next) :
    Upheld config (anyLaw fileId) (fun _ => True) followed next := by
  refine upheld.step ⟨fun _ _ _ _ => trivial, fun _ _ _ _ => trivial,
    fun _ _ _ _ => trivial, fun _ _ _ _ _ _ _ => trivial⟩
    (ChunkLaw.served_of_forall (fun _ _ _ _ => trivial) label) ?_ ?_ stepped
  · cases label with
    | reader _ _ => exact fun _ _ _ _ _ _ _ _ => trivial
    | task _ _ => exact fun _ _ _ _ _ _ => trivial
    | begin _ _ | callback _ | invalidate _ _ | remove _ | removeFails _ | change _ _ => trivial
  · cases label with
    | begin _ _ => exact fun _ => trivial
    | reader _ _ | task _ _ | callback _ | invalidate _ _ | remove _ | removeFails _
    | change _ _ =>
        trivial

/-! ## The invariant of a running invalidation -/

/-- The invalidation has still to remove every old chunk from the disk. -/
def Removing (fileId : Str) (fresh : β → Prop) (state : State β) (index : Nat) : Prop :=
  (freshLaw fileId fresh).OnDisk state ∨
    state.invalidations index = .cleared fileId ∨
    ∃ chunks, state.invalidations index = .removing fileId chunks ∧
      ∀ chunk data, state.disk.lookup (fileId, chunk) = some data →
        AllFresh fresh data ∨ chunk ∈ chunks

/-- The tasks that had no old outcome when the invalidation began. -/
def Counted (fresh : β → Prop) (before : State β) (index : Nat) : Prop :=
  ∀ (task : Task β), before.tasks[index]? = some task →
    ∀ data, task.point.outcome = some data → AllFresh fresh data

section Invalidation

variable {config : Config} {fileId : Str} {fresh : β → Prop} {counted followed : Nat → Prop}
  {before state next : State β} {index : Nat}

/-- With nothing in flight and the new content in memory there is only the
new content outside the disk cache. -/
theorem NothingInFlight.upheld (quiet : NothingInFlight fileId fresh before)
    (memory : ∀ chunk data, before.memory.cache.lookup (fileId, chunk) = some data →
      AllFresh fresh data)
    (upheld : Upheld config (anyLaw fileId) (fun _ => True) nobody before) :
    Upheld config (freshLaw fileId fresh) (Counted fresh before) nobody before := by
  refine ⟨memory, ?_, ?_, ?_, ?_⟩
  · intro other task present file
    refine ⟨trivial, ?_⟩
    have inside := (upheld.tasks other task present file).2
    have carried := quiet.tasks other task present file
    cases isPoint : task.point with
    | waiting | lookMemory | lookDisk | request | requested =>
        rw [isPoint] at inside
        exact inside
    | diskHit data | fetched data | stored data =>
        exact carried data (by rw [isPoint]; rfl)
    | leaving outcome | returning outcome | done outcome =>
        cases outcome with
        | none => trivial
        | some data => exact fun isCounted => isCounted task present data (by rw [isPoint]; rfl)
    | queued | cancelled | started => trivial
  · intro chunk other wasPrefetch found
    obtain ⟨-, task, present, same⟩ := upheld.active chunk other wasPrefetch found
    refine ⟨fun task isTask data isOutcome => ?_, task, present, same⟩
    exact quiet.active chunk other wasPrefetch task found isTask data isOutcome
  · intro other beyond task present
    have missing : before.tasks[other]? = none := List.getElem?_eq_none beyond
    rw [missing] at present
    cases present
  · intro other reader present file
    refine ⟨trivial, ?_⟩
    obtain ⟨call, point⟩ := reader
    cases point with
    | putMemory chunk todo result data =>
        exact ⟨quiet.readers other call chunk todo result data present file, False.elim⟩
    | failed | frozen => trivial
    | prefetch _ _ _ | remember | lookMemory _ _ | lookDisk _ _ _ | schedule _ _ _
    | register _ _ _ _ | await _ _ _ _ | finished _ => exact False.elim

theorem NothingInFlight.upheld_invalidate (quiet : NothingInFlight fileId fresh before)
    (idle : before.invalidations index = .idle)
    (upheld : Upheld config (anyLaw fileId) (fun _ => True) nobody before) :
    Upheld config (freshLaw fileId fresh) (Counted fresh before) nobody
      ((before.clearMemory fileId).setInvalidation index (.cleared fileId)) := by
  have cleared : NothingInFlight fileId fresh
      ((before.clearMemory fileId).setInvalidation index (.cleared fileId)) :=
    ⟨quiet.tasks, quiet.active, quiet.readers⟩
  refine cleared.upheld ?_ (anyLaw_step upheld (.invalidate idle))
  intro chunk data present
  exact absurd rfl (lookup_clearMemory present).1

theorem chunkFiles_of_lookup {chunk : Nat} {data : List β}
    (present : state.disk.lookup (fileId, chunk) = some data) :
    chunk ∈ state.chunkFiles fileId := by
  refine List.mem_map.mpr ⟨(fileId, chunk), List.mem_filter.mpr ⟨?_, by simp⟩, rfl⟩
  exact AList.mem_keys.mp (AList.lookup_isSome.mp (by rw [present]; rfl))

theorem State.setInvalidation_invalidations (state : State β) (index other : Nat)
    (point : Invalidation) :
    (state.setInvalidation index point).invalidations other =
      if other = index then point else state.invalidations other :=
  Function.update_apply ..

/-- A running invalidation keeps removing old chunks. -/
theorem Removing.step
    (upheld : Upheld config (freshLaw fileId fresh) counted followed state)
    (removing : Removing fileId fresh state index) {label : Label β}
    (stops : StopsRemoval index state label → (freshLaw fileId fresh).OnDisk state)
    (stepped : Stepped config state label next) : Removing fileId fresh next index := by
  have disk (chunk : Nat) (data : List β)
      (present : next.disk.lookup (fileId, chunk) = some data) :
      AllFresh fresh data ∨ state.disk.lookup (fileId, chunk) = some data :=
    upheld.disk_step stepped present
  have still (clean : (freshLaw fileId fresh).OnDisk state) :
      Removing fileId fresh next index := Or.inl (upheld.onDisk_step clean stepped)
  -- a step that leaves the point of this invalidation alone
  have aside (same : next.invalidations index = state.invalidations index) :
      Removing fileId fresh next index := by
    rcases removing with clean | cleared | ⟨chunks, isRemoving, rest⟩
    · exact still clean
    · exact Or.inr (Or.inl (same.trans cleared))
    · refine Or.inr (Or.inr ⟨chunks, same.trans isRemoving, fun chunk data present => ?_⟩)
      rcases disk chunk data present with isFresh | old
      · exact Or.inl isFresh
      · exact rest chunk data old
  cases stepped with
  | reader isReader moved => exact aside (congrFun moved.frame.2.2.1 index)
  | task isTask moved => exact aside (congrFun moved.frame.2.2.1 index)
  | begin _ | callback _ _ _ _ | change => exact aside rfl
  | @invalidate other otherId idle =>
      by_cases same : index = other
      · subst same
        rcases removing with clean | cleared | ⟨chunks, isRemoving, -⟩
        · exact Or.inl clean
        · simp [idle] at cleared
        · simp [idle] at isRemoving
      · refine aside ?_
        rw [State.setInvalidation_invalidations, if_neg same]
        rfl
  | @list other otherId cleared =>
      by_cases same : index = other
      · subst same
        have point : (state.setInvalidation index
            (.removing otherId (state.chunkFiles otherId))).invalidations index =
              .removing otherId (state.chunkFiles otherId) := by
          rw [State.setInvalidation_invalidations, if_pos rfl]
        rcases removing with clean | isCleared | ⟨chunks, isRemoving, -⟩
        · exact Or.inl clean
        · rw [cleared, Invalidation.cleared.injEq] at isCleared
          subst isCleared
          exact Or.inr (Or.inr ⟨_, point, fun chunk data present =>
            Or.inr (chunkFiles_of_lookup present)⟩)
        · simp [cleared] at isRemoving
      · refine aside ?_
        rw [State.setInvalidation_invalidations, if_neg same]
  | @remove other otherId chunk chunks isRemoving _ =>
      by_cases same : index = other
      · subst same
        have point : ((state.removeChunkFile (otherId, chunk)).setInvalidation index
            (.removing otherId chunks)).invalidations index = .removing otherId chunks := by
          rw [State.setInvalidation_invalidations, if_pos rfl]
        rcases removing with clean | isCleared | ⟨others, wasRemoving, rest⟩
        · left
          intro found data present
          rcases disk found data present with isFresh | old
          · exact isFresh
          · exact clean found data old
        · simp [isRemoving] at isCleared
        · rw [isRemoving, Invalidation.removing.injEq] at wasRemoving
          obtain ⟨sameId, sameChunks⟩ := wasRemoving
          subst sameId sameChunks
          refine Or.inr (Or.inr ⟨chunks, point, fun found data present => ?_⟩)
          change (state.disk.erase (otherId, chunk)).lookup _ = _ at present
          rw [Dict.lookup_erase_eq] at present
          split at present
          · cases present
          · rename_i different
            rcases rest found data present with isFresh | member
            · exact Or.inl isFresh
            · rcases List.mem_cons.mp member with isChunk | later
              · exact absurd (by rw [isChunk]) different
              · exact Or.inr later
      · refine aside ?_
        rw [State.setInvalidation_invalidations, if_neg same]
        rfl
  | @vanished other otherId chunk chunks isRemoving gone =>
      by_cases same : index = other
      · subst same
        exact still (stops ⟨rfl, _, _, _, isRemoving, gone⟩)
      · refine aside ?_
        rw [State.setInvalidation_invalidations, if_neg same]
  | @removeFails other running =>
      by_cases same : index = other
      · exact still (stops same.symm)
      · refine aside ?_
        rw [State.setInvalidation_invalidations, if_neg same]
  | @removed other otherId isRemoving =>
      by_cases same : index = other
      · subst same
        left
        rcases removing with clean | isCleared | ⟨others, wasRemoving, rest⟩
        · exact clean
        · simp [isRemoving] at isCleared
        · rw [isRemoving, Invalidation.removing.injEq] at wasRemoving
          obtain ⟨-, rfl⟩ := wasRemoving
          intro chunk data present
          rcases rest chunk data present with isFresh | member
          · exact isFresh
          · cases member
      · refine aside ?_
        rw [State.setInvalidation_invalidations, if_neg same]

/-- When the invalidation has returned the old chunks are gone. -/
theorem Removing.onDisk (removing : Removing fileId fresh state index)
    (returned : state.invalidations index = .idle) : (freshLaw fileId fresh).OnDisk state := by
  rcases removing with clean | cleared | ⟨chunks, isRemoving, -⟩
  · exact clean
  · simp [returned] at cleared
  · simp [returned] at isRemoving

theorem drive_step {label : Label β} (stays : StaysFresh fileId fresh state label)
    (drive : AllFresh fresh (state.drive fileId))
    (stepped : Stepped config state label next) : AllFresh fresh (next.drive fileId) := by
  cases stepped with
  | reader isReader moved =>
      rw [State.setReader, moved.frame.2.2.2.1]
      exact drive
  | task isTask moved =>
      rw [State.setTask, moved.frame.2.2.2]
      exact drive
  | @change otherId content =>
      change AllFresh fresh (Function.update state.drive otherId content fileId)
      rw [Function.update_apply]
      split
      · rename_i same
        exact stays same.symm
      · exact drive
  | begin _ | callback _ _ _ _ | invalidate _ | list _ | remove _ _ | vanished _ _ | removed _
  | removeFails _ => exact drive

/-! ## Runs -/

/-- The invariant while the invalidation runs. -/
structure Invalidating (config : Config) (fileId : Str) (fresh : β → Prop)
    (counted : Nat → Prop) (index : Nat) (state : State β) : Prop where
  drive : AllFresh fresh (state.drive fileId)
  upheld : Upheld config (freshLaw fileId fresh) counted nobody state
  removing : Removing fileId fresh state index

theorem Invalidating.step (invalidating : Invalidating config fileId fresh counted index state)
    {label : Label β} (meanwhile : Meanwhile fileId fresh index state label)
    (stepped : Stepped config state label next) :
    Invalidating config fileId fresh counted index next where
  drive := drive_step meanwhile.1 invalidating.drive stepped
  upheld := invalidating.upheld.step (freshLaw_closed config fileId fresh)
    (freshLaw_served invalidating.drive label) meanwhile.2.1 (freshLaw_begun fileId fresh label)
    stepped
  removing := invalidating.removing.step invalidating.upheld meanwhile.2.2 stepped

/-- The invariant after the invalidation has returned. -/
structure Invalidated (config : Config) (fileId : Str) (fresh : β → Prop)
    (counted followed : Nat → Prop) (state : State β) : Prop where
  drive : AllFresh fresh (state.drive fileId)
  upheld : Upheld config (freshLaw fileId fresh) counted followed state
  onDisk : (freshLaw fileId fresh).OnDisk state

theorem Invalidated.step
    (invalidated : Invalidated config fileId fresh counted followed state)
    {label : Label β} (stays : StaysFresh fileId fresh state label)
    (stepped : Stepped config state label next) :
    Invalidated config fileId fresh counted followed next where
  drive := drive_step stays invalidated.drive stepped
  upheld := invalidated.upheld.step (freshLaw_closed config fileId fresh)
    (freshLaw_served invalidated.drive label) (invalidated.onDisk.taken label)
    (freshLaw_begun fileId fresh label) stepped
  onDisk := invalidated.upheld.onDisk_step invalidated.onDisk stepped

/-- When the invalidation has returned, readers that begin from now on can be
followed. -/
theorem Invalidating.invalidated
    (invalidating : Invalidating config fileId fresh counted index state)
    (returned : state.invalidations index = .idle) :
    Invalidated config fileId fresh counted (fun other => state.readers other = none)
      state where
  drive := invalidating.drive
  upheld := by
    have upheld := invalidating.upheld
    refine ⟨upheld.memory, upheld.tasks, upheld.active, upheld.later, ?_⟩
    intro other reader present file
    obtain ⟨total, point⟩ := upheld.readers other reader present file
    refine ⟨total, point.weaken fun unused => ?_⟩
    rw [present] at unused
    cases unused
  onDisk := invalidating.removing.onDisk returned

theorem Invalidated.onlyFresh {returned : State β}
    (invalidated : Invalidated config fileId fresh counted
      (fun other => returned.readers other = none) state) :
    OnlyFresh fileId fresh returned state where
  memory := invalidated.upheld.memory
  disk := invalidated.onDisk
  handed := by
    intro index call chunk todo result other task data unused present file isTask isDone
    obtain ⟨-, isCounted, found, isFound, same⟩ :=
      (invalidated.upheld.readers index _ present file).2 unused
    rw [isTask, Option.some.injEq] at isFound
    subst isFound
    have outcome := (invalidated.upheld.tasks other task isTask (congrArg Prod.fst same)).2
    rw [isDone] at outcome
    exact outcome isCounted
  results := by
    intro index call result unused present file
    exact (invalidated.upheld.readers index _ present file).2 unused

/-- An invalidation that starts with nothing of the old content in flight,
during which nobody takes an old chunk from the disk cache and which no
exception ends before the old chunks are gone, is final. -/
theorem invalidation_final {boot invalidated returned finish : State β}
    (booted : Booted boot)
    (earlier : Reaches (Cache.step config) (fun _ _ => True) boot before)
    (changed : AllFresh fresh (before.drive fileId))
    (quiet : NothingInFlight fileId fresh before)
    (invalidates : Cache.step config before (.invalidate index fileId) = some invalidated)
    (meanwhile : Reaches (Cache.step config) (Meanwhile fileId fresh index) invalidated returned)
    (ended : returned.invalidations index = .idle)
    (later : Reaches (Cache.step config) (StaysFresh fileId fresh) returned finish) :
    OnlyFresh fileId fresh returned finish := by
  have any : Upheld config (anyLaw fileId) (fun _ => True) nobody before :=
    earlier.invariant (fun upheld _ taken => anyLaw_step upheld (stepped_of_step taken))
      (booted.upheld fileId)
  have started : Invalidating config fileId fresh (Counted fresh before) index
      invalidated := by
    cases stepped_of_step invalidates with
    | invalidate idle =>
        refine ⟨changed, quiet.upheld_invalidate idle any, Or.inr (Or.inl ?_)⟩
        rw [State.setInvalidation_invalidations, if_pos rfl]
  have running : Invalidating config fileId fresh (Counted fresh before) index returned :=
    meanwhile.invariant
      (fun invalidating allowed taken => invalidating.step allowed (stepped_of_step taken))
      started
  have final : Invalidated config fileId fresh (Counted fresh before)
      (fun other => returned.readers other = none) finish :=
    later.invariant
      (fun isInvalidated stays taken => isInvalidated.step stays (stepped_of_step taken))
      (running.invalidated ended)
  exact final.onlyFresh

end Invalidation

/-- Chunks of one byte. -/
def oneByte : Config := ⟨1, by decide, false⟩

/-- The read of the whole file `f` of one byte. -/
def wholeFile : ReadCall := ⟨['f'], 0, 1, 1⟩

/-- Both caches hold the old content 1 of a file whose content is 2. -/
def staleCaches : State Nat :=
  { (State.empty 20 [2]).putMemory (['f'], 0) [1] false with
    disk := AList.insert (['f'], 0) [1] ∅ }

/-- The invalidation of a file with one chunk on disk. -/
def invalidateOneChunk : List (Label Nat) :=
  .invalidate 0 ['f'] :: List.replicate 3 (.remove 0)

/-- A read that misses both caches after two prefetches. -/
def readAnew : List (Label Nat) :=
  .begin 0 wholeFile :: List.replicate 15 (.reader 0 fairWeather) ++
    List.replicate 11 (.task 2 fairWeather) ++ List.replicate 2 (.reader 0 fairWeather)

theorem invalidation_final_staleCaches :
    ∃ returned finish : State Nat,
      finish.readers 0 = some ⟨wholeFile, .finished [2]⟩ ∧
      OnlyFresh ['f'] (· = 2) returned finish := by
  have reads : (run (step oneByte) staleCaches (invalidateOneChunk ++ readAnew)).map
      (·.readers 0) = some (some ⟨wholeFile, .finished [2]⟩) := rfl
  have ended : (run (step oneByte) staleCaches invalidateOneChunk).map
      (·.invalidations 0) = some .idle := rfl
  obtain ⟨finish, executed, result⟩ := Option.map_eq_some_iff.mp reads
  obtain ⟨returned, isReturned, later⟩ := run_append_eq_some.mp executed
  obtain ⟨invalidated, isInvalidated, removes⟩ := Option.bind_eq_some_iff.mp isReturned
  have booted : Booted staleCaches := ⟨rfl, rfl, fun _ => rfl⟩
  have cleared : invalidated.invalidations 0 = .cleared ['f'] :=
    look_of_run isInvalidated (·.invalidations 0) rfl
  have meanwhile : AllowedAlong (step oneByte) (Meanwhile ['f'] (· = 2) 0) invalidated
      (List.replicate 3 (.remove 0)) := by
    refine ⟨⟨trivial, trivial, ?_⟩, fun listed isListed => ⟨⟨trivial, trivial, ?_⟩,
      fun removed isRemoved => ⟨⟨trivial, trivial, ?_⟩, fun _ _ => trivial⟩⟩⟩
    · simp [StopsRemoval, cleared]
    · have reached : run (step oneByte) staleCaches [.invalidate 0 ['f'], .remove 0] =
          some listed := by
        simp only [run, isInvalidated, isListed, Option.bind_some]
      have point : listed.invalidations 0 = .removing ['f'] [0] :=
        look_of_run reached (·.invalidations 0) rfl
      have found : listed.disk.lookup (['f'], 0) = some [1] :=
        look_of_run reached (·.disk.lookup (['f'], 0)) rfl
      simp [StopsRemoval, point, found]
    · have reached : run (step oneByte) staleCaches [.invalidate 0 ['f'], .remove 0, .remove 0] =
          some removed := by
        simp only [run, isInvalidated, isListed, isRemoved, Option.bind_some]
      have point : removed.invalidations 0 = .removing ['f'] [] :=
        look_of_run reached (·.invalidations 0) rfl
      simp [StopsRemoval, point]
  have stays : AllowedAlong (step oneByte) (StaysFresh ['f'] (· = 2)) returned readAnew :=
    AllowedAlong.of_forall (by simp [readAnew, StaysFresh])
  refine ⟨returned, finish, result, ?_⟩
  exact invalidation_final booted .refl
    (by simp [AllFresh, staleCaches, State.putMemory, State.empty])
    booted.nothingInFlight isInvalidated (Reaches.of_run meanwhile removes)
    (look_of_run isReturned (·.invalidations 0) ended) (Reaches.of_run stays later)

/-- A download has fetched the old content when it changes. -/
def fetchThenChange : List (Label Nat) :=
  .begin 0 wholeFile :: List.replicate 15 (.reader 0 fairWeather) ++
    List.replicate 7 (.task 2 fairWeather) ++ [.change ['f'] [2]]

/-- The invalidation of a file with no chunk on disk. -/
def invalidateNoChunk : List (Label Nat) :=
  .invalidate 0 ['f'] :: List.replicate 2 (.remove 0)

/-- The download puts the old content into the memory cache, where a second
read finds it. -/
def putBackThenRead : List (Label Nat) :=
  .task 2 fairWeather :: .begin 1 wholeFile :: List.replicate 11 (.reader 1 fairWeather)

theorem invalidation_fails_after_fetch :
    ¬ ∀ (boot before invalidated returned finish : State Nat) (index : Nat),
      Booted boot → Reaches (step oneByte) (fun _ _ => True) boot before →
      AllFresh (· = 2) (before.drive ['f']) →
      step oneByte before (.invalidate index ['f']) = some invalidated →
      Reaches (step oneByte) (StaysFresh ['f'] (· = 2)) invalidated returned →
      returned.invalidations index = .idle →
      Reaches (step oneByte) (StaysFresh ['f'] (· = 2)) returned finish →
      OnlyFresh ['f'] (· = 2) returned finish := by
  intro holds
  have reads : (run (step oneByte) (State.empty 20 [1])
      (fetchThenChange ++ (invalidateNoChunk ++ putBackThenRead))).map (·.readers 1) =
      some (some ⟨wholeFile, .finished [1]⟩) := rfl
  have ended : (run (step oneByte) (State.empty 20 [1])
      (fetchThenChange ++ invalidateNoChunk)).map
        (fun state => (state.invalidations 0, (state.readers 1).isNone)) =
      some (.idle, true) := rfl
  have changed : (run (step oneByte) (State.empty 20 [1]) fetchThenChange).map
      (·.drive ['f']) = some [2] := rfl
  obtain ⟨finish, executed, result⟩ := Option.map_eq_some_iff.mp reads
  obtain ⟨before, isBefore, executed⟩ := run_append_eq_some.mp executed
  obtain ⟨returned, isReturned, later⟩ := run_append_eq_some.mp executed
  rw [run_append_eq_some.mpr ⟨before, isBefore, isReturned⟩] at ended
  rw [isBefore] at changed
  obtain ⟨invalidated, isInvalidated, removes⟩ := Option.bind_eq_some_iff.mp isReturned
  obtain ⟨idle, unused⟩ := Prod.mk.inj (Option.some.inj ended)
  have drive : before.drive ['f'] = [2] := Option.some.inj changed
  have onlyFresh := holds (State.empty 20 [1]) before invalidated returned finish 0
    ⟨rfl, rfl, fun _ => rfl⟩ (Reaches.of_free_run isBefore) (by simp [AllFresh, drive])
    isInvalidated
    (Reaches.of_run (AllowedAlong.of_forall (by simp [StaysFresh])) removes) idle
    (Reaches.of_run (AllowedAlong.of_forall (by simp [putBackThenRead, StaysFresh])) later)
  have wrong := onlyFresh.results 1 _ _ (Option.isNone_iff_eq_none.mp unused) result rfl 1
    (by simp)
  simp at wrong

end FuseDrive.Cache
