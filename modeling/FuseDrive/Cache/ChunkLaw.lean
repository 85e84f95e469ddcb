import FuseDrive.Cache.ChunkManager

/-!
# Laws on the chunks of a file

Chunks reach a reader through the memory cache, the disk cache and download
tasks, in any order and shared between readers.  A `ChunkLaw` says what every
chunk of one file has to satisfy and what a reader has collected so far;
`Upheld` says that everything in the process that can still reach the memory
cache or a followed reader satisfies the law.  Every step upholds a law that
Drive upholds, as long as what is taken from the disk cache satisfies it.
-/

namespace FuseDrive.Cache

variable {β : Type}

/-- What the totals, the chunks and the partial results of reads of a file
satisfy. -/
structure ChunkLaw (β : Type) where
  fileId : Str
  total : Nat → Prop
  chunk : Nat → List β → Prop
  soFar : ReadCall → List Nat → List β → Prop

/-- Reading keeps to the law. -/
structure ChunkLaw.Closed (config : Config) (law : ChunkLaw β) : Prop where
  past : ∀ total chunk, law.total total → total ≤ config.chunkStart chunk →
    law.chunk chunk []
  beyond : ∀ call, call.fileId = law.fileId → law.total call.total →
    call.total ≤ call.offset → law.soFar call [] []
  begun : ∀ call, call.fileId = law.fileId → law.total call.total →
    call.offset < call.total → law.soFar call (config.chunks call) []
  taken : ∀ call chunk todo result data, law.soFar call (chunk :: todo) result →
    law.chunk chunk data → law.soFar call todo (result ++ config.piece call chunk data)

/-- If the step is an answer of Drive to a request for the file, then with a
lawful chunk. -/
def ChunkLaw.Served (config : Config) (law : ChunkLaw β) (state : State β) :
    Label β → Prop
  | .task index weather =>
      ∀ task, state.tasks[index]? = some task → weather.storageFails = false →
        task.fileId = law.fileId → task.point = .requested → law.total task.total →
        config.chunkStart task.chunk < task.total →
        law.chunk task.chunk (state.driveChunk config task)
  | _ => True

/-- Everything of the file in the disk cache is lawful. -/
def ChunkLaw.OnDisk (law : ChunkLaw β) (state : State β) : Prop :=
  ∀ chunk data, state.disk.lookup (law.fileId, chunk) = some data → law.chunk chunk data

/-- What a step takes from the disk cache is lawful. -/
def ChunkLaw.Taken (law : ChunkLaw β) (state : State β) : Label β → Prop
  | .reader index _ =>
      ∀ call chunk todo result,
        state.readers index = some ⟨call, .lookDisk chunk todo result⟩ →
        call.fileId = law.fileId →
        ∀ data, state.disk.lookup (law.fileId, chunk) = some data → law.chunk chunk data
  | .task index _ =>
      ∀ task, state.tasks[index]? = some task → task.fileId = law.fileId →
        task.point = .lookDisk →
        ∀ data, state.disk.lookup (law.fileId, task.chunk) = some data →
          law.chunk task.chunk data
  | _ => True

/-- A new read of the file knows a lawful total. -/
def ChunkLaw.Begun (law : ChunkLaw β) : Label β → Prop
  | .begin _ call => call.fileId = law.fileId → law.total call.total
  | _ => True

/-- The number of a task for a chunk. -/
def State.TaskOf (state : State β) (index : Nat) (key : ChunkKey) : Prop :=
  ∃ task, state.tasks[index]? = some task ∧ task.key = key

/-- What a task of the file carries. -/
def TaskUpheld (config : Config) (law : ChunkLaw β) (followed : Prop) (task : Task β) :
    TaskPoint β → Prop
  | .waiting | .lookMemory | .lookDisk | .request | .requested =>
      config.chunkStart task.chunk < task.total
  | .diskHit data | .fetched data | .stored data => law.chunk task.chunk data
  | .leaving (some data) | .returning (some data) | .done (some data) =>
      followed → law.chunk task.chunk data
  | .leaving none | .returning none | .done none | .queued | .cancelled | .started => True

/-- What a reader of the file carries; its partial result counts only if it
is followed. -/
def ReaderUpheld (law : ChunkLaw β) (counted : Nat → Prop) (state : State β)
    (followed : Prop) (call : ReadCall) : ReaderPoint β → Prop
  | .prefetch _ _ _ | .remember => followed → call.offset < call.total
  | .lookMemory todo result => followed → law.soFar call todo result
  | .lookDisk chunk todo result | .schedule chunk todo result =>
      followed → law.soFar call (chunk :: todo) result
  | .putMemory chunk todo result data =>
      law.chunk chunk data ∧ (followed → law.soFar call (chunk :: todo) result)
  | .register chunk todo result task | .await chunk todo result task =>
      followed → law.soFar call (chunk :: todo) result ∧ counted task ∧
        state.TaskOf task (law.fileId, chunk)
  | .finished result => followed → law.soFar call [] result
  | .failed | .frozen => True

/-- The law holds in the memory cache, in the tasks and in the readers.
`counted` are the tasks whose outcome counts and `followed` the readers whose
result counts. -/
structure Upheld (config : Config) (law : ChunkLaw β) (counted followed : Nat → Prop)
    (state : State β) : Prop where
  memory : ∀ chunk data, state.memory.cache.lookup (law.fileId, chunk) = some data →
    law.chunk chunk data
  tasks : ∀ index task, state.tasks[index]? = some task → task.fileId = law.fileId →
    law.total task.total ∧ TaskUpheld config law (counted index) task task.point
  active : ∀ chunk index wasPrefetch,
    state.active.lookup (law.fileId, chunk) = some (index, wasPrefetch) →
      counted index ∧ state.TaskOf index (law.fileId, chunk)
  later : ∀ index, state.tasks.length ≤ index → counted index
  readers : ∀ index reader, state.readers index = some reader →
    reader.call.fileId = law.fileId →
      law.total reader.call.total ∧
        ReaderUpheld law counted state (followed index) reader.call reader.point

section Frames

theorem ReaderUpheld.weaken {law : ChunkLaw β} {counted : Nat → Prop} {state : State β}
    {followed fewer : Prop} {call : ReadCall} {point : ReaderPoint β}
    (implied : fewer → followed)
    (upheld : ReaderUpheld law counted state followed call point) :
    ReaderUpheld law counted state fewer call point := by
  cases point with
  | putMemory chunk todo result data =>
      exact ⟨upheld.1, fun isFollowed => upheld.2 (implied isFollowed)⟩
  | prefetch _ _ _ | remember | lookMemory _ _ | lookDisk _ _ _ | schedule _ _ _
  | register _ _ _ _ | await _ _ _ _ | finished _ =>
      exact fun isFollowed => upheld (implied isFollowed)
  | failed | frozen => trivial

theorem State.TaskOf.mono {state next : State β} {index : Nat} {key : ChunkKey}
    (kept : ∀ (other : Nat) (task : Task β), state.tasks[other]? = some task →
      ∃ later : Task β, next.tasks[other]? = some later ∧ later.key = task.key)
    (isTask : state.TaskOf index key) : next.TaskOf index key := by
  obtain ⟨task, present, same⟩ := isTask
  obtain ⟨later, isLater, sameKey⟩ := kept index task present
  exact ⟨later, isLater, sameKey.trans same⟩

theorem ReaderUpheld.mono {law : ChunkLaw β} {counted : Nat → Prop}
    {state next : State β} {followed : Prop} {call : ReadCall} {point : ReaderPoint β}
    (kept : ∀ index key, state.TaskOf index key → next.TaskOf index key)
    (upheld : ReaderUpheld law counted state followed call point) :
    ReaderUpheld law counted next followed call point := by
  cases point with
  | register chunk todo result task | await chunk todo result task =>
      intro isFollowed
      obtain ⟨soFar, counts, isTask⟩ := upheld isFollowed
      exact ⟨soFar, counts, kept _ _ isTask⟩
  | prefetch _ _ _ | remember | lookMemory _ _ | lookDisk _ _ _ | putMemory _ _ _ _
  | schedule _ _ _ | finished _ | failed | frozen => exact upheld

variable {config : Config} {law : ChunkLaw β} {counted followed : Nat → Prop}
  {state next : State β}

theorem Upheld.congr (upheld : Upheld config law counted followed state)
    (memory : ∀ chunk data, next.memory.cache.lookup (law.fileId, chunk) = some data →
      law.chunk chunk data)
    (sameTasks : next.tasks = state.tasks)
    (active : ∀ key found, next.active.lookup key = some found →
      state.active.lookup key = some found)
    (sameReaders : next.readers = state.readers) :
    Upheld config law counted followed next := by
  have kept (index : Nat) (key : ChunkKey) (isTask : state.TaskOf index key) :
      next.TaskOf index key := by
    unfold State.TaskOf
    rw [sameTasks]
    exact isTask
  refine ⟨memory, ?_, ?_, ?_, ?_⟩
  · rw [sameTasks]
    exact upheld.tasks
  · intro chunk index wasPrefetch found
    obtain ⟨counts, isTask⟩ := upheld.active chunk index wasPrefetch (active _ _ found)
    exact ⟨counts, kept _ _ isTask⟩
  · rw [sameTasks]
    exact upheld.later
  · rw [sameReaders]
    intro index reader present file
    obtain ⟨total, point⟩ := upheld.readers index reader present file
    exact ⟨total, point.mono kept⟩

theorem State.setReader_readers (state : State β) (index other : Nat)
    (reader : Reader β) :
    (state.setReader index reader).readers other =
      if other = index then some reader else state.readers other :=
  Function.update_apply ..

theorem Upheld.setReader (upheld : Upheld config law counted followed state) (index : Nat)
    {call : ReadCall} {point : ReaderPoint β}
    (lawful : call.fileId = law.fileId → law.total call.total ∧
      ReaderUpheld law counted state (followed index) call point) :
    Upheld config law counted followed (state.setReader index ⟨call, point⟩) := by
  refine ⟨upheld.memory, upheld.tasks, upheld.active, upheld.later, ?_⟩
  intro other reader present file
  rw [State.setReader_readers] at present
  split at present
  · rename_i same
    cases present
    subst same
    exact lawful file
  · exact upheld.readers other reader present file

theorem State.setTask_getElem? (state : State β) (index other : Nat) (task : Task β) :
    (state.setTask index task).tasks[other]? =
      if other = index then (state.tasks[index]?).map fun _ => task
      else state.tasks[other]? := by
  unfold State.setTask
  rw [List.getElem?_set]
  by_cases same : index = other
  · subst same
    simp only [if_pos]
    split
    · rename_i inside
      simp [inside]
    · rename_i outside
      simp [List.getElem?_eq_none (Nat.le_of_not_lt outside)]
  · rw [if_neg same, if_neg (Ne.symm same)]

theorem Upheld.setTask (upheld : Upheld config law counted followed state) {index : Nat}
    {task later : Task β} (present : state.tasks[index]? = some task)
    (sameKey : later.key = task.key) (sameTotal : later.total = task.total)
    (lawful : later.fileId = law.fileId →
      TaskUpheld config law (counted index) later later.point) :
    Upheld config law counted followed (state.setTask index later) := by
  have look := fun other => state.setTask_getElem? index other later
  have kept (other : Nat) (key : ChunkKey) (isTask : state.TaskOf other key) :
      (state.setTask index later).TaskOf other key := by
    obtain ⟨found, isFound, same⟩ := isTask
    by_cases isIndex : other = index
    · subst isIndex
      rw [isFound, Option.some.injEq] at present
      subst present
      exact ⟨later, by rw [look, if_pos rfl, isFound]; rfl, sameKey.trans same⟩
    · exact ⟨found, by rw [look, if_neg isIndex, isFound], same⟩
  refine ⟨upheld.memory, ?_, ?_, ?_, ?_⟩
  · intro other found isFound file
    rw [look] at isFound
    split at isFound
    · rename_i isIndex
      subst isIndex
      rw [present, Option.map_some, Option.some.injEq] at isFound
      subst isFound
      have wasFile : task.fileId = law.fileId := (congrArg Prod.fst sameKey).symm.trans file
      exact ⟨sameTotal ▸ (upheld.tasks other task present wasFile).1, lawful file⟩
    · exact upheld.tasks other found isFound file
  · intro chunk other wasPrefetch found
    obtain ⟨counts, isTask⟩ := upheld.active chunk other wasPrefetch found
    exact ⟨counts, kept _ _ isTask⟩
  · intro other beyond
    exact upheld.later other (by simpa [State.setTask] using beyond)
  · intro other reader isReader file
    obtain ⟨total, point⟩ := upheld.readers other reader isReader file
    exact ⟨total, point.mono kept⟩

theorem Upheld.submit (upheld : Upheld config law counted followed state) {key : ChunkKey}
    {total : Nat} (isPrefetch : Bool)
    (lawful : key.1 = law.fileId → law.total total) :
    Upheld config law counted followed (state.submit key total isPrefetch) ∧
      counted state.tasks.length ∧
      (state.submit key total isPrefetch).TaskOf state.tasks.length key := by
  have old (other : Nat) (task : Task β) (present : state.tasks[other]? = some task) :
      (state.submit key total isPrefetch).tasks[other]? = some task := by
    have inside := (List.getElem?_eq_some_iff.mp present).1
    exact (List.getElem?_append_left inside).trans present
  have new : (state.submit key total isPrefetch).tasks[state.tasks.length]? =
      some ⟨key.1, key.2, total, isPrefetch, .queued, 0⟩ := by
    simp [State.submit]
  have kept (other : Nat) (otherKey : ChunkKey) (isTask : state.TaskOf other otherKey) :
      (state.submit key total isPrefetch).TaskOf other otherKey :=
    isTask.mono fun index task present => ⟨task, old index task present, rfl⟩
  have counts := upheld.later state.tasks.length Nat.le.refl
  refine ⟨⟨upheld.memory, ?_, ?_, ?_, ?_⟩, counts, ⟨_, new, rfl⟩⟩
  · intro other task present file
    rcases Nat.lt_trichotomy other state.tasks.length with inside | same | outside
    · refine upheld.tasks other task ?_ file
      exact (List.getElem?_append_left inside).symm.trans present
    · subst same
      rw [new, Option.some.injEq] at present
      subst present
      exact ⟨lawful file, trivial⟩
    · rw [State.submit, List.getElem?_append_right (Nat.le_of_lt outside),
        List.getElem?_eq_none (by simp; omega)] at present
      cases present
  · intro chunk index wasPrefetch found
    change (state.active.insert key _).lookup _ = _ at found
    rw [Dict.lookup_insert_eq] at found
    split at found
    · rename_i same
      cases found
      exact ⟨counts, _, new, same.symm⟩
    · obtain ⟨isCounted, isTask⟩ := upheld.active chunk index wasPrefetch found
      exact ⟨isCounted, kept _ _ isTask⟩
  · intro index beyond
    refine upheld.later index (Nat.le_trans ?_ beyond)
    simp [State.submit]
  · intro other reader isReader file
    obtain ⟨lawfulTotal, point⟩ := upheld.readers other reader isReader file
    exact ⟨lawfulTotal, point.mono kept⟩

theorem Upheld.removeFuture (upheld : Upheld config law counted followed state)
    (key : ChunkKey) : Upheld config law counted followed (state.removeFuture key) := by
  refine upheld.congr upheld.memory rfl ?_ rfl
  intro other found isFound
  rw [State.removeFuture, Dict.lookup_erase_eq] at isFound
  split at isFound
  · cases isFound
  · exact isFound

theorem Upheld.touch (upheld : Upheld config law counted followed state) (key : ChunkKey) :
    Upheld config law counted followed (state.touch key) := by
  refine upheld.congr ?_ rfl (fun _ _ found => found) rfl
  intro chunk data present
  rw [State.touch, InMemoryChunkEvictionCache.get_lookup] at present
  exact upheld.memory chunk data present

theorem Upheld.putMemory (upheld : Upheld config law counted followed state)
    (key : ChunkKey) (data : List β) (isPrefetch : Bool)
    (lawful : key.1 = law.fileId → law.chunk key.2 data) :
    Upheld config law counted followed (state.putMemory key data isPrefetch) := by
  refine upheld.congr ?_ rfl (fun _ _ found => found) rfl
  intro chunk found present
  rcases InMemoryChunkEvictionCache.lookup_put present with ⟨same, isData⟩ | old
  · subst same isData
    exact lawful rfl
  · exact upheld.memory chunk found old

theorem Upheld.addDoneCallback (upheld : Upheld config law counted followed state)
    {key : ChunkKey} {index : Nat}
    (added : state.addDoneCallback key index = some next) :
    Upheld config law counted followed next := by
  unfold State.addDoneCallback at added
  split at added
  · rename_i task present
    split at added
    · split at added <;> cases added
      exact upheld.removeFuture key
    · split at added <;> cases added
      exact upheld.removeFuture key
    · cases added
      exact upheld.setTask present rfl rfl fun file =>
        (upheld.tasks index task present file).2
  · cases added

theorem Upheld.scheduleOrGet (upheld : Upheld config law counted followed state)
    {key : ChunkKey} {total : Nat} {isPrefetch : Bool} {scheduled : State.Scheduled}
    (lawful : key.1 = law.fileId → law.total total)
    (taken : state.scheduleOrGet key total isPrefetch = (scheduled, next)) :
    Upheld config law counted followed next ∧
      ∀ index, scheduled = .joined index ∨ scheduled = .submitted index →
        key.1 = law.fileId → counted index ∧ next.TaskOf index key := by
  have joins {index : Nat} {wasPrefetch : Bool}
      (found : state.active.lookup key = some (index, wasPrefetch)) (other : Nat)
      (isOther : State.Scheduled.joined index = .joined other ∨
        State.Scheduled.joined index = .submitted other)
      (file : key.1 = law.fileId) : counted other ∧ state.TaskOf other key := by
    have same : other = index := by
      rcases isOther with isJoined | isSubmitted
      · cases isJoined
        rfl
      · cases isSubmitted
    subst same
    have sameKey : key = (law.fileId, key.2) := Prod.ext file rfl
    rw [sameKey] at found
    have registered := upheld.active key.2 other wasPrefetch found
    rwa [← sameKey] at registered
  have promotes {base : State β} (isUpheld : Upheld config law counted followed base)
      (sameLength : base.tasks.length = state.tasks.length) :
      Upheld config law counted followed
          ((base.submit key total false).submit key total isPrefetch) ∧
        ∀ index, State.Scheduled.submitted (state.tasks.length + 1) = .joined index ∨
            State.Scheduled.submitted (state.tasks.length + 1) = .submitted index →
          key.1 = law.fileId → counted index ∧
            ((base.submit key total false).submit key total isPrefetch).TaskOf index key := by
    have first := isUpheld.submit false lawful
    obtain ⟨both, counts, isTask⟩ := first.1.submit isPrefetch lawful
    have length : (base.submit key total false).tasks.length = state.tasks.length + 1 := by
      simp [State.submit, sameLength]
    rw [length] at counts isTask
    refine ⟨both, fun index isIndex _ => ?_⟩
    rcases isIndex with isJoined | isSubmitted
    · cases isJoined
    · cases isSubmitted
      exact ⟨counts, isTask⟩
  unfold State.scheduleOrGet at taken
  split at taken
  · cases taken
    obtain ⟨isUpheld, counts, isTask⟩ := upheld.submit isPrefetch lawful
    refine ⟨isUpheld, fun index isIndex _ => ?_⟩
    rcases isIndex with isJoined | isSubmitted
    · cases isJoined
    · cases isSubmitted
      exact ⟨counts, isTask⟩
  · rename_i index wasPrefetch found
    split at taken
    · split at taken
      · rename_i task present
        have cancelled : Upheld config law counted followed
            (state.setTask index { task with point := .cancelled }) :=
          upheld.setTask present rfl rfl fun _ => trivial
        split at taken
        · simp only at taken
          split at taken <;> cases taken
          · refine ⟨cancelled.congr cancelled.memory rfl (fun _ _ same => same) rfl, ?_⟩
            intro other isOther
            rcases isOther with isJoined | isSubmitted
            · cases isJoined
            · cases isSubmitted
          · exact promotes cancelled (by simp [State.setTask])
        · cases taken
          exact promotes upheld rfl
        · cases taken
          exact ⟨upheld, joins found⟩
      · cases taken
        exact ⟨upheld, joins found⟩
    · cases taken
      exact ⟨upheld, joins found⟩

theorem lookup_clearMemory {fileId : Str} {key : ChunkKey} {data : List β}
    (present : (state.clearMemory fileId).memory.cache.lookup key = some data) :
    key.1 ≠ fileId ∧ state.memory.cache.lookup key = some data := by
  rw [State.clearMemory, InMemoryChunkEvictionCache.foldl_invalidate_lookup] at present
  split at present
  · cases present
  · rename_i absent
    refine ⟨fun same => absent ?_, present⟩
    refine List.mem_filter.mpr ⟨?_, by simpa using same⟩
    exact AList.mem_keys.mp (AList.lookup_isSome.mp (by rw [present]; rfl))

end Frames

section Steps

variable {config : Config} {law : ChunkLaw β} {counted followed : Nat → Prop}
  {state next : State β} {weather : Weather}

theorem Upheld.downloaded (closed : law.Closed config)
    (upheld : Upheld config law counted followed state) {index : Nat} {task : Task β}
    {point : TaskPoint β} (present : state.tasks[index]? = some task)
    (served : weather.storageFails = false → task.fileId = law.fileId →
      task.point = .requested → law.total task.total →
      config.chunkStart task.chunk < task.total →
      law.chunk task.chunk (state.driveChunk config task))
    (taken : task.fileId = law.fileId → task.point = .lookDisk → ∀ data,
      state.disk.lookup (law.fileId, task.chunk) = some data → law.chunk task.chunk data)
    (moved : Downloaded config weather state task task.point next point) :
    Upheld config law counted followed (next.setTask index { task with point := point }) := by
  obtain ⟨fileId, chunk, total, isPrefetch, before, callbacks⟩ := task
  have holds (file : fileId = law.fileId) := upheld.tasks index _ present file
  -- the steps that leave the shared state alone
  have quiet {later : TaskPoint β}
      (lawful : fileId = law.fileId → TaskUpheld config law (counted index)
        ⟨fileId, chunk, total, isPrefetch, later, callbacks⟩ later) :
      Upheld config law counted followed
        (state.setTask index ⟨fileId, chunk, total, isPrefetch, later, callbacks⟩) :=
    upheld.setTask present rfl rfl lawful
  have inMemory (file : fileId = law.fileId) (data : List β)
      (found : state.memory.cache.lookup (fileId, chunk) = some data) :
      law.chunk chunk data := by
    rw [file] at found
    exact upheld.memory chunk data found
  cases moved with
  | pick => exact quiet fun _ => trivial
  | past beyond =>
      exact quiet fun file _ => closed.past total chunk (holds file).1 beyond
  | enter inside => exact quiet fun _ => inside
  | lock free => exact quiet fun file => (holds file).2
  | memoryHit found =>
      exact (upheld.touch (fileId, chunk)).setTask present rfl rfl
        fun file _ => inMemory file _ found
  | memoryMiss absent => exact quiet fun file => (holds file).2
  | diskRaised raised => exact quiet fun _ => trivial
  | diskHit found =>
      refine quiet fun file => taken file rfl _ ?_
      change state.disk.lookup (fileId, chunk) = _ at found
      rwa [file] at found
  | diskMiss => exact quiet fun file => (holds file).2
  | @keep data =>
      have put := upheld.putMemory (fileId, chunk) data isPrefetch fun file => (holds file).2
      exact put.setTask present rfl rfl fun file _ => (holds file).2
  | ask =>
      have asked : Upheld config law counted followed
          { state with
            requests := ⟨fileId, config.chunkStart chunk,
              config.chunkEnd chunk total⟩ :: state.requests } :=
        upheld.congr upheld.memory rfl (fun _ _ found => found) rfl
      exact asked.setTask present rfl rfl fun file => (holds file).2
  | refused fails => exact quiet fun _ => trivial
  | reply answers =>
      exact quiet fun file => served answers file rfl (holds file).1 (holds file).2
  | @store data =>
      have put := upheld.putMemory (fileId, chunk) data isPrefetch fun file => (holds file).2
      exact put.setTask present rfl rfl fun file => (holds file).2
  | writeRaised raised => exact quiet fun _ => trivial
  | writeSkipped => exact quiet fun file _ => (holds file).2
  | @write data =>
      have written : Upheld config law counted followed
          { state with disk := state.disk.insert (fileId, chunk) data } :=
        upheld.congr upheld.memory rfl (fun _ _ found => found) rfl
      exact written.setTask present rfl rfl fun file _ => (holds file).2
  | @leave outcome =>
      cases outcome <;> exact quiet fun file => (holds file).2
  | @finish outcome =>
      cases outcome <;> exact quiet fun file => (holds file).2

theorem readerUpheld_afterPrefetch {call : ReadCall} {later : List Nat} {isFollowed : Prop}
    (inside : isFollowed → call.offset < call.total) :
    ReaderUpheld law counted state isFollowed call (afterPrefetch later) := by
  cases later <;> exact inside

theorem Upheld.moved (closed : law.Closed config)
    (upheld : Upheld config law counted followed state) {index : Nat} {call : ReadCall}
    {before after : ReaderPoint β} (present : state.readers index = some ⟨call, before⟩)
    (taken : ∀ chunk todo result, before = .lookDisk chunk todo result →
      call.fileId = law.fileId → ∀ data,
      state.disk.lookup (law.fileId, chunk) = some data → law.chunk chunk data)
    (moved : Moved config weather state call before next after) :
    Upheld config law counted followed (next.setReader index ⟨call, after⟩) := by
  have holds (file : call.fileId = law.fileId) := upheld.readers index _ present file
  have total (file : call.fileId = law.fileId) : law.total call.total := (holds file).1
  cases moved with
  | skipPrefetch =>
      exact upheld.setReader index fun file =>
        ⟨total file, readerUpheld_afterPrefetch (holds file).2⟩
  | nextPrefetch follows => exact upheld.setReader index fun file => ⟨total file, (holds file).2⟩
  | prefetchJoined unlocked scheduled =>
      exact (upheld.scheduleOrGet total scheduled).1.setReader index fun file =>
        ⟨total file, readerUpheld_afterPrefetch (holds file).2⟩
  | prefetchSubmitted unlocked scheduled =>
      exact (upheld.scheduleOrGet total scheduled).1.setReader index fun file =>
        ⟨total file, (holds file).2⟩
  | prefetchDeadlocked unlocked scheduled =>
      exact (upheld.scheduleOrGet total scheduled).1.setReader index fun file =>
        ⟨total file, trivial⟩
  | prefetchRegistered added =>
      exact (upheld.addDoneCallback added).setReader index fun file =>
        ⟨total file, readerUpheld_afterPrefetch (holds file).2⟩
  | remember =>
      have remembered : Upheld config law counted followed (state.remember config call) :=
        upheld.congr upheld.memory rfl (fun _ _ found => found) rfl
      exact remembered.setReader index fun file =>
        ⟨total file, fun isFollowed =>
          closed.begun call file (total file) ((holds file).2 isFollowed)⟩
  | finish => exact upheld.setReader index fun file => ⟨total file, (holds file).2⟩
  | @memoryHit chunk todo result data found =>
      refine (upheld.touch (call.fileId, chunk)).setReader index fun file =>
        ⟨total file, fun isFollowed =>
          closed.taken call chunk todo result data ((holds file).2 isFollowed) ?_⟩
      rw [file] at found
      exact upheld.memory chunk data found
  | memoryMiss absent => exact upheld.setReader index fun file => ⟨total file, (holds file).2⟩
  | diskRaised raised => exact upheld.setReader index fun file => ⟨total file, trivial⟩
  | @diskHit chunk todo result data found =>
      refine upheld.setReader index fun file => ⟨total file, ?_, (holds file).2⟩
      rw [file] at found
      exact taken chunk todo result rfl file data found
  | diskMiss => exact upheld.setReader index fun file => ⟨total file, (holds file).2⟩
  | @put chunk todo result data =>
      have isUpheld :=
        upheld.putMemory (call.fileId, chunk) data false fun file => (holds file).2.1
      exact isUpheld.setReader index fun file =>
        ⟨total file, fun isFollowed => closed.taken call chunk todo result data
          ((holds file).2.2 isFollowed) (holds file).2.1⟩
  | @joined chunk todo result task next unlocked scheduled =>
      obtain ⟨isUpheld, isTask⟩ := upheld.scheduleOrGet total scheduled
      refine isUpheld.setReader index fun file =>
        ⟨total file, fun isFollowed => ⟨(holds file).2 isFollowed, ?_⟩⟩
      rw [← file]
      exact isTask task (Or.inl rfl) file
  | @submitted chunk todo result task next unlocked scheduled =>
      obtain ⟨isUpheld, isTask⟩ := upheld.scheduleOrGet total scheduled
      refine isUpheld.setReader index fun file =>
        ⟨total file, fun isFollowed => ⟨(holds file).2 isFollowed, ?_⟩⟩
      rw [← file]
      exact isTask task (Or.inr rfl) file
  | deadlocked unlocked scheduled =>
      exact (upheld.scheduleOrGet total scheduled).1.setReader index fun file =>
        ⟨total file, trivial⟩
  | @registered chunk todo result task next added =>
      have isUpheld := upheld.addDoneCallback added
      have same : next.readers = state.readers := by rw [State.addDoneCallback_eq added]
      refine isUpheld.setReader index fun file => ?_
      have later := isUpheld.readers index ⟨call, .register chunk todo result task⟩
        (by rw [same, present]) file
      exact later
  | @received chunk todo result index data task isPresent isDone =>
      refine upheld.setReader _ fun file => ⟨total file, fun isFollowed => ?_⟩
      obtain ⟨soFar, counts, found, isFound, sameKey⟩ := (holds file).2 isFollowed
      rw [isPresent, Option.some.injEq] at isFound
      subst isFound
      have taskFile : task.fileId = law.fileId := congrArg Prod.fst sameKey
      have taskChunk : task.chunk = chunk := congrArg Prod.snd sameKey
      have outcome := (upheld.tasks index task isPresent taskFile).2
      rw [isDone] at outcome
      exact closed.taken call chunk todo result data soFar (taskChunk ▸ outcome counts)
  | raised isPresent isOver => exact upheld.setReader index fun file => ⟨total file, trivial⟩

theorem Upheld.step (closed : law.Closed config)
    (upheld : Upheld config law counted followed state) {label : Label β}
    (served : law.Served config state label) (taken : law.Taken state label)
    (begun : law.Begun label) (stepped : Stepped config state label next) :
    Upheld config law counted followed next := by
  cases stepped with
  | @begin index call unused =>
      refine upheld.setReader index fun file => ⟨begun file, ?_⟩
      unfold State.firstPoint
      split
      · exact fun _ => closed.beyond call file (begun file) ‹_›
      · rename_i inside
        have isInside : call.offset < call.total := Nat.lt_of_not_le inside
        split <;> exact fun _ => isInside
  | @reader index weather reader next point present moved =>
      refine upheld.moved closed present ?_ moved
      intro chunk todo result isPoint file
      refine taken reader.call chunk todo result ?_ file
      rw [present, ← isPoint]
  | @task index weather task next point present moved =>
      exact upheld.downloaded closed present (served task present) (taken task present) moved
  | callback present isDone unlocked registered =>
      exact (upheld.removeFuture _).setTask present rfl rfl fun file =>
        (upheld.tasks _ _ present file).2
  | invalidate idle =>
      refine upheld.congr ?_ rfl (fun _ _ found => found) rfl
      intro chunk data found
      exact upheld.memory chunk data (lookup_clearMemory found).2
  | list _ | remove _ _ | vanished _ _ | removed _ | removeFails _ | change =>
      exact upheld.congr upheld.memory rfl (fun _ _ found => found) rfl

/-- Apart from what the tasks of a lawful process write, which is lawful, every
chunk file was there before. -/
theorem Upheld.disk_step (upheld : Upheld config law counted followed state)
    {label : Label β} (stepped : Stepped config state label next) {chunk : Nat}
    {data : List β} (present : next.disk.lookup (law.fileId, chunk) = some data) :
    law.chunk chunk data ∨ state.disk.lookup (law.fileId, chunk) = some data := by
  cases stepped with
  | reader isReader moved =>
      right
      rw [← moved.frame.1]
      exact present
  | @task index weather task moved point isTask isMoved =>
      obtain ⟨fileId, ownChunk, total, isPrefetch, before, callbacks⟩ := task
      cases isMoved with
      | @write written =>
          change (state.disk.insert (fileId, ownChunk) written).lookup _ = _ at present
          rw [Dict.lookup_insert_eq] at present
          split at present
          · rename_i same
            cases present
            cases same
            exact Or.inl (upheld.tasks index _ isTask rfl).2
          · exact Or.inr present
      | pick | past _ | enter _ | lock _ | memoryHit _ | memoryMiss _ | diskRaised _
      | diskHit _ | diskMiss | keep | ask | refused _ | reply _ | store | writeRaised _
      | writeSkipped | leave | finish => exact Or.inr present
  | remove removing _ =>
      right
      change (state.disk.erase _).lookup _ = _ at present
      rw [Dict.lookup_erase_eq] at present
      split at present
      · cases present
      · exact present
  | begin _ | callback _ _ _ _ | invalidate _ | list _ | vanished _ _ | removed _ | removeFails _
  | change => exact Or.inr present

theorem Upheld.onDisk_step (upheld : Upheld config law counted followed state)
    (onDisk : law.OnDisk state) {label : Label β}
    (stepped : Stepped config state label next) : law.OnDisk next := by
  intro chunk data present
  rcases upheld.disk_step stepped present with lawful | old
  · exact lawful
  · exact onDisk chunk data old

/-- If every chunk of Drive's content is lawful, so is every answer. -/
theorem ChunkLaw.served_of_forall
    (lawful : ∀ task : Task β, task.fileId = law.fileId → law.total task.total →
      config.chunkStart task.chunk < task.total →
      law.chunk task.chunk (state.driveChunk config task))
    (label : Label β) : law.Served config state label := by
  cases label with
  | task index weather => exact fun task _ _ file _ total inside => lawful task file total inside
  | begin _ _ | reader _ _ | callback _ | invalidate _ _ | remove _ | removeFails _
  | change _ _ => trivial

theorem ChunkLaw.OnDisk.taken (onDisk : law.OnDisk state) (label : Label β) :
    law.Taken state label := by
  cases label with
  | reader index weather => exact fun _ chunk _ _ _ _ data found => onDisk chunk data found
  | task index weather => exact fun task _ _ _ data found => onDisk task.chunk data found
  | begin _ _ | callback _ | invalidate _ _ | remove _ | removeFails _ | change _ _ => trivial

end Steps

end FuseDrive.Cache
