import FuseDrive.Cache.Coherence
import FuseDrive.Cache.Invalidation

/-!
# Reads agree with the recorded modified time

While the metadata cache records one modified time for a file, the reads that
begin return bytes of that time only, provided that the runs are orderly: a
record is replaced before it has expired, or nothing of another time is around;
an invalidation begins with nothing of another time in flight and no exception
ends it before the old chunks are off the disk; chunks are fetched while Drive
has the recorded time; and no read begins between the update of a record by
`release` and the invalidation that follows it.

A record that expires takes the old modified time with it.  When a directory
load stores the new one, `set_metadata` compares it with nothing and the old
chunks stay.
-/

namespace FuseDrive.Coherence

open FuseDrive.Cache Transition

variable {γ : Type}

/-! ## The condition -/

/-- The byte was fetched while the modified time was `time`. -/
def OfTime (time : Nat) (byte : Stamped γ) : Prop := byte.modified = time

/-- Nothing of the file in the caches or in flight has another time. -/
structure UpToDate (fileId : Str) (time : Nat) (chunks : Cache.State (Stamped γ)) :
    Prop where
  quiet : NothingInFlight fileId (OfTime time) chunks
  memory : ∀ chunk data, chunks.memory.cache.lookup (fileId, chunk) = some data →
    AllFresh (OfTime time) data
  disk : ∀ chunk data, chunks.disk.lookup (fileId, chunk) = some data →
    AllFresh (OfTime time) data

/-- A `set_metadata` call that invalidates finds nothing of another time in
flight; one that finds no record (or stores a directory) records the time it
recorded last, or finds nothing of another time at all. -/
def StoresOrderly (state : State γ) (fileId : Str) (object : Nat) : Prop :=
  if state.cache.changes fileId object then
    NothingInFlight fileId (OfTime (state.cache.objects object).modifiedAtTimestamp)
      state.chunks
  else
    ((state.cache.getMetadata fileId).isSome = true ∧
        (state.cache.objects object).isDirectory = false) ∨
      state.recorded fileId = some (state.cache.objects object).modifiedAtTimestamp ∨
      UpToDate fileId (state.cache.objects object).modifiedAtTimestamp state.chunks

/-- `release` has assigned to the record of the file and not yet begun to
invalidate its chunks. -/
def Edit.Updating (fileId : Str) : Edit → Prop
  | .store other _ | .storing other _ | .invalidate other => other = fileId
  | .idle | .assign _ _ | .invalidating _ _ => False

/-- An invalidation of the file that a call waits for. -/
def State.Running (state : State γ) (fileId : Str) (index : Nat) : Prop :=
  state.holder = some (fileId, index) ∨
    ∃ edit, state.edits edit = .invalidating fileId index

/-- A task that has its answer from Drive now has it at the recorded time. -/
def FetchesOrderly (state : State γ) : Cache.Label (Stamped γ) → Prop
  | .task index weather =>
      ∀ task, state.chunks.tasks[index]? = some task → task.point = .requested →
        weather.storageFails = false → ∀ time, state.recorded task.fileId = some time →
          state.modified task.fileId = time
  | _ => True

/-- No exception ends an invalidation with a chunk of another time on disk,
unless a second invalidation has still to remove it. -/
def RemovesOrderly (state : State γ) (fileId : Str) (time index : Nat)
    (label : Cache.Label (Stamped γ)) : Prop :=
  StopsRemoval index state.chunks label →
    (freshLaw fileId (OfTime time)).OnDisk state.chunks ∨
      ∃ other, other ≠ index ∧ state.Running fileId other ∧
        Removing fileId (OfTime time) state.chunks other

/-- The discipline under which chunks and records stay together. -/
def Orderly (state : State γ) : Label γ → Prop
  | .load node _ =>
      StoresOrderly { state with cache := state.cache.allocate node } node.fileId
        state.cache.nextObject
  | .store edit _ =>
      ∀ fileId object, state.edits edit = .store fileId object →
        StoresOrderly state fileId object
  | .invalidate edit _ =>
      ∀ fileId time, state.edits edit = .invalidate fileId →
        state.recorded fileId = some time →
        NothingInFlight fileId (OfTime time) state.chunks
  | .read read =>
      ∀ call, state.pending read = some call →
        ∀ edit, ¬ (state.edits edit).Updating call.fileId
  | .chunks label =>
      FetchesOrderly state label ∧
        ∀ fileId time index, state.recorded fileId = some time →
          state.Running fileId index →
          (freshLaw fileId (OfTime time)).Taken state.chunks label ∧
            RemovesOrderly state fileId time index label
  | _ => True

/-- A file system that has just been mounted, over any disk cache. -/
structure Mounted (state : State γ) : Prop where
  cache : state.cache.nodeIdToMetadata = ∅
  holder : state.holder = none
  edits : ∀ edit, state.edits edit = .idle
  chunks : Booted state.chunks
  recorded : ∀ fileId, state.recorded fileId = none
  drive : ∀ fileId, AllFresh (OfTime (state.modified fileId)) (state.chunks.drive fileId)

/-- The recorded time of the file is the same after the step. -/
def Keeps (config : Config) (fileId : Str) (time : Nat) (state : State γ)
    (label : Label γ) : Prop :=
  ∀ next, step config state label = some next → next.recorded fileId = some time

/-- The reads of the file that began after `recorded` return bytes of the
recorded time only. -/
def CoherentReads (fileId : Str) (time : Nat) (recorded state : State γ) : Prop :=
  ∀ index call result, recorded.chunks.readers index = none →
    state.chunks.readers index = some ⟨call, .finished result⟩ →
    call.fileId = fileId → AllFresh (OfTime time) result

/-! ## The objects of the metadata cache -/

/-- What holds in every run: every object belongs to the file it is cached or
held for, the cached ones record the time recorded last, Drive's bytes are
stamped with Drive's modified times, and the chunk manager is in order. -/
structure Wired (config : Config) (state : State γ) : Prop where
  cached : ∀ fileId object, state.cache.nodeIdToMetadata.lookup fileId = some object →
    (state.cache.objects object).fileId = fileId ∧ object < state.cache.nextObject ∧
      state.recorded fileId = some (state.cache.objects object).modifiedAtTimestamp
  edits : ∀ edit fileId object,
    state.edits edit = .assign fileId object ∨ state.edits edit = .store fileId object →
    (state.cache.objects object).fileId = fileId ∧ object < state.cache.nextObject
  drive : ∀ fileId, AllFresh (OfTime (state.modified fileId)) (state.chunks.drive fileId)
  any : ∀ fileId, Upheld config (anyLaw fileId) (fun _ => True) nobody state.chunks

section Wired

variable {config : Config} {state next : State γ}

theorem Wired.allocate (wired : Wired config state) (node : DriveNodeMetadata) :
    Wired config { state with cache := state.cache.allocate node } := by
  have old {object : Nat} (known : object < state.cache.nextObject) :
      (state.cache.allocate node).objects object = state.cache.objects object :=
    Function.update_of_ne (Nat.ne_of_lt known) ..
  refine ⟨?_, ?_, wired.drive, wired.any⟩
  · intro fileId object found
    obtain ⟨same, known, recorded⟩ := wired.cached fileId object found
    change ((state.cache.allocate node).objects object).fileId = _ ∧ _ ∧
      _ = some ((state.cache.allocate node).objects object).modifiedAtTimestamp
    rw [old known]
    exact ⟨same, Nat.lt_succ_of_lt known, recorded⟩
  · intro edit fileId object point
    obtain ⟨same, known⟩ := wired.edits edit fileId object point
    change ((state.cache.allocate node).objects object).fileId = _ ∧ _
    rw [old known]
    exact ⟨same, Nat.lt_succ_of_lt known⟩

theorem Wired.record (wired : Wired config state) {fileId : Str} {object : Nat}
    (same : (state.cache.objects object).fileId = fileId)
    (known : object < state.cache.nextObject) :
    Wired config (state.record fileId object) := by
  refine ⟨?_, wired.edits, wired.drive, wired.any⟩
  intro other found present
  change (state.cache.nodeIdToMetadata.insert fileId object).lookup other = _ at present
  change _ ∧ _ ∧ Function.update state.recorded fileId _ other = _
  rw [Dict.lookup_insert_eq] at present
  rw [Function.update_apply]
  split at present
  · rename_i isFile
    cases present
    rw [if_pos isFile]
    exact ⟨isFile ▸ same, known, rfl⟩
  · rename_i different
    rw [if_neg different]
    exact wired.cached other found present

theorem Wired.chunks (wired : Wired config state) {label : Cache.Label (Stamped γ)}
    {chunks : Cache.State (Stamped γ)}
    (stepped : Cache.Stepped config state.chunks label chunks)
    (unchanged : ∀ fileId content, label ≠ .change fileId content) :
    Wired config { state with chunks := chunks } := by
  refine ⟨wired.cached, wired.edits, ?_, fun fileId => anyLaw_step (wired.any fileId) stepped⟩
  intro fileId
  change AllFresh _ (chunks.drive fileId)
  rw [stepped.drive_eq unchanged]
  exact wired.drive fileId

theorem Wired.stored (wired : Wired config state) {fileId : Str} {object index : Nat}
    {changed : Bool} (same : (state.cache.objects object).fileId = fileId)
    (known : object < state.cache.nextObject)
    (stored : Stored config state fileId object index next changed) : Wired config next := by
  cases stored with
  | quiet free unchanged => exact wired.record same known
  | invalidates free changes invalidated =>
      have recorded := (wired.record same known).chunks invalidated (by simp)
      exact ⟨recorded.cached, recorded.edits, recorded.drive, recorded.any⟩

theorem Wired.setEdit (wired : Wired config state) (edit : Nat) {point : Edit}
    (owned : ∀ fileId object, point = .assign fileId object ∨ point = .store fileId object →
      (state.cache.objects object).fileId = fileId ∧ object < state.cache.nextObject) :
    Wired config (state.setEdit edit point) := by
  refine ⟨wired.cached, ?_, wired.drive, wired.any⟩
  intro other fileId object isPoint
  change Function.update state.edits edit point other = _ ∨
    Function.update state.edits edit point other = _ at isPoint
  rw [Function.update_apply] at isPoint
  split at isPoint
  · exact owned fileId object isPoint
  · exact wired.edits other fileId object isPoint

theorem Wired.assign (wired : Wired config state) {fileId : Str} {object : Nat}
    (same : (state.cache.objects object).fileId = fileId) (size now : Nat) :
    Wired config (state.assign fileId object size now) := by
  have owner (other : Nat) : ((state.cache.assign object size now).objects other).fileId =
      (state.cache.objects other).fileId := by
    change (Function.update state.cache.objects object _ other).fileId = _
    rw [Function.update_apply]
    split
    · rename_i isObject
      rw [isObject]
    · rfl
  refine ⟨?_, ?_, wired.drive, wired.any⟩
  · intro other found present
    change state.cache.nodeIdToMetadata.lookup other = _ at present
    obtain ⟨isOther, known, recorded⟩ := wired.cached other found present
    refine ⟨(owner found).trans isOther, known, ?_⟩
    change (if _ then Function.update state.recorded fileId (some now) else state.recorded)
      other = some (Function.update state.cache.objects object _ found).modifiedAtTimestamp
    by_cases isObject : found = object
    · subst isObject
      have isFile : other = fileId := isOther.symm.trans same
      subst isFile
      rw [if_pos present, Function.update_self, Function.update_self]
    · rw [Function.update_of_ne isObject]
      by_cases isFile : other = fileId
      · subst isFile
        have notCached : state.cache.nodeIdToMetadata.lookup other ≠ some object := by
          rw [present]
          exact fun equal => isObject (Option.some.inj equal)
        rw [if_neg notCached]
        exact recorded
      · split
        · rw [Function.update_of_ne isFile]
          exact recorded
        · exact recorded
  · intro edit other found point
    obtain ⟨isOther, known⟩ := wired.edits edit other found point
    exact ⟨(owner found).trans isOther, known⟩

theorem Wired.step (wired : Wired config state) {label : Label γ}
    (stepped : Stepped config state label next) : Wired config next := by
  cases stepped with
  | @load node index next changed stored =>
      have self : (state.cache.allocate node).objects state.cache.nextObject = node :=
        Function.update_self ..
      refine (wired.allocate node).stored ?_ (Nat.lt_succ_self _) stored
      rw [self]
  | unlock _ _ => exact ⟨wired.cached, wired.edits, wired.drive, wired.any⟩
  | @expire fileId =>
      refine ⟨?_, wired.edits, wired.drive, wired.any⟩
      intro other object found
      change (state.cache.nodeIdToMetadata.erase fileId).lookup other = _ at found
      rw [Dict.lookup_erase_eq] at found
      split at found
      · cases found
      · exact wired.cached other object found
  | @release edit fileId object idle found =>
      refine wired.setEdit edit fun other held isPoint => ?_
      obtain ⟨same, known, -⟩ := wired.cached fileId object found
      rcases isPoint with isAssign | isStore
      · cases isAssign
        exact ⟨same, known⟩
      · cases isStore
  | releaseUnrecorded _ _ | stored _ _ | released _ _ =>
      exact wired.setEdit _ (by simp)
  | @assign edit size now fileId object point =>
      obtain ⟨same, known⟩ := wired.edits edit fileId object (Or.inl point)
      have assigned := wired.assign same size now
      refine assigned.setEdit edit fun other held isPoint => ?_
      rcases isPoint with isAssign | isStore
      · cases isAssign
      · cases isStore
        refine ⟨?_, known⟩
        change (Function.update state.cache.objects object _ object).fileId = _
        rw [Function.update_self]
        exact same
  | @store edit index fileId object next changed point stored =>
      obtain ⟨same, known⟩ := wired.edits edit fileId object (Or.inr point)
      refine (wired.stored same known stored).setEdit edit ?_
      cases changed <;> simp
  | invalidate point invalidated =>
      exact (wired.chunks invalidated (by simp)).setEdit _ (by simp)
  | stat _ _ => exact ⟨wired.cached, wired.edits, wired.drive, wired.any⟩
  | read pending begun =>
      have chunks := wired.chunks begun (by simp)
      exact ⟨chunks.cached, chunks.edits, chunks.drive, chunks.any⟩
  | chunks internal moved =>
      refine wired.chunks moved ?_
      rintro fileId content rfl
      cases internal
  | @change fileId content modified chunks changed =>
      refine ⟨wired.cached, wired.edits, ?_,
        fun other => anyLaw_step (wired.any other) changed⟩
      cases changed with
      | change =>
          intro other
          change AllFresh (OfTime (Function.update state.modified fileId modified other))
            (Function.update state.chunks.drive fileId _ other)
          rw [Function.update_apply, Function.update_apply]
          split
          · intro byte member
            obtain ⟨_, -, rfl⟩ := List.mem_map.mp member
            rfl
          · exact wired.drive other

end Wired

/-! ## What protects a file -/

/-- Outside the disk cache everything has the recorded time, and on disk too
unless a running invalidation has still to remove it. -/
def Covered (config : Config) (fileId : Str) (time : Nat) (followed : Nat → Prop)
    (state : State γ) : Prop :=
  ∃ counted, Upheld config (freshLaw fileId (OfTime time)) counted followed state.chunks ∧
    ((freshLaw fileId (OfTime time)).OnDisk state.chunks ∨
      ∃ index, state.Running fileId index ∧
        Removing fileId (OfTime time) state.chunks index)

/-- None of the followed reads is a read of the file. -/
def NoneFollowed (fileId : Str) (followed : Nat → Prop)
    (chunks : Cache.State (Stamped γ)) : Prop :=
  ∀ index reader, followed index → chunks.readers index = some reader →
    reader.call.fileId ≠ fileId

/-- The file is covered, or `release` is about to invalidate it and no followed
read of it has begun. -/
def Guarded (config : Config) (fileId : Str) (time : Nat) (followed : Nat → Prop)
    (state : State γ) : Prop :=
  Covered config fileId time followed state ∨
    (∃ edit, (state.edits edit).Updating fileId) ∧
      NoneFollowed fileId followed state.chunks

section Guarded

variable {config : Config} {fileId : Str} {time : Nat} {followed : Nat → Prop}
  {state next : State γ}

theorem State.setEdit_running {edit index : Nat} {point : Edit}
    (elsewhere : state.edits edit ≠ .invalidating fileId index)
    (running : state.Running fileId index) :
    (state.setEdit edit point).Running fileId index := by
  rcases running with held | ⟨other, isPoint⟩
  · exact Or.inl held
  · right
    have different : other ≠ edit := by
      rintro rfl
      exact elsewhere isPoint
    exact ⟨other, (Function.update_of_ne different ..).trans isPoint⟩

theorem State.setEdit_updating {edit : Nat} {point : Edit}
    (kept : (state.edits edit).Updating fileId → point.Updating fileId)
    (updating : ∃ other, (state.edits other).Updating fileId) :
    ∃ other, ((state.setEdit edit point).edits other).Updating fileId := by
  obtain ⟨other, isUpdating⟩ := updating
  refine ⟨other, ?_⟩
  change (Function.update state.edits edit point other).Updating fileId
  rw [Function.update_apply]
  split
  · rename_i same
    exact kept (same ▸ isUpdating)
  · exact isUpdating

/-- A step that leaves the chunk manager alone may end the call of an
invalidation that is over. -/
theorem Covered.congr (covered : Covered config fileId time followed state)
    (same : next.chunks = state.chunks)
    (running : ∀ index, state.Running fileId index →
      next.Running fileId index ∨ state.chunks.invalidations index = .idle) :
    Covered config fileId time followed next := by
  obtain ⟨counted, upheld, disk⟩ := covered
  refine ⟨counted, same ▸ upheld, ?_⟩
  rcases disk with onDisk | ⟨index, isRunning, removing⟩
  · exact Or.inl (same ▸ onDisk)
  · rcases running index isRunning with still | ended
    · exact Or.inr ⟨index, still, same ▸ removing⟩
    · exact Or.inl (same ▸ removing.onDisk ended)

theorem Guarded.congr (guarded : Guarded config fileId time followed state)
    (same : next.chunks = state.chunks)
    (running : ∀ index, state.Running fileId index →
      next.Running fileId index ∨ state.chunks.invalidations index = .idle)
    (updating : (∃ edit, (state.edits edit).Updating fileId) →
      ∃ edit, (next.edits edit).Updating fileId) :
    Guarded config fileId time followed next := by
  rcases guarded with covered | ⟨isUpdating, none⟩
  · exact Or.inl (covered.congr same running)
  · exact Or.inr ⟨updating isUpdating, same ▸ none⟩

/-- A step ends the removal of one invalidation at most. -/
theorem stopsRemoval_unique {chunks : Cache.State (Stamped γ)} {left right : Nat}
    {label : Cache.Label (Stamped γ)} (isLeft : StopsRemoval left chunks label)
    (isRight : StopsRemoval right chunks label) : left = right := by
  cases label with
  | remove index => exact isLeft.1.symm.trans isRight.1
  | removeFails index => exact Eq.trans (Eq.symm isLeft) isRight
  | begin _ _ | reader _ _ | task _ _ | callback _ | invalidate _ _ | change _ _ =>
      exact isLeft.elim

theorem Covered.chunks (covered : Covered config fileId time followed state)
    {label : Cache.Label (Stamped γ)}
    (moved : Cache.Stepped config state.chunks label next.chunks)
    (served : (freshLaw fileId (OfTime time)).Served config state.chunks label)
    (taken : ∀ index, state.Running fileId index →
      (freshLaw fileId (OfTime time)).Taken state.chunks label ∧
        RemovesOrderly state fileId time index label)
    (running : ∀ index, state.Running fileId index → next.Running fileId index) :
    Covered config fileId time followed next := by
  obtain ⟨counted, upheld, disk⟩ := covered
  have isTaken : (freshLaw fileId (OfTime time)).Taken state.chunks label := by
    rcases disk with onDisk | ⟨index, isRunning, -⟩
    · exact onDisk.taken label
    · exact (taken index isRunning).1
  refine ⟨counted, upheld.step (freshLaw_closed config fileId _) served isTaken
    (freshLaw_begun fileId _ label) moved, ?_⟩
  rcases disk with onDisk | ⟨index, isRunning, removing⟩
  · exact Or.inl (upheld.onDisk_step onDisk moved)
  · by_cases stops : StopsRemoval index state.chunks label
    · rcases (taken index isRunning).2 stops with onDisk | ⟨other, different, runs, removes⟩
      · exact Or.inl (upheld.onDisk_step onDisk moved)
      · refine Or.inr ⟨other, running other runs, removes.step upheld (fun alsoStops => ?_) moved⟩
        exact absurd (stopsRemoval_unique alsoStops stops) different
    · exact Or.inr ⟨index, running index isRunning,
        removing.step upheld (fun isStop => absurd isStop stops) moved⟩

/-- An invalidation of the file begins with nothing of another time in
flight. -/
theorem covered_of_invalidate {index : Nat} (wired : Wired config state)
    (quiet : NothingInFlight fileId (OfTime time) state.chunks)
    (invalidated : Cache.Stepped config state.chunks (.invalidate index fileId) next.chunks)
    (running : next.Running fileId index)
    (none : NoneFollowed fileId followed next.chunks) :
    Covered config fileId time followed next := by
  generalize isChunks : next.chunks = chunks at invalidated none
  cases invalidated with
  | invalidate idle =>
      have upheld := quiet.upheld_invalidate idle (wired.any fileId)
      refine ⟨_, ⟨isChunks ▸ upheld.memory, isChunks ▸ upheld.tasks,
        isChunks ▸ upheld.active, isChunks ▸ upheld.later, ?_⟩, Or.inr ⟨index, running, ?_⟩⟩
      · rw [isChunks]
        intro other reader present file
        obtain ⟨total, point⟩ := upheld.readers other reader present file
        exact ⟨total, point.weaken fun isFollowed => none other reader isFollowed present file⟩
      · rw [isChunks]
        right
        left
        rw [State.setInvalidation_invalidations, if_pos rfl]

theorem NoneFollowed.step {chunks later : Cache.State (Stamped γ)}
    (none : NoneFollowed fileId followed chunks) {label : Cache.Label (Stamped γ)}
    (moved : Cache.Stepped config chunks label later)
    (other : ∀ index call, label = .begin index call → call.fileId ≠ fileId) :
    NoneFollowed fileId followed later := by
  intro index reader isFollowed present
  rcases moved.reader_of_next present with ⟨before, wasReader, sameCall⟩ | begun
  · exact sameCall ▸ none index before isFollowed wasReader
  · exact other index reader.call begun

theorem Guarded.chunks (guarded : Guarded config fileId time followed state)
    {label : Cache.Label (Stamped γ)}
    (moved : Cache.Stepped config state.chunks label next.chunks)
    (served : (freshLaw fileId (OfTime time)).Served config state.chunks label)
    (taken : ∀ index, state.Running fileId index →
      (freshLaw fileId (OfTime time)).Taken state.chunks label ∧
        RemovesOrderly state fileId time index label)
    (begun : (∃ edit, (state.edits edit).Updating fileId) →
      ∀ index call, label = .begin index call → call.fileId ≠ fileId)
    (running : ∀ index, state.Running fileId index → next.Running fileId index)
    (updating : (∃ edit, (state.edits edit).Updating fileId) →
      ∃ edit, (next.edits edit).Updating fileId) :
    Guarded config fileId time followed next := by
  rcases guarded with covered | ⟨isUpdating, none⟩
  · exact Or.inl (covered.chunks moved served taken running)
  · exact Or.inr ⟨updating isUpdating, none.step moved (begun isUpdating)⟩

theorem Guarded.setEdit (guarded : Guarded config fileId time followed state) {edit : Nat}
    {point : Edit}
    (ended : ∀ index, state.edits edit = .invalidating fileId index →
      state.chunks.invalidations index = .idle)
    (kept : (state.edits edit).Updating fileId → point.Updating fileId) :
    Guarded config fileId time followed (state.setEdit edit point) := by
  refine guarded.congr rfl (fun index running => ?_) (State.setEdit_updating kept)
  by_cases isPoint : state.edits edit = .invalidating fileId index
  · exact Or.inr (ended index isPoint)
  · exact Or.inl (State.setEdit_running isPoint running)

theorem Guarded.stored (guarded : Guarded config fileId time followed state) {otherId : Str}
    {object index : Nat} {changed : Bool}
    (stored : Stored config state otherId object index next changed) :
    Guarded config fileId time followed next := by
  cases stored with
  | quiet free unchanged => exact guarded.congr rfl (fun _ => Or.inl) id
  | invalidates free changes invalidated =>
      refine guarded.chunks invalidated trivial (fun _ _ => ⟨trivial, False.elim⟩)
        (fun _ => by simp) ?_ id
      rintro other (held | running)
      · rw [free] at held
        cases held
      · exact Or.inr running

/-- The fetches of an orderly run have the recorded time. -/
theorem served_of_orderly (wired : Wired config state)
    (recorded : state.recorded fileId = some time) {label : Cache.Label (Stamped γ)}
    (orderly : FetchesOrderly state label) :
    (freshLaw fileId (OfTime time)).Served config state.chunks label := by
  cases label with
  | task index weather =>
      intro task present answers file isPoint _ _
      have sameFile : task.fileId = fileId := file
      have current := orderly task present isPoint answers time (sameFile ▸ recorded)
      have drive := wired.drive task.fileId
      rw [current] at drive
      exact drive.slice _ _
  | begin _ _ | reader _ _ | callback _ | invalidate _ _ | remove _ | removeFails _
  | change _ _ => trivial

/-- An orderly step keeps a file guarded. -/
theorem Guarded.step (guarded : Guarded config fileId time followed state)
    (wired : Wired config state) (recorded : state.recorded fileId = some time)
    {label : Label γ} (orderly : Orderly state label)
    (stepped : Stepped config state label next) :
    Guarded config fileId time followed next := by
  cases stepped with
  | @load node index next changed stored =>
      have allocated : Guarded config fileId time followed
          { state with cache := state.cache.allocate node } := guarded
      exact allocated.stored stored
  | @unlock heldId held isHeld ended =>
      refine guarded.congr rfl ?_ id
      rintro index (isIndex | running)
      · rw [isHeld] at isIndex
        cases isIndex
        exact Or.inr ended
      · exact Or.inl (Or.inr running)
  | expire | stat _ _ => exact guarded.congr rfl (fun _ => Or.inl) id
  | release idle _ | releaseUnrecorded idle _ =>
      refine guarded.setEdit ?_ ?_
      · simp [idle]
      · rw [idle]
        exact False.elim
  | @assign edit size now otherId object point =>
      have assigned : Guarded config fileId time followed
          (state.assign otherId object size now) := guarded
      refine assigned.setEdit ?_ ?_
      · change ∀ index, state.edits edit = _ → _
        simp [point]
      · change (state.edits edit).Updating fileId → _
        rw [point]
        exact False.elim
  | @store edit index otherId object next changed point stored =>
      have sameEdits : next.edits = state.edits := by cases stored <;> rfl
      refine (guarded.stored stored).setEdit ?_ ?_
      · rw [sameEdits, point]
        exact nofun
      · rw [sameEdits, point]
        cases changed <;> exact id
  | stored point returned =>
      refine guarded.setEdit ?_ ?_
      · simp [point]
      · rw [point]
        exact id
  | @invalidate edit index otherId chunks point invalidated =>
      have running (other : Nat) (isRunning : state.Running fileId other) :
          (State.setEdit { state with chunks := chunks } edit
            (.invalidating otherId index)).Running fileId other :=
        State.setEdit_running (by simp [point]) isRunning
      rcases guarded with covered | ⟨updating, none⟩
      · exact Or.inl (covered.chunks invalidated trivial
          (fun _ _ => ⟨trivial, False.elim⟩) running)
      · have later : NoneFollowed fileId followed chunks := none.step invalidated (by simp)
        by_cases same : otherId = fileId
        · subst same
          refine Or.inl (covered_of_invalidate wired ?_ invalidated ?_ later)
          · exact orderly otherId time point recorded
          · exact Or.inr ⟨edit, Function.update_self ..⟩
        · refine Or.inr ⟨?_, later⟩
          refine State.setEdit_updating ?_ updating
          change (state.edits edit).Updating fileId → _
          rw [point]
          exact fun isFile => absurd isFile same
  | @released edit otherId index point ended =>
      refine guarded.setEdit ?_ ?_
      · intro other isPoint
        rw [point] at isPoint
        cases isPoint
        exact ended
      · rw [point]
        exact False.elim
  | @read read call chunks pending begun =>
      refine guarded.chunks begun trivial (fun _ _ => ⟨trivial, False.elim⟩) ?_ (fun _ => id) id
      rintro ⟨edit, updating⟩ index other isBegin
      cases isBegin
      rintro rfl
      exact orderly call pending edit updating
  | @chunks label chunks internal moved =>
      refine guarded.chunks moved (served_of_orderly wired recorded orderly.1)
        (fun index => orderly.2 fileId time index recorded) (fun _ => ?_) (fun _ => id) id
      rintro index call rfl
      cases internal
  | change changed =>
      exact guarded.chunks changed trivial (fun _ _ => ⟨trivial, False.elim⟩)
        (fun _ => by simp) (fun _ => id) id

/-- A `set_metadata` call that finds an unexpired record and does not
invalidate repeats the time recorded last. -/
theorem Wired.recorded_of_unchanged (wired : Wired config state) {object : Nat}
    (unchanged : state.cache.changes fileId object = false)
    (unexpired : (state.cache.getMetadata fileId).isSome = true)
    (file : (state.cache.objects object).isDirectory = false) :
    state.recorded fileId = some (state.cache.objects object).modifiedAtTimestamp := by
  obtain ⟨node, isNode⟩ := Option.isSome_iff_exists.mp unexpired
  obtain ⟨old, found, isOld⟩ := Option.map_eq_some_iff.mp isNode
  rw [(wired.cached fileId old found).2.2, isOld]
  simpa [MemoryMetadataCache.changes, isNode, file] using unchanged

theorem covered_of_stored (wired : Wired config state) {otherId : Str} {object index : Nat}
    {changed : Bool} (orderly : StoresOrderly state otherId object)
    (stored : Stored config state otherId object index next changed)
    (recorded : next.recorded fileId = some time) (new : state.recorded fileId ≠ some time) :
    Covered config fileId time nobody next := by
  have same : fileId = otherId ∧
      (state.cache.objects object).modifiedAtTimestamp = time := by
    have isRecorded : Function.update state.recorded otherId
        (some (state.cache.objects object).modifiedAtTimestamp) fileId = some time := by
      cases stored <;> exact recorded
    rw [Function.update_apply] at isRecorded
    split at isRecorded
    · exact ⟨‹_›, Option.some.inj isRecorded⟩
    · exact absurd isRecorded new
  obtain ⟨rfl, isTime⟩ := same
  cases stored with
  | quiet free unchanged =>
      rw [StoresOrderly, if_neg (by simp [unchanged]), isTime] at orderly
      rcases orderly with ⟨unexpired, file⟩ | repeated | upToDate
      · rw [wired.recorded_of_unchanged unchanged unexpired file, isTime] at new
        exact absurd rfl new
      · exact absurd repeated new
      · exact ⟨_, upToDate.quiet.upheld upToDate.memory (wired.any fileId),
          Or.inl upToDate.disk⟩
  | invalidates free changes invalidated =>
      rw [StoresOrderly, if_pos changes, isTime] at orderly
      exact covered_of_invalidate wired orderly invalidated (Or.inl rfl) (fun _ _ => False.elim)

/-- When the recorded time of a file changes, the file is guarded for the new
one. -/
theorem guarded_of_recorded (wired : Wired config state) {label : Label γ}
    (orderly : Orderly state label) (stepped : Stepped config state label next)
    (recorded : next.recorded fileId = some time) (new : state.recorded fileId ≠ some time) :
    Guarded config fileId time nobody next := by
  cases stepped with
  | @load node index next changed stored =>
      exact Or.inl (covered_of_stored (wired.allocate node) orderly stored recorded new)
  | @store edit index otherId object next changed point stored =>
      have covered := covered_of_stored wired (orderly otherId object point) stored recorded new
      have sameEdits : next.edits = state.edits := by cases stored <;> rfl
      refine Guarded.setEdit (Or.inl covered) ?_ ?_
      · rw [sameEdits, point]
        exact nofun
      · rw [sameEdits, point]
        cases changed <;> exact id
  | @assign edit size now otherId object point =>
      have isFile : fileId = otherId := by
        by_contra different
        refine new (Eq.trans ?_ recorded)
        change state.recorded fileId = (if _ then _ else state.recorded) fileId
        split
        · exact (Function.update_of_ne different ..).symm
        · rfl
      refine Or.inr ⟨⟨edit, ?_⟩, fun _ _ => False.elim⟩
      change (Function.update state.edits edit (.store otherId object) edit).Updating fileId
      rw [Function.update_self]
      exact isFile.symm
  | unlock _ _ | expire | release _ _ | releaseUnrecorded _ _ | stored _ _ | invalidate _ _
  | released _ _ | stat _ _ | read _ _ | chunks _ _ | change _ => exact absurd recorded new

end Guarded

/-! ## Runs -/

section Runs

variable {config : Config} {fileId : Str} {time : Nat} {start recorded finish : State γ}

theorem Mounted.wired (mounted : Mounted start) : Wired config start := by
  refine ⟨?_, ?_, mounted.drive, mounted.chunks.upheld⟩
  · simp [mounted.cache]
  · simp [mounted.edits]

/-- Every file is guarded for the time recorded last. -/
structure Tended (config : Config) (state : State γ) : Prop where
  wired : Wired config state
  guarded : ∀ fileId time, state.recorded fileId = some time →
    Guarded config fileId time nobody state

theorem Mounted.tended (mounted : Mounted start) : Tended config start :=
  ⟨mounted.wired, by simp [mounted.recorded]⟩

theorem Tended.step {state next : State γ} (tended : Tended config state) {label : Label γ}
    (orderly : Orderly state label) (stepped : Stepped config state label next) :
    Tended config next := by
  refine ⟨tended.wired.step stepped, fun fileId time isRecorded => ?_⟩
  by_cases same : state.recorded fileId = some time
  · exact (tended.guarded fileId time same).step tended.wired same orderly stepped
  · exact guarded_of_recorded tended.wired orderly stepped isRecorded same

theorem Guarded.follow (guarded : Guarded config fileId time nobody recorded) :
    Guarded config fileId time (fun index => recorded.chunks.readers index = none)
      recorded := by
  rcases guarded with ⟨counted, upheld, disk⟩ | ⟨updating, -⟩
  · refine Or.inl ⟨counted, ⟨upheld.memory, upheld.tasks, upheld.active, upheld.later, ?_⟩,
      disk⟩
    intro index reader present file
    obtain ⟨total, point⟩ := upheld.readers index reader present file
    refine ⟨total, point.weaken fun unused => ?_⟩
    rw [present] at unused
    cases unused
  · exact Or.inr ⟨updating, fun index reader unused present =>
      absurd (present.symm.trans unused) nofun⟩

/-- While the recorded time stays, the reads that begin after `recorded` are
followed. -/
structure Following (config : Config) (fileId : Str) (time : Nat) (recorded state : State γ) :
    Prop where
  wired : Wired config state
  isRecorded : state.recorded fileId = some time
  guarded : Guarded config fileId time (fun index => recorded.chunks.readers index = none)
    state

theorem Following.coherentReads (following : Following config fileId time recorded finish) :
    CoherentReads fileId time recorded finish := by
  intro index call result unused present file
  rcases following.guarded with ⟨counted, upheld, -⟩ | ⟨-, none⟩
  · exact (upheld.readers index _ present file).2 unused
  · exact absurd file (none index _ unused present)

/-- In an orderly run, the reads of a file that begin after the metadata cache
has recorded a modified time, and return while it is the one recorded last,
return bytes of that time only. -/
theorem reads_coherent (mounted : Mounted start)
    (earlier : Reaches (step config) Orderly start recorded)
    (isRecorded : recorded.recorded fileId = some time)
    (later : Reaches (step config)
      (fun state label => Orderly state label ∧ Keeps config fileId time state label)
      recorded finish) :
    CoherentReads fileId time recorded finish := by
  have tended : Tended config recorded :=
    earlier.invariant (fun tended orderly taken => tended.step orderly (stepped_of_step taken))
      mounted.tended
  have following : Following config fileId time recorded finish := by
    refine later.invariant (fun {before label after} following allowed taken => ?_)
      ⟨tended.wired, isRecorded, (tended.guarded fileId time isRecorded).follow⟩
    have stepped := stepped_of_step taken
    exact ⟨following.wired.step stepped, allowed.2 after taken,
      following.guarded.step following.wired following.isRecorded allowed.1 stepped⟩
  exact following.coherentReads

end Runs

/-- A mount in front of a Drive with one file `f` of one byte, last modified at
time 1. -/
def mount : State Nat where
  cache := ⟨∅, fun _ => ⟨[], [], false, 0, 0⟩, 0⟩
  holder := none
  edits := fun _ => .idle
  pending := fun _ => none
  chunks := .empty 20 [⟨1, 1⟩]
  modified := fun _ => 1
  recorded := fun _ => none

/-- What Drive says about the file at a time. -/
def nodeAt (time : Nat) : DriveNodeMetadata := ⟨['f'], ['f'], false, 1, time⟩

/-- A read of the file that fetches its chunk after two prefetches. -/
def fetchingRead : List (Label Nat) :=
  .stat 0 ['f'] 0 1 :: .read 0 :: List.replicate 15 (.chunks (.reader 0 fairWeather)) ++
    List.replicate 11 (.chunks (.task 2 fairWeather)) ++
    List.replicate 2 (.chunks (.reader 0 fairWeather))

/-- A read of the file that finds the chunk in memory. -/
def cachedRead : List (Label Nat) :=
  .stat 1 ['f'] 0 1 :: .read 1 :: List.replicate 11 (.chunks (.reader 1 fairWeather))

theorem mount_mounted : Mounted mount where
  cache := rfl
  holder := rfl
  edits := fun _ => rfl
  chunks := ⟨rfl, rfl, fun _ => rfl⟩
  recorded := fun _ => rfl
  drive := by
    intro fileId byte member
    by_cases file : fileId = ['f']
    · simp_all [mount, Cache.State.empty, OfTime]
    · simp_all [mount, Cache.State.empty]

/-- A step of a read or of a download. -/
def reads : Label γ → Bool
  | .stat _ _ _ _ | .read _ | .chunks (.reader _ _) | .chunks (.task _ _) => true
  | _ => false

theorem reading_frame {config : Config} {state next : State γ} {label : Label γ}
    (reading : reads label = true) (taken : step config state label = some next) :
    next.edits = state.edits ∧ next.holder = state.holder ∧
      next.modified = state.modified ∧ next.recorded = state.recorded := by
  have stepped := stepped_of_step taken
  cases stepped with
  | stat _ _ | read _ _ | chunks _ _ => exact ⟨rfl, rfl, rfl, rfl⟩
  | load _ | unlock _ _ | expire | release _ _ | releaseUnrecorded _ _ | assign _
  | store _ _ | stored _ _ | invalidate _ _ | released _ _ | change _ => cases reading

/-- Whatever was recorded, reading keeps it. -/
theorem reading_keeps {config : Config} {state : State γ} {labels : List (Label γ)}
    {fileId : Str} {time : Nat} (reading : ∀ label ∈ labels, reads label = true)
    (recorded : state.recorded fileId = some time) :
    AllowedAlong (step config) (Keeps config fileId time) state labels := by
  refine AllowedAlong.of_invariant (fun state => state.recorded fileId = some time) recorded ?_
  intro label member state isRecorded
  have kept (next : State γ) (taken : step config state label = some next) :
      next.recorded fileId = some time := by
    rw [(reading_frame (reading label member) taken).2.2.2]
    exact isRecorded
  exact ⟨kept, kept⟩

/-- No call holds the lock of the metadata cache or is in `release`, and Drive
has what is recorded. -/
structure Resting (state : State γ) : Prop where
  edits : ∀ edit, state.edits edit = .idle
  holder : state.holder = none
  current : ∀ fileId time, state.recorded fileId = some time → state.modified fileId = time

theorem Resting.orderly {state : State γ} (resting : Resting state) {label : Label γ}
    (reading : reads label = true) : Orderly state label := by
  cases label with
  | stat _ _ _ _ => trivial
  | read _ =>
      intro call _ edit
      rw [resting.edits edit]
      exact id
  | chunks label =>
      refine ⟨?_, ?_⟩
      · cases label with
        | task index weather =>
            exact fun task _ _ _ time recorded => resting.current task.fileId time recorded
        | begin _ _ | reader _ _ | callback _ | invalidate _ _ | remove _ | removeFails _
        | change _ _ => trivial
      · rintro fileId time index _ (held | ⟨edit, running⟩)
        · rw [resting.holder] at held
          cases held
        · rw [resting.edits edit] at running
          cases running
  | load _ _ | unlock | expire _ | release _ _ | assign _ _ _ | store _ _ | stored _
  | invalidate _ _ | released _ | change _ _ _ => cases reading

theorem Resting.along {config : Config} {state : State γ} {labels : List (Label γ)}
    {fileId : Str} {time : Nat} (resting : Resting state)
    (recorded : state.recorded fileId = some time)
    (reading : ∀ label ∈ labels, reads label = true) :
    AllowedAlong (step config)
      (fun state label => Orderly state label ∧ Keeps config fileId time state label) state
      labels := by
  refine AllowedAlong.of_invariant (fun state => Resting state ∧
    state.recorded fileId = some time) ⟨resting, recorded⟩ ?_
  intro label member before ⟨rests, isRecorded⟩
  have later (next : State γ) (taken : step config before label = some next) :
      Resting next ∧ next.recorded fileId = some time := by
    obtain ⟨edits, holder, modified, same⟩ := reading_frame (reading label member) taken
    refine ⟨⟨edits ▸ rests.edits, holder.trans rests.holder, ?_⟩, same ▸ isRecorded⟩
    rw [same, modified]
    exact rests.current
  exact ⟨⟨rests.orderly (reading label member), fun next taken => (later next taken).2⟩, later⟩

/-- The mount over a disk cache that has the file as it is. -/
def cachedMount : State Nat :=
  { mount with chunks := { mount.chunks with disk := AList.insert (['f'], 0) [⟨1, 1⟩] ∅ } }

/-- A directory load, a change on Drive, and a second load that finds the new
modified time. -/
def refreshing : List (Label Nat) :=
  [.load (nodeAt 1) 0, .change ['f'] [2] 2, .load (nodeAt 2) 0]

/-- The second load invalidates the chunk on disk and returns. -/
def clearing : List (Label Nat) :=
  [.chunks (.remove 0), .chunks (.remove 0), .chunks (.remove 0), .unlock]

theorem refreshing_orderly : AllowedAlong (step oneByte) Orderly cachedMount refreshing := by
  have booted : Booted cachedMount.chunks := ⟨rfl, rfl, fun _ => rfl⟩
  refine ⟨Or.inr (Or.inr ⟨booted.nothingInFlight, nofun, ?_⟩), fun listed first => ⟨trivial,
    fun changed second => ⟨?_, fun _ _ => trivial⟩⟩⟩
  · intro chunk data present
    change (AList.insert (['f'], 0) [⟨1, 1⟩] ∅ : Dict ChunkKey (List (Stamped Nat))).lookup _ = _
      at present
    rw [Dict.lookup_insert_eq] at present
    split at present
    · cases present
      intro byte member
      cases List.mem_singleton.mp member
      rfl
    · cases present
  · cases first
    cases second
    exact Booted.nothingInFlight ⟨rfl, rfl, fun _ => rfl⟩

theorem clearing_orderly {state : State Nat} (edits : ∀ edit, state.edits edit = .idle)
    (holder : state.holder = some (['f'], 0))
    (present : ∀ fileId chunk chunks, state.chunks.invalidations 0 =
      .removing fileId (chunk :: chunks) → state.chunks.disk.lookup (fileId, chunk) ≠ none) :
    Orderly state (.chunks (.remove 0)) := by
  refine ⟨trivial, fun fileId time index _ running => ⟨trivial, fun stops => ?_⟩⟩
  rcases running with held | ⟨edit, isPoint⟩
  · obtain ⟨-, other, chunk, chunks, removing, gone⟩ := stops
    rw [holder] at held
    cases held
    exact absurd gone (present other chunk chunks removing)
  · rw [edits edit] at isPoint
    cases isPoint

theorem reads_coherent_refreshed :
    ∃ recorded finish, run (step oneByte) cachedMount refreshing = some recorded ∧
      run (step oneByte) recorded (clearing ++ fetchingRead) = some finish ∧
      finish.chunks.readers 0 = some ⟨wholeFile, .finished [⟨2, 2⟩]⟩ ∧
      CoherentReads ['f'] 2 recorded finish := by
  have read : (run (step oneByte) cachedMount (refreshing ++ (clearing ++ fetchingRead))).map
      (·.chunks.readers 0) = some (some ⟨wholeFile, .finished [⟨2, 2⟩]⟩) := rfl
  obtain ⟨finish, executed, result⟩ := Option.map_eq_some_iff.mp read
  obtain ⟨recorded, isRecorded, later⟩ := run_append_eq_some.mp executed
  have along : AllowedAlong (step oneByte)
      (fun state label => Orderly state label ∧ Keeps oneByte ['f'] 2 state label) recorded
      (clearing ++ fetchingRead) := by
    cases isRecorded
    refine ⟨⟨clearing_orderly (fun _ => rfl) rfl nofun, ?_⟩, fun listed first => ?_⟩
    · intro next taken
      cases taken
      rfl
    cases first
    refine ⟨⟨clearing_orderly (fun _ => rfl) rfl ?_, ?_⟩, fun removed second => ?_⟩
    · intro fileId chunk chunks removing
      cases removing
      exact nofun
    · intro next taken
      cases taken
      rfl
    cases second
    refine ⟨⟨clearing_orderly (fun _ => rfl) rfl nofun, ?_⟩, fun ended third => ?_⟩
    · intro next taken
      cases taken
      rfl
    cases third
    refine ⟨⟨trivial, ?_⟩, fun unlocked last => ?_⟩
    · intro next taken
      cases taken
      rfl
    cases last
    refine Resting.along ⟨fun _ => rfl, rfl, ?_⟩ rfl (by decide)
    intro fileId time isRecorded
    change Function.update (Function.update (fun _ => none) ['f'] (some 1)) ['f'] (some 2) fileId =
      some time at isRecorded
    change Function.update (fun _ => 1) ['f'] 2 fileId = time
    by_cases file : fileId = ['f'] <;> simp_all
  have mounted : Mounted cachedMount :=
    ⟨rfl, rfl, fun _ => rfl, ⟨rfl, rfl, fun _ => rfl⟩, fun _ => rfl, mount_mounted.drive⟩
  exact ⟨recorded, finish, isRecorded, later, result, reads_coherent mounted
    (Reaches.of_run refreshing_orderly isRecorded) (look_of_run isRecorded (·.recorded ['f']) rfl)
    (Reaches.of_run along later)⟩

theorem reads_incoherent_after_expiry :
    ¬ ∀ (start recorded finish : State Nat) (time : Nat), Mounted start →
      Reaches (step oneByte) (fun _ _ => True) start recorded →
      recorded.recorded ['f'] = some time →
      Reaches (step oneByte) (Keeps oneByte ['f'] time) recorded finish →
      CoherentReads ['f'] time recorded finish := by
  intro holds
  have read : (run (step oneByte) mount
      ((.load (nodeAt 1) 0 :: fetchingRead ++
        [.expire ['f'], .change ['f'] [2] 2, .load (nodeAt 2) 0]) ++ cachedRead)).map
      (fun state => state.chunks.readers 1) =
      some (some ⟨wholeFile, .finished [⟨1, 1⟩]⟩) := rfl
  have stale : (run (step oneByte) mount
      (.load (nodeAt 1) 0 :: fetchingRead ++
        [.expire ['f'], .change ['f'] [2] 2, .load (nodeAt 2) 0])).map
      (fun state => (state.recorded ['f'], (state.chunks.readers 1).isNone)) =
      some (some 2, true) := rfl
  obtain ⟨finish, executed, result⟩ := Option.map_eq_some_iff.mp read
  obtain ⟨recorded, isRecorded, later⟩ := run_append_eq_some.mp executed
  rw [isRecorded] at stale
  obtain ⟨isTime, unused⟩ := Prod.mk.inj (Option.some.inj stale)
  have coherent := holds mount recorded finish 2 mount_mounted
    (Reaches.of_free_run isRecorded) isTime
    (Reaches.of_run (reading_keeps (by decide) isTime) later)
  have wrong := coherent 1 _ _ (Option.isNone_iff_eq_none.mp unused) result rfl ⟨1, 1⟩
    (by simp)
  cases wrong

end FuseDrive.Coherence
