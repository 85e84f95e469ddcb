import FuseDrive.Upload.OwnFate
import FuseDrive.Upload.Restart

/-!
# What is enqueued is delivered

While the storage accepts what it is sent for an id, and no
`enqueue_file_for_upload` call for the id starts during an attempt for it, an
entry of the id is pending, has its local file, and leaves the queue only when
the storage has the content enqueued last.  Other ids may do what they like.
-/

namespace FuseDrive.Upload

variable {γ : Type}

/-! ## The lock -/

/-- `UploadManager.lock` has one owner, a slot or the sweep of `__init__`. -/
structure Locking (state : State γ) : Prop where
  held : ∀ index, (state.slots index).holdsLock → state.locked = true
  alone : ∀ left right, (state.slots left).holdsLock → (state.slots right).holdsLock →
    left = right
  sweeping : ∀ fileIds, state.boot = .sweeping fileIds →
    state.locked = true ∧ ∀ index, ¬ (state.slots index).holdsLock

section Locking

variable {maxRetries : Nat} {state next : State γ} {index : Nat} {slot : Slot γ}

theorem Locking.free (locking : Locking state) (unlocked : state.locked = false) (other : Nat) :
    ¬ (state.slots other).holdsLock := by
  intro holds
  rw [locking.held other holds] at unlocked
  cases unlocked

theorem Locking.others (locking : Locking state) (holds : (state.slots index).holdsLock)
    {other : Nat} (different : other ≠ index) : ¬ (state.slots other).holdsLock :=
  fun alsoHolds => different (locking.alone other index alsoHolds holds)

theorem Locking.rest (locking : Locking state)
    (slots : ∀ other, next.slots other = if other = index then slot else state.slots other)
    (locked : next.locked = state.locked) (rests : ¬ slot.holdsLock)
    (boot : ∀ fileIds, next.boot = .sweeping fileIds → ∃ earlier, state.boot = .sweeping earlier) :
    Locking next := by
  have old (other : Nat) (holds : (next.slots other).holdsLock) :
      (state.slots other).holdsLock := by
    rw [slots] at holds
    split at holds
    · exact absurd holds rests
    · exact holds
  constructor
  · intro other holds
    rw [locked]
    exact locking.held other (old other holds)
  · exact fun left right holds alsoHolds => locking.alone left right (old left holds)
      (old right alsoHolds)
  · intro fileIds isSweeping
    obtain ⟨earlier, wasSweeping⟩ := boot fileIds isSweeping
    obtain ⟨isLocked, noSlot⟩ := locking.sweeping earlier wasSweeping
    exact ⟨locked.trans isLocked, fun other holds => noSlot other (old other holds)⟩

theorem Locking.hold (locking : Locking state)
    (slots : ∀ other, next.slots other = if other = index then slot else state.slots other)
    (locked : next.locked = true)
    (free : state.locked = false ∨ (state.slots index).holdsLock)
    (boot : ∀ fileIds, next.boot = .sweeping fileIds → ∃ earlier, state.boot = .sweeping earlier) :
    Locking next := by
  have others (other : Nat) (holds : (next.slots other).holdsLock) : other = index := by
    rw [slots] at holds
    split at holds
    · assumption
    · rcases free with unlocked | holding
      · exact absurd holds (locking.free unlocked other)
      · exact locking.alone other index holds holding
  constructor
  · exact fun _ _ => locked
  · exact fun left right holds alsoHolds => (others left holds).trans (others right alsoHolds).symm
  · intro fileIds isSweeping
    obtain ⟨earlier, wasSweeping⟩ := boot fileIds isSweeping
    obtain ⟨isLocked, noSlot⟩ := locking.sweeping earlier wasSweeping
    rcases free with unlocked | holding
    · rw [isLocked] at unlocked
      cases unlocked
    · exact absurd holding (noSlot index)

theorem Locking.release (locking : Locking state)
    (slots : ∀ other, next.slots other = if other = index then slot else state.slots other)
    (holding : (state.slots index).holdsLock) (rests : ¬ slot.holdsLock)
    (boot : next.boot = state.boot) : Locking next := by
  have none (other : Nat) : ¬ (next.slots other).holdsLock := by
    rw [slots]
    split
    · exact rests
    · exact locking.others holding ‹_›
  constructor
  · exact fun other holds => absurd holds (none other)
  · exact fun left right holds => absurd holds (none left)
  · intro fileIds isSweeping
    rw [boot] at isSweeping
    exact absurd holding ((locking.sweeping fileIds isSweeping).2 index)

theorem Locking.step (locking : Locking state) {label : Label}
    (stepped : Stepped maxRetries state label next) : Locking next := by
  have sameBoot {later : State γ} (same : later.boot = state.boot) (fileIds : List Str)
      (isSweeping : later.boot = .sweeping fileIds) :
      ∃ earlier, state.boot = .sweeping earlier := ⟨fileIds, same ▸ isSweeping⟩
  cases stepped with
  | @begin index call second content ready slot temp unlocked =>
      rw [State.enqueueBegin_eq]
      exact locking.hold (fun other => Function.update_apply ..) rfl (.inl unlocked)
        (sameBoot rfl)
  | moveRaises _ _ =>
      rw [State.removeOldFile_eq]
      exact ⟨locking.held, locking.alone, locking.sweeping⟩
  | @recover index uuid second name names call content boot parsed slot temp unlocked =>
      rw [State.enqueueBegin_eq]
      exact locking.hold (fun other => Function.update_apply ..) rfl (.inl unlocked) nofun
  | @move index call serial content safePath retries slot =>
      have holding : (state.slots index).holdsLock := by
        rw [slot]
        trivial
      rw [State.moveFile_eq]
      exact locking.hold (State.setSlot_slots _ index _) (locking.held index holding)
        (.inr holding) (sameBoot rfl)
  | @replace index call serial content safePath retries slot =>
      refine locking.release (State.setSlot_slots _ index _) ?_ id rfl
      rw [slot]
      trivial
  | @forget index fileId job content slot unlocked =>
      exact locking.hold (State.setSlot_slots _ index _) rfl (.inl unlocked) (sameBoot rfl)
  | @popRemoved index fileId job content slot =>
      refine locking.release (State.setSlot_slots _ index _) ?_ id rfl
      rw [slot]
      trivial
  | @popMissing index fileId job slot unlocked =>
      exact locking.rest (State.setSlot_slots _ index _) unlocked.symm id (sameBoot rfl)
  | @failRetry index fileId job content isFatal later slot unlocked handled
  | @failOver index fileId job content isFatal later slot unlocked handled =>
      rw [State.handleFailure_eq handled]
      exact locking.rest (State.setSlot_slots _ index _) rfl id (sameBoot rfl)
  | submit _ | pickNothing _ _ _ | pick _ _ _ _ | checkExists _ _ | checkMissing _ _
  | read _ _ | readVanished _ _ | replyAccepted _ | replyRejected _ | replyQuota _
  | fire _ =>
      exact locking.rest (State.setSlot_slots _ _ _) rfl id (sameBoot rfl)
  | @sweep index fileId fileIds boot slot =>
      exact locking.rest (State.setSlot_slots _ index _) rfl id fun _ _ => ⟨_, boot⟩
  | crash => exact ⟨nofun, nofun, nofun⟩
  | start off listed => exact ⟨locking.held, locking.alone, nofun⟩
  | recoverSkip boot parsed => exact ⟨locking.held, locking.alone, nofun⟩
  | recovered boot returned => exact ⟨locking.held, locking.alone, nofun⟩
  | resume boot unlocked =>
      exact ⟨fun _ _ => rfl, locking.alone, fun _ _ => ⟨rfl, locking.free unlocked⟩⟩
  | sweepDone boot =>
      have none := (locking.sweeping [] boot).2
      exact ⟨fun other holds => absurd holds (none other), locking.alone, nofun⟩

end Locking

/-! ## One id -/

/-- The storage has accepted last what was enqueued last. -/
def Uploaded (fileId : Str) (state : State γ) : Prop :=
  ∀ last, state.lastEnqueued fileId = some last →
    ∃ upload, state.lastAccepted fileId = some upload ∧ upload.origin = last

/-- `_remove_job` has deleted the local file of the id. -/
def Removing (fileId : Str) (state : State γ) : Prop :=
  ∃ index job content, state.slots index = .attempt fileId job (.removing content)

/-- No `enqueue_file_for_upload` call holds the lock for the id. -/
def NotEnqueuing (fileId : Str) (state : State γ) : Prop :=
  ∀ index, (state.slots index).enqueuing ≠ some fileId

/-- The slot is inside a call or an attempt for the id. -/
def Slot.touches (fileId : Str) (slot : Slot γ) : Prop :=
  slot.enqueuing = some fileId ∨ slot.attempting = some fileId

/-- What an attempt for the id knows at each point. -/
def PointServed (fileId : Str) (state : State γ) (job : Job γ) : AttemptPoint γ → Prop
  | .check | .read => True
  | .sent content => content = job.content
  | .missing | .success _ | .removing _ => Uploaded fileId state
  | .failure _ _ =>
      Uploaded fileId state ∧ (state.queue.lookup fileId = none ∨ Removing fileId state)

/-- The attempt works on what was enqueued last. -/
structure AttemptServed (fileId : Str) (state : State γ) (job : Job γ)
    (point : AttemptPoint γ) : Prop where
  newest : state.lastEnqueued fileId = some (job.origin fileId)
  path : ∀ entry, state.queue.lookup fileId = some entry → entry.path = job.path
  file : ∀ content, state.files.lookup job.path = some content → content = job.content
  point : PointServed fileId state job point

def SlotServed (fileId : Str) (state : State γ) : Slot γ → Prop
  | .enqueue call serial content (.move _ _) => call.fileId = fileId →
      state.lastEnqueued fileId = some (call.enqueued serial content)
  | .enqueue call serial content (.replace safePath _) => call.fileId = fileId →
      state.lastEnqueued fileId = some (call.enqueued serial content) ∧
        state.files.lookup safePath = some content
  | .attempt other job point => other = fileId → AttemptServed fileId state job point
  | _ => True

/-- The entry is what was enqueued last, with its local file. -/
structure EntryServed (fileId : Str) (state : State γ) (job : Job γ) : Prop where
  pending : job.status = .pending
  newest : state.lastEnqueued fileId = some (job.origin fileId)
  file : state.files.lookup job.path = some job.content ∨ Removing fileId state

structure Served (fileId : Str) (state : State γ) : Prop where
  apart : ∀ left right, (state.slots left).enqueuing = some fileId →
    (state.slots right).attempting ≠ some fileId
  slots : ∀ index, SlotServed fileId state (state.slots index)
  entry : ∀ job, state.queue.lookup fileId = some job → NotEnqueuing fileId state →
    EntryServed fileId state job
  gone : state.queue.lookup fileId = none → NotEnqueuing fileId state →
    Uploaded fileId state

/-- Every `enqueue_file_for_upload` call moves the file it was called for. -/
def Carried (state : State γ) : Prop :=
  ∀ index call serial content safePath retries,
    state.slots index = .enqueue call serial content (.move safePath retries) →
    state.files.lookup (.journal call.tempName) = some content

/-- The storage accepts what it is sent for the id, no call enqueues the id
during an attempt for it and none raises. -/
def Delivers (fileId : Str) (state : State γ) : Label → Prop
  | .begin _ call _ => call.fileId = fileId →
      ∀ index, (state.slots index).attempting ≠ some fileId
  | .reply index answer => (state.slots index).attempting = some fileId →
      ∃ nodeId, answer = .accepted nodeId
  | .moveRaises _ | .crash => False
  | _ => True

section Served

variable {maxRetries : Nat} {fileId : Str} {state next : State γ} {index : Nat} {slot : Slot γ}

theorem SlotServed.of_not_touches (untouched : ¬ slot.touches fileId) :
    SlotServed fileId state slot := by
  cases slot with
  | enqueue call serial content point =>
      cases point with
      | move safePath retries =>
          intro same
          exact absurd (Or.inl (congrArg some same)) untouched
      | replace safePath retries =>
          intro same
          exact absurd (Or.inl (congrArg some same)) untouched
      | submit => trivial
  | attempt other job point =>
      intro same
      exact absurd (Or.inr (congrArg some same)) untouched
  | free | queued _ | armed _ | done => trivial

/-- The state a slot is judged in matters only through what concerns the id. -/
theorem SlotServed.frame (served : SlotServed fileId state slot) (own : SlotPlaced slot)
    (queue : next.queue.lookup fileId = state.queue.lookup fileId)
    (files : ∀ second, next.files.lookup (.upload fileId second) =
      state.files.lookup (.upload fileId second))
    (enqueued : next.lastEnqueued fileId = state.lastEnqueued fileId)
    (uploaded : Uploaded fileId state → Uploaded fileId next)
    (removing : Removing fileId state → Removing fileId next) :
    SlotServed fileId next slot := by
  cases slot with
  | enqueue call serial content point =>
      cases point with
      | move safePath retries =>
          intro same
          rw [enqueued]
          exact served same
      | replace safePath retries =>
          intro same
          subst same
          obtain ⟨second, rfl⟩ := own
          rw [enqueued, files]
          exact served rfl
      | submit => trivial
  | attempt other job point =>
      intro same
      obtain ⟨second, isPath⟩ := own
      obtain ⟨newest, path, file, atPoint⟩ := served same
      have sameFile : next.files.lookup job.path = state.files.lookup job.path := by
        rw [isPath, same]
        exact files second
      refine ⟨enqueued.trans newest, ?_, ?_, ?_⟩
      · rw [queue]
        exact path
      · rw [sameFile]
        exact file
      · cases point with
        | missing | success _ | removing _ => exact uploaded atPoint
        | failure content isFatal =>
            refine ⟨uploaded atPoint.1, ?_⟩
            rw [queue]
            exact atPoint.2.imp_right removing
        | check | read | sent content => exact atPoint
  | free | queued _ | armed _ | done => trivial

/-- A step that keeps what concerns the id but for one slot, which neither
takes up a call for it nor drops one. -/
theorem Served.keep (served : Served fileId state) (placed : Placed state)
    (queue : next.queue.lookup fileId = state.queue.lookup fileId)
    (files : ∀ second, next.files.lookup (.upload fileId second) =
      state.files.lookup (.upload fileId second))
    (enqueued : next.lastEnqueued fileId = state.lastEnqueued fileId)
    (uploaded : Uploaded fileId state → Uploaded fileId next)
    (slots : ∀ other, next.slots other = if other = index then slot else state.slots other)
    (here : (Removing fileId state → Removing fileId next) → SlotServed fileId next slot)
    (calls : slot.enqueuing = some fileId ↔ (state.slots index).enqueuing = some fileId)
    (attempts : slot.attempting = some fileId → NotEnqueuing fileId state)
    (removing : ∀ job content, state.slots index = .attempt fileId job (.removing content) →
      slot = .attempt fileId job (.removing content)) : Served fileId next := by
  have sameCalls (other : Nat) : (next.slots other).enqueuing = some fileId ↔
      (state.slots other).enqueuing = some fileId := by
    rw [slots]
    split
    · rename_i isIndex
      rw [isIndex]
      exact calls
    · rfl
  have stillRemoving : Removing fileId state → Removing fileId next := by
    rintro ⟨other, job, content, isRemoving⟩
    refine ⟨other, job, content, ?_⟩
    rw [slots]
    split
    · rename_i isIndex
      subst isIndex
      exact removing job content isRemoving
    · exact isRemoving
  have quiet (notEnqueuing : NotEnqueuing fileId next) : NotEnqueuing fileId state :=
    fun other enqueuing => notEnqueuing other ((sameCalls other).mpr enqueuing)
  constructor
  · intro left right enqueuing attempting
    have wasEnqueuing := (sameCalls left).mp enqueuing
    rw [slots] at attempting
    split at attempting
    · exact attempts attempting left wasEnqueuing
    · exact served.apart left right wasEnqueuing attempting
  · intro other
    rw [slots]
    split
    · exact here stillRemoving
    · exact (served.slots other).frame (placed.slots other) queue files enqueued uploaded
        stillRemoving
  · intro job present notEnqueuing
    rw [queue] at present
    obtain ⟨pending, newest, file⟩ := served.entry job present (quiet notEnqueuing)
    refine ⟨pending, enqueued.trans newest, ?_⟩
    obtain ⟨second, isPath⟩ := placed.queue fileId job present
    rw [isPath, files, ← isPath]
    exact file.imp_right stillRemoving
  · intro absent notEnqueuing
    rw [queue] at absent
    exact uploaded (served.gone absent (quiet notEnqueuing))

theorem Served.frame (served : Served fileId state) (placed : Placed state)
    (same : SameFor fileId state next)
    (slots : ∀ other, next.slots other = if other = index then slot else state.slots other)
    (old : ¬ (state.slots index).touches fileId) (new : ¬ slot.touches fileId) :
    Served fileId next := by
  apply served.keep placed same.queue same.files same.enqueued ?_ slots
    (fun _ => .of_not_touches new)
  · constructor
    · exact fun enqueuing => absurd (Or.inl enqueuing) new
    · exact fun enqueuing => absurd (Or.inl enqueuing) old
  · exact fun attempting => absurd (Or.inr attempting) new
  · intro job content isRemoving
    rw [isRemoving] at old
    exact absurd (Or.inr rfl) old
  · intro uploaded
    rw [Uploaded, same.enqueued, same.accepted]
    exact uploaded

/-- Under the lock of one slot no other slot is inside a call. -/
theorem Locking.notEnqueuing (locking : Locking state) (holds : (state.slots index).holdsLock)
    {other : Nat} (different : other ≠ index) : (state.slots other).enqueuing ≠ some fileId :=
  fun enqueuing =>
    locking.others holds different (Slot.holdsLock_of_enqueuing enqueuing)

theorem Locking.quiet (locking : Locking state) (unlocked : state.locked = false) :
    NotEnqueuing fileId state :=
  fun other enqueuing => locking.free unlocked other (Slot.holdsLock_of_enqueuing enqueuing)

/-- While a call is at work on the id nobody else is. -/
theorem Served.alone (served : Served fileId state) (locking : Locking state)
    (enqueuing : (state.slots index).enqueuing = some fileId) {other : Nat}
    (different : other ≠ index) : ¬ (state.slots other).touches fileId := by
  rintro (alsoEnqueuing | attempting)
  · exact locking.notEnqueuing (Slot.holdsLock_of_enqueuing enqueuing) different alsoEnqueuing
  · exact served.apart index other enqueuing attempting

theorem Served.begin (locking : Locking state) {call : EnqueueCall} {second : Nat} {content : γ}
    (same : call.fileId = fileId) (unlocked : state.locked = false)
    (noAttempt : ∀ other, (state.slots other).attempting ≠ some fileId) :
    Served fileId (state.enqueueBegin index call second content) := by
  have newest : (state.enqueueBegin index call second content).lastEnqueued fileId =
      some (call.enqueued state.nextSerial content) := by
    rw [lastEnqueued_cons state (enqueueBegin_enqueued state index call second content)]
    exact if_pos same
  have slots := state.enqueueBegin_slots index call second content
  have untouched (other : Nat) : ¬ (state.slots other).touches fileId := by
    rintro (enqueuing | attempting)
    · exact locking.quiet unlocked other enqueuing
    · exact noAttempt other attempting
  have busy : ¬ NotEnqueuing fileId (state.enqueueBegin index call second content) := by
    intro notEnqueuing
    apply notEnqueuing index
    rw [slots, if_pos rfl]
    exact congrArg some same
  constructor
  · intro left right _ attempting
    rw [slots] at attempting
    split at attempting
    · cases attempting
    · exact noAttempt right attempting
  · intro other
    rw [slots]
    split
    · exact fun _ => newest
    · exact .of_not_touches (untouched other)
  · exact fun _ _ notEnqueuing => absurd notEnqueuing busy
  · exact fun _ notEnqueuing => absurd notEnqueuing busy

theorem Served.move (served : Served fileId state) (locking : Locking state)
    (carried : Carried state) {call : EnqueueCall} {serial retries : Nat} {content : γ}
    {safePath : LocalPath} (same : call.fileId = fileId)
    (isSlot : state.slots index = .enqueue call serial content (.move safePath retries)) :
    Served fileId ((state.moveFile (.journal call.tempName) safePath).setSlot index
      (.enqueue call serial content (.replace safePath retries))) := by
  have enqueuing : (state.slots index).enqueuing = some fileId := by
    rw [isSlot]
    exact congrArg some same
  have newest := served.slots index
  rw [isSlot] at newest
  have moved : (state.moveFile (.journal call.tempName) safePath).files.lookup safePath =
      some content := by
    rw [State.moveFile_lookup (carried index _ _ _ _ _ isSlot), if_pos rfl]
  rw [State.moveFile_eq]
  constructor
  · intro left right _ attempting
    rw [State.setSlot_slots] at attempting
    split at attempting
    · cases attempting
    · exact served.apart index right enqueuing attempting
  · intro other
    rw [State.setSlot_slots]
    split
    · exact fun _ => ⟨newest same, moved⟩
    · exact .of_not_touches (served.alone locking enqueuing ‹_›)
  · intro job present notEnqueuing
    refine absurd ?_ (notEnqueuing index)
    rw [State.setSlot_slots_self]
    exact congrArg some same
  · intro absent notEnqueuing
    refine absurd ?_ (notEnqueuing index)
    rw [State.setSlot_slots_self]
    exact congrArg some same

theorem Served.replace (served : Served fileId state) (locking : Locking state)
    {call : EnqueueCall} {serial retries : Nat} {content : γ}
    {safePath : LocalPath} (same : call.fileId = fileId)
    (isSlot : state.slots index = .enqueue call serial content (.replace safePath retries)) :
    Served fileId ((state.enqueueReplace call serial content safePath retries).setSlot index
      (.enqueue call serial content .submit)) := by
  have enqueuing : (state.slots index).enqueuing = some fileId := by
    rw [isSlot]
    exact congrArg some same
  have called := served.slots index
  rw [isSlot] at called
  obtain ⟨newest, file⟩ := called same
  have entry : ((state.enqueueReplace call serial content safePath retries).setSlot index
      (.enqueue call serial content .submit)).queue.lookup fileId =
        some (State.newJob call serial content safePath retries) := by
    change (state.queue.insert call.fileId _).lookup fileId = _
    rw [Dict.lookup_insert_eq, if_pos same.symm]
  have untouched (other : Nat) : ¬ ((state.setSlot index
      (.enqueue call serial content .submit)).slots other).touches fileId := by
    rw [State.setSlot_slots]
    split
    · rintro (impossible | impossible)
      · cases impossible
      · cases impossible
    · exact served.alone locking enqueuing ‹_›
  constructor
  · exact fun left right enqueuing => absurd (Or.inl enqueuing) (untouched left)
  · exact fun other => .of_not_touches (untouched other)
  · intro job present _
    rw [entry, Option.some.injEq] at present
    subst present
    refine ⟨rfl, ?_, .inl file⟩
    subst same
    exact newest
  · intro absent
    rw [entry] at absent
    cases absent

theorem Served.of_unknown (absent : state.queue.lookup fileId = none)
    (untouched : ∀ index, ¬ (state.slots index).touches fileId)
    (never : state.lastEnqueued fileId = none) : Served fileId state where
  apart := fun left _ enqueuing => absurd (Or.inl enqueuing) (untouched left)
  slots := fun index => .of_not_touches (untouched index)
  entry := by
    intro job present
    rw [absent] at present
    cases present
  gone := by
    intro _ _ last isLast
    rw [never] at isLast
    cases isLast

theorem Served.setFiles (served : Served fileId state) (placed : Placed state)
    {files : Dict LocalPath γ}
    (same : ∀ second, files.lookup (.upload fileId second) =
      state.files.lookup (.upload fileId second)) :
    Served fileId { state with files := files } := by
  refine ⟨served.apart, fun index => ?_, fun job present quiet => ?_, served.gone⟩
  · exact (served.slots index).frame (placed.slots index) rfl same rfl id id
  · obtain ⟨pending, newest, file⟩ := served.entry job present quiet
    obtain ⟨second, isPath⟩ := placed.queue fileId job present
    refine ⟨pending, newest, file.imp_left fun whole => ?_⟩
    change files.lookup job.path = _
    rw [isPath, same, ← isPath]
    exact whole

theorem Served.pick (served : Served fileId state) (placed : Placed state)
    (locking : Locking state) {other : Str} {job : Job γ}
    (isSlot : state.slots index = .queued other) (unlocked : state.locked = false)
    (entry : state.queue.lookup other = some job) :
    Served fileId (state.setSlot index (.attempt other job .check)) := by
  have quiet : NotEnqueuing fileId state := locking.quiet unlocked
  refine served.keep placed rfl (fun _ => rfl) rfl id (State.setSlot_slots state index _)
    ?_ ?_ ?_ ?_
  · intro _ same
    subst same
    obtain ⟨pending, newest, file⟩ := served.entry job entry quiet
    refine ⟨newest, ?_, ?_, trivial⟩
    · intro found present
      have wasPresent : state.queue.lookup other = some found := present
      rw [entry, Option.some.injEq] at wasPresent
      rw [wasPresent]
    · intro content present
      rcases file with whole | ⟨index, found, removed, isRemoving⟩
      · exact Option.some.inj (present.symm.trans whole)
      · refine absurd ?_ (locking.free unlocked index)
        rw [isRemoving]
        trivial
  · rw [isSlot]
    exact Iff.rfl
  · exact fun _ => quiet
  · intro found content isRemoving
    rw [isSlot] at isRemoving
    cases isRemoving

theorem Served.advance (served : Served fileId state) (placed : Placed state) {other : Str}
    {job : Job γ} {point later : AttemptPoint γ}
    (isSlot : state.slots index = .attempt other job point)
    (notRemoving : ∀ content, point ≠ .removing content)
    (atLater : other = fileId → PointServed fileId state job later) :
    Served fileId (state.setSlot index (.attempt other job later)) := by
  have own := placed.slots index
  have here := served.slots index
  rw [isSlot] at own here
  have atState : SlotServed fileId state (.attempt other job later) := fun same =>
    ⟨(here same).newest, (here same).path, (here same).file, atLater same⟩
  refine served.keep placed rfl (fun _ => rfl) rfl id (State.setSlot_slots state index _)
    ?_ ?_ ?_ ?_
  · exact fun removing => atState.frame own rfl (fun _ => rfl) rfl id removing
  · rw [isSlot]
    exact Iff.rfl
  · intro attempting index' enqueuing
    refine served.apart index' index enqueuing ?_
    rw [isSlot]
    exact attempting
  · intro found content isRemoving
    rw [isSlot] at isRemoving
    cases isRemoving
    exact absurd rfl (notRemoving content)

/-- A local file is missing only when its content is with the storage. -/
theorem Served.uploaded_of_missing (served : Served fileId state) {job : Job γ}
    {point : AttemptPoint γ} (isSlot : state.slots index = .attempt fileId job point)
    (missing : state.files.lookup job.path = none) :
    Uploaded fileId state ∧ (state.queue.lookup fileId = none ∨ Removing fileId state) := by
  have here := served.slots index
  rw [isSlot] at here
  have quiet : NotEnqueuing fileId state := by
    intro other enqueuing
    apply served.apart other index enqueuing
    rw [isSlot]
    rfl
  cases entry : state.queue.lookup fileId with
  | none => exact ⟨served.gone entry quiet, .inl rfl⟩
  | some found =>
      rcases (served.entry found entry quiet).file with whole | removing
      · rw [(here rfl).path found entry, missing] at whole
        cases whole
      · obtain ⟨other, otherJob, content, isRemoving⟩ := removing
        have there := served.slots other
        rw [isRemoving] at there
        exact ⟨(there rfl).point, .inr ⟨other, otherJob, content, isRemoving⟩⟩

theorem Served.accept (served : Served fileId state) (placed : Placed state) {other nodeId : Str}
    {job : Job γ} {content : γ} (isSlot : state.slots index = .attempt other job (.sent content)) :
    Served fileId ((state.recordAccepted other nodeId job content).setSlot index
      (.attempt other job (.success content))) := by
  have here := served.slots index
  rw [isSlot] at here
  have newer := lastAccepted_cons state
    (recordAccepted_accepted state other nodeId job content) fileId
  have own (same : other = fileId) :
      Uploaded fileId (state.recordAccepted other nodeId job content) := by
    intro last isLast
    have newest : state.lastEnqueued fileId = some last := isLast
    rw [(here same).newest, Option.some.injEq] at newest
    rw [newer, if_pos same]
    have sent : content = job.content := (here same).point
    subst same sent newest
    exact ⟨_, rfl, rfl⟩
  have recorded : Served fileId (state.recordAccepted other nodeId job content) := by
    refine @Served.keep _ _ state _ index (state.slots index) served placed rfl (fun _ => rfl)
      rfl ?_ ?_ ?_ ?_ ?_ ?_
    · intro uploaded last isLast
      by_cases same : other = fileId
      · exact own same last isLast
      · rw [newer, if_neg same]
        exact uploaded last isLast
    · intro found
      split
      · rename_i isIndex
        rw [isIndex]
        rfl
      · rfl
    · intro removing
      rw [isSlot]
      exact fun same => ⟨(here same).newest, (here same).path, (here same).file,
        (here same).point⟩
    · exact Iff.rfl
    · intro attempting index' enqueuing
      exact served.apart index' index enqueuing attempting
    · exact fun _ _ isRemoving => isRemoving
  have stillPlaced : Placed (state.recordAccepted other nodeId job content) :=
    ⟨placed.queue, placed.saved, placed.slots⟩
  exact recorded.advance stillPlaced isSlot nofun own

/-- `_remove_job` is at work on an id whose content the storage has. -/
theorem Served.settle (served : Served fileId state) (quiet : NotEnqueuing fileId state)
    (slots : ∀ other, next.slots other = if other = index then slot else state.slots other)
    (here : SlotServed fileId next slot) (rests : slot.enqueuing ≠ some fileId)
    (enqueued : next.lastEnqueued fileId = state.lastEnqueued fileId)
    (uploaded : Uploaded fileId next)
    (queue : ∀ entry, next.queue.lookup fileId = some entry →
      state.queue.lookup fileId = some entry)
    (files : ∀ path content, next.files.lookup path = some content →
      state.files.lookup path = some content)
    (leaving : next.queue.lookup fileId = none ∨ Removing fileId next) :
    Served fileId next := by
  constructor
  · intro left right enqueuing
    rw [slots] at enqueuing
    split at enqueuing
    · exact absurd enqueuing rests
    · exact absurd enqueuing (quiet left)
  · intro other
    rw [slots]
    split
    · exact here
    · have there := served.slots other
      cases isOther : state.slots other with
      | attempt otherId job point =>
          rw [isOther] at there
          intro same
          obtain ⟨newest, path, file, atPoint⟩ := there same
          refine ⟨enqueued.trans newest, ?_, ?_, ?_⟩
          · exact fun entry present => path entry (queue entry present)
          · exact fun content present => file content (files _ content present)
          · cases point with
            | missing | success _ | removing _ => exact uploaded
            | failure _ _ => exact ⟨uploaded, leaving⟩
            | check | read | sent _ => exact atPoint
      | enqueue call serial content point =>
          apply SlotServed.of_not_touches
          rintro (enqueuing | impossible)
          · exact quiet other (isOther ▸ enqueuing)
          · cases impossible
      | free | queued _ | armed _ | done => trivial
  · intro entry present _
    obtain ⟨pending, newest, -⟩ := served.entry entry (queue entry present) quiet
    refine ⟨pending, enqueued.trans newest, .inr ?_⟩
    rcases leaving with absent | removing
    · rw [absent] at present
      cases present
    · exact removing
  · exact fun _ _ => uploaded

theorem Served.forget (served : Served fileId state) (placed : Placed state)
    (locking : Locking state) {other : Str} {job : Job γ} {content : γ}
    (isSlot : state.slots index = .attempt other job (.success content))
    (unlocked : state.locked = false) :
    Served fileId ({ state with
        locked := true
        files := state.files.erase job.path }.setSlot index
      (.attempt other job (.removing content))) := by
  have own := placed.slots index
  have here := served.slots index
  rw [isSlot] at own here
  obtain ⟨second, isPath⟩ := own
  have left {path : LocalPath} {found : γ}
      (present : (state.files.erase job.path).lookup path = some found) :
      state.files.lookup path = some found := by
    rw [Dict.lookup_erase_eq] at present
    split at present
    · cases present
    · exact present
  by_cases same : other = fileId
  · subst same
    refine served.settle (locking.quiet unlocked) (State.setSlot_slots _ index _) ?_ nofun rfl
      (here rfl).point (fun _ => id) (fun _ _ => left) (.inr ⟨index, job, content, ?_⟩)
    · refine fun _ => ⟨(here rfl).newest, (here rfl).path, ?_, (here rfl).point⟩
      exact fun found present => (here rfl).file found (left present)
    · exact State.setSlot_slots_self ..
  · refine served.frame placed ⟨rfl, fun third => ?_, rfl, rfl⟩
      (State.setSlot_slots _ index _) ?_ ?_
    · change (state.files.erase job.path).lookup _ = _
      rw [Dict.lookup_erase_eq, isPath, if_neg]
      intro isSame
      exact same (LocalPath.upload.inj isSame).1.symm
    · rw [isSlot]
      rintro (impossible | isSame)
      · cases impossible
      · exact same (Option.some.inj isSame)
    · rintro (impossible | isSame)
      · cases impossible
      · exact same (Option.some.inj isSame)

theorem Served.drop (served : Served fileId state) (placed : Placed state) {other : Str}
    {job : Job γ} {point : AttemptPoint γ} (isSlot : state.slots index = .attempt other job point)
    (uploaded : other = fileId → Uploaded fileId state) :
    Served fileId ((state.removeEntry other).setSlot index .done) := by
  have queue (entry : Str) : (state.removeEntry other).queue.lookup entry =
      if entry = other then none else state.queue.lookup entry := Dict.lookup_erase_eq ..
  by_cases same : other = fileId
  · subst same
    refine served.settle ?_ (State.setSlot_slots _ index _) trivial nofun rfl (uploaded rfl) ?_
      (fun _ _ => id) (.inl ?_)
    · intro third enqueuing
      apply served.apart third index enqueuing
      rw [isSlot]
      rfl
    · intro entry present
      rw [State.setSlot_queue, queue, if_pos rfl] at present
      cases present
    · rw [State.setSlot_queue, queue, if_pos rfl]
  · refine served.frame placed ⟨?_, fun _ => rfl, rfl, rfl⟩ (State.setSlot_slots _ index _) ?_ ?_
    · rw [State.setSlot_queue, queue, if_neg (Ne.symm same)]
    · rw [isSlot]
      rintro (impossible | isSame)
      · cases impossible
      · exact same (Option.some.inj isSame)
    · rintro (impossible | impossible)
      · cases impossible
      · cases impossible

theorem Served.fail (served : Served fileId state) (placed : Placed state)
    (locking : Locking state) {other : Str} {job : Job γ} {content : γ}
    {isFatal armed : Bool}
    (isSlot : state.slots index = .attempt other job (.failure content isFatal))
    (unlocked : state.locked = false)
    (handled : state.handleFailure maxRetries other isFatal = (next, armed))
    (untouched : ¬ slot.touches fileId) : Served fileId (next.setSlot index slot) := by
  have here := served.slots index
  rw [isSlot] at here
  have entries := State.handleFailure_lookup handled
  rw [State.handleFailure_eq handled]
  refine served.keep placed ?_ (fun _ => rfl) rfl id (State.setSlot_slots _ index _) ?_ ?_ ?_ ?_
  · change next.queue.lookup fileId = _
    rw [entries]
    split
    · rename_i same
      subst same
      rcases (here rfl).point.2 with absent | ⟨third, thirdJob, bytes, isRemoving⟩
      · rw [absent]
        rfl
      · refine absurd ?_ (locking.free unlocked third)
        rw [isRemoving]
        trivial
    · rfl
  · exact fun _ => .of_not_touches untouched
  · rw [isSlot]
    exact ⟨fun enqueuing => absurd (.inl enqueuing) untouched, nofun⟩
  · exact fun attempting => absurd (.inr attempting) untouched
  · rw [isSlot]
    intro found bytes impossible
    cases impossible

theorem Stepped.move_of_next {label : Label} (stepped : Stepped maxRetries state label next)
    {call : EnqueueCall} {serial retries : Nat} {content : γ} {safePath : LocalPath}
    (isSlot : next.slots index = .enqueue call serial content (.move safePath retries)) :
    state.slots index = .enqueue call serial content (.move safePath retries) ∨
      state.locked = false ∧ (∀ other, label ≠ .move other) ∧
        state.files.lookup (.journal call.tempName) = some content := by
  have old {other : Nat} {slot : Slot γ} {later : State γ} (slots : later.slots = state.slots)
      (moved : (later.setSlot other slot).slots index =
        .enqueue call serial content (.move safePath retries))
      (rests : ∀ path count, slot ≠ .enqueue call serial content (.move path count)) :
      state.slots index = .enqueue call serial content (.move safePath retries) := by
    rw [State.setSlot_slots] at moved
    split at moved
    · exact absurd moved (rests _ _)
    · rw [slots] at moved
      exact moved
  cases stepped with
  | @begin other newCall second bytes ready slot temp unlocked =>
      rw [State.enqueueBegin_slots] at isSlot
      split at isSlot
      · cases isSlot
        exact .inr ⟨unlocked, nofun, temp⟩
      · exact .inl isSlot
  | @recover other uuid second name names newCall bytes boot parsed slot temp unlocked =>
      have isOld := isSlot
      change (state.enqueueBegin other newCall second bytes).slots index = _ at isOld
      rw [State.enqueueBegin_slots] at isOld
      split at isOld
      · cases isOld
        exact .inr ⟨unlocked, nofun, temp⟩
      · exact .inl isOld
  | moveRaises _ _ =>
      rw [State.removeOldFile_eq] at isSlot
      exact .inl isSlot
  | move slot =>
      rw [State.moveFile_eq] at isSlot
      exact .inl (old rfl isSlot nofun)
  | failRetry slot unlocked handled | failOver slot unlocked handled =>
      rw [State.handleFailure_eq handled] at isSlot
      exact .inl (old rfl isSlot nofun)
  | replace _ | submit _ | pickNothing _ _ _ | pick _ _ _ _ | checkExists _ _
  | checkMissing _ _ | read _ _ | readVanished _ _ | replyAccepted _ | replyRejected _
  | replyQuota _ | forget _ _ | popRemoved _ | popMissing _ _ | fire _ | sweep _ _ =>
      exact .inl (old rfl isSlot nofun)
  | crash => cases isSlot
  | start _ _ | recoverSkip _ _ | recovered _ _ | resume _ _ | sweepDone _ => exact .inl isSlot

/-- Nobody else moves a file while a call is about to. -/
theorem Carried.step (carried : Carried state) (placed : Placed state) (locking : Locking state)
    {label : Label} (stepped : Stepped maxRetries state label next) : Carried next := by
  intro index call serial content safePath retries isSlot
  rcases stepped.move_of_next isSlot with was | ⟨unlocked, notMove, temp⟩
  · rcases placed.journal_kept stepped (carried _ _ _ _ _ _ was) with kept |
      ⟨other, otherCall, otherSerial, own, path, count, rfl, isOther, -⟩
    · exact kept
    · have holds : (state.slots index).holdsLock := by rw [was]; trivial
      have otherHolds : (state.slots other).holdsLock := by rw [isOther]; trivial
      have same := locking.alone index other holds otherHolds
      subst same
      cases stepped with
      | move slot =>
          rw [State.setSlot_slots_self] at isSlot
          cases isSlot
  · rcases placed.journal_kept stepped temp with kept | ⟨other, _, _, _, _, _, isMove, -⟩
    · exact kept
    · exact absurd isMove (notMove other)

/-- Whatever the threads of a running manager do. -/
theorem Served.step (served : Served fileId state) (placed : Placed state)
    (locking : Locking state) (carried : Carried state) (ready : state.boot = .ready)
    {label : Label} (delivers : Delivers fileId state label)
    (stepped : Stepped maxRetries state label next) : Served fileId next := by
  have idle (slot : Slot γ) (noCall : slot.enqueuing = none) (noAttempt : slot.attempting = none) :
      ¬ slot.touches fileId := by
    rintro (enqueuing | attempting)
    · rw [noCall] at enqueuing
      cases enqueuing
    · rw [noAttempt] at attempting
      cases attempting
  have called {slot : Slot γ} {other : Str} (different : other ≠ fileId)
      (isCall : slot.enqueuing = some other) (noAttempt : slot.attempting = none) :
      ¬ slot.touches fileId := by
    rintro (enqueuing | attempting)
    · exact different (Option.some.inj (isCall.symm.trans enqueuing))
    · rw [noAttempt] at attempting
      cases attempting
  cases stepped with
  | @begin index call second content _ slot temp unlocked =>
      by_cases same : call.fileId = fileId
      · exact Served.begin locking same unlocked (delivers same)
      · refine served.frame placed ⟨?_, ?_, ?_, ?_⟩ (state.enqueueBegin_slots index call second
          content) ?_ (called same rfl rfl)
        · rw [State.enqueueBegin_eq]
        · intro third
          rw [State.enqueueBegin_eq]
          change (state.removeOldFile call.fileId).files.lookup _ = _
          rw [State.removeOldFile_lookup, if_neg]
          intro isOld
          obtain ⟨old, entry, isPath⟩ := Option.map_eq_some_iff.mp isOld
          obtain ⟨oldSecond, isUpload⟩ := placed.queue _ old entry
          rw [isUpload] at isPath
          exact same (LocalPath.upload.inj isPath).1
        · rw [lastEnqueued_cons state (enqueueBegin_enqueued state index call second content)]
          exact if_neg same
        · rw [State.enqueueBegin_eq]
          rfl
        · rw [slot]
          exact idle _ rfl rfl
  | @move index call serial content safePath retries slot =>
      by_cases same : call.fileId = fileId
      · exact served.move locking carried same slot
      · have own := placed.slots index
        rw [slot] at own
        obtain ⟨second, isPath⟩ := own
        rw [State.moveFile_eq]
        refine served.frame placed ⟨rfl, ?_, rfl, rfl⟩ (State.setSlot_slots _ index _) ?_
          (called same rfl rfl)
        · intro third
          change (state.moveFile (.journal call.tempName) safePath).files.lookup _ = _
          rw [State.moveFile_lookup (carried index _ _ _ _ _ slot), if_neg, if_neg nofun]
          rw [isPath]
          intro isSame
          exact same (LocalPath.upload.inj isSame).1.symm
        · rw [slot]
          exact called same rfl rfl
  | @replace index call serial content safePath retries slot =>
      by_cases same : call.fileId = fileId
      · exact served.replace locking same slot
      · refine served.frame placed ⟨?_, fun _ => rfl, rfl, rfl⟩ (State.setSlot_slots _ index _) ?_
          (idle _ rfl rfl)
        · exact (Dict.lookup_insert_eq ..).trans (if_neg (Ne.symm same))
        · rw [slot]
          exact called same rfl rfl
  | submit slot | pickNothing slot _ _ | fire slot =>
      refine served.frame placed ⟨rfl, fun _ => rfl, rfl, rfl⟩ (State.setSlot_slots _ _ _) ?_
        (idle _ rfl rfl)
      rw [slot]
      exact idle _ rfl rfl
  | pick slot unlocked entry pending => exact served.pick placed locking slot unlocked entry
  | checkExists slot file => exact served.advance placed slot nofun fun _ => trivial
  | checkMissing slot file =>
      refine served.advance placed slot nofun fun same => ?_
      subst same
      exact (served.uploaded_of_missing slot file).1
  | @read index other job content slot file =>
      have here := served.slots index
      rw [slot] at here
      exact served.advance placed slot nofun fun same => (here same).file content file
  | readVanished slot file =>
      refine served.advance placed slot nofun fun same => ?_
      subst same
      exact served.uploaded_of_missing slot file
  | replyAccepted slot => exact served.accept placed slot
  | @replyRejected index other job content slot =>
      refine served.advance placed slot nofun fun same => ?_
      rw [Delivers, slot] at delivers
      obtain ⟨nodeId, impossible⟩ := delivers (congrArg some same)
      cases impossible
  | @replyQuota index other job content slot =>
      have tripped : Served fileId { state with quotaExceeded := true } := by
        refine ⟨served.apart, fun third => ?_, fun entry present quiet => ?_, served.gone⟩
        · exact (served.slots third).frame (placed.slots third) rfl (fun _ => rfl) rfl id id
        · obtain ⟨pending, newest, file⟩ := served.entry entry present quiet
          exact ⟨pending, newest, file⟩
      have stillPlaced : Placed { state with quotaExceeded := true } :=
        ⟨placed.queue, placed.saved, placed.slots⟩
      refine tripped.advance stillPlaced slot nofun fun same => ?_
      rw [Delivers, slot] at delivers
      obtain ⟨nodeId, impossible⟩ := delivers (congrArg some same)
      cases impossible
  | forget slot unlocked => exact served.forget placed locking slot unlocked
  | @popRemoved index other job content slot =>
      have here := served.slots index
      rw [slot] at here
      exact served.drop placed slot fun same => (here same).point
  | @popMissing index other job slot unlocked =>
      have here := served.slots index
      rw [slot] at here
      exact served.drop placed slot fun same => (here same).point
  | failRetry slot unlocked handled | failOver slot unlocked handled =>
      exact served.fail placed locking slot unlocked handled (idle _ rfl rfl)
  | moveRaises _ _ | crash => exact delivers.elim
  | start boot _ | recover boot _ _ _ _ | recoverSkip boot _ | recovered boot _
  | resume boot _ | sweepDone boot | sweep boot _ => simp [ready] at boot

end Served

theorem Stepped.of_accepted {maxRetries : Nat} {state next : State γ} {index : Nat}
    {fileId nodeId : Str} {job : Job γ} {content : γ}
    (stepped : Stepped maxRetries state (.reply index (.accepted nodeId)) next)
    (sent : state.slots index = .attempt fileId job (.sent content)) :
    next = (state.recordAccepted fileId nodeId job content).setSlot index
      (.attempt fileId job (.success content)) := by
  cases stepped with
  | replyAccepted slot =>
      rw [sent] at slot
      cases slot
      rfl

theorem Stepped.histories {maxRetries : Nat} {state next : State γ} {label : Label}
    (stepped : Stepped maxRetries state label next) (ready : state.boot = .ready) :
    ((∀ index call second, label ≠ .begin index call second) → next.enqueued = state.enqueued) ∧
      ((∀ index nodeId, label ≠ .reply index (.accepted nodeId)) →
        next.accepted = state.accepted) := by
  cases stepped with
  | begin _ _ _ _ =>
      refine ⟨fun notBegin => absurd rfl (notBegin _ _ _), fun _ => ?_⟩
      rw [State.enqueueBegin_eq]
  | replyAccepted _ => exact ⟨fun _ => rfl, fun notAccepted => absurd rfl (notAccepted _ _)⟩
  | moveRaises _ _ =>
      rw [State.removeOldFile_eq]
      exact ⟨fun _ => rfl, fun _ => rfl⟩
  | move slot =>
      rw [State.moveFile_eq]
      exact ⟨fun _ => rfl, fun _ => rfl⟩
  | failRetry slot unlocked handled | failOver slot unlocked handled =>
      rw [State.handleFailure_eq handled]
      exact ⟨fun _ => rfl, fun _ => rfl⟩
  | replace _ | submit _ | pickNothing _ _ _ | pick _ _ _ _ | checkExists _ _
  | checkMissing _ _ | read _ _ | readVanished _ _ | replyRejected _ | replyQuota _
  | forget _ _ | popRemoved _ | popMissing _ _ | fire _ | crash =>
      exact ⟨fun _ => rfl, fun _ => rfl⟩
  | start boot _ | recover boot _ _ _ _ | recoverSkip boot _ | recovered boot _
  | resume boot _ | sweepDone boot | sweep boot _ => simp [ready] at boot

end FuseDrive.Upload
