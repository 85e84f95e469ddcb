import FuseDrive.Upload.Restart

/-!
# One call of `enqueue_file_for_upload`, cut short

The call removes the old local file, moves the journal file to its safe path,
replaces the entry and saves the queue.  It may raise in the move, and the
process may crash between any two steps and start again; a removal or a save
that raises is caught.  After the removal the old content is gone, after the
move the new one is out of reach of the recovery, and only the save makes it
known again.
-/

namespace FuseDrive.Upload

open Transition

variable {γ : Type}

namespace State

/-! ## The call and its stops -/

/-- The path `enqueue_file_for_upload` moves the file to. -/
def safePath (call : EnqueueCall) (second : Nat) : LocalPath :=
  .upload call.fileId second

/-- The whole call, without any failure. -/
def enqueueFile (state : State γ) (call : EnqueueCall) (second : Nat) (content : γ) : State γ :=
  ((state.removeOldFile call.fileId).moveFile (.journal call.tempName)
    (safePath call second)).enqueueReplace call state.nextSerial content (safePath call second)
      (state.existingRetries call.fileId)

/-- The state when the call is about to move the file; a removal that raises
leaves the old file. -/
def beforeMove (state : State γ) (call : EnqueueCall) (removalRaises : Bool) : State γ :=
  if removalRaises then state else state.removeOldFile call.fileId

/-- The state when the call is about to save the queue. -/
def beforeSave (state : State γ) (call : EnqueueCall) (second : Nat) (content : γ)
    (removalRaises : Bool) : State γ :=
  let moved := (state.beforeMove call removalRaises).moveFile (.journal call.tempName)
    (safePath call second)
  { moved with
    queue := moved.queue.insert call.fileId
      (newJob call state.nextSerial content (safePath call second)
        (state.existingRetries call.fileId)) }

/-- The state when the save has returned; a save that raises leaves the saved
queue. -/
def afterSave (state : State γ) (call : EnqueueCall) (second : Nat) (content : γ)
    (removalRaises saveRaises : Bool) : State γ :=
  let replaced := state.beforeSave call second content removalRaises
  if saveRaises then replaced else replaced.persistUploadQueueToDisk

/-! ## The restart -/

/-- A file of the journal directory in the order of the listing, with the
`uuid4` and the second of the clock of its recovery. -/
structure Recovery where
  name : Str
  uuid : Str
  second : Nat

/-- One round of the loop of `_recover_journal`. -/
def recoverFile (state : State γ) (recovery : Recovery) : State γ :=
  match recoveryCall recovery.uuid recovery.name, state.files.lookup (.journal recovery.name) with
  | some call, some content => state.enqueueFile call recovery.second content
  | _, _ => state

def recoverJournal (state : State γ) (listing : List Recovery) : State γ :=
  listing.foldl recoverFile state

/-- The crash, `load_upload_queue_from_disk` and `_recover_journal`. -/
def restart (state : State γ) (listing : List Recovery) : State γ :=
  state.crash.loadUploadQueueFromDisk.recoverJournal listing

end State

open State

/-- Between which two steps the process crashes. -/
inductive CrashPoint where
  | beforeRemoval
  | beforeMove (removalRaises : Bool)
  | beforeReplace (removalRaises : Bool)
  | beforeSave (removalRaises : Bool)
  | afterSave (removalRaises saveRaises : Bool)

/-- How the call ends. -/
inductive Stop where
  /-- `shutil.move` raises, and so does the call. -/
  | moveRaises (removalRaises : Bool)
  | returns (removalRaises saveRaises : Bool)
  | crash (point : CrashPoint)

namespace State

/-- The state in which the process crashes. -/
def crashedAt (state : State γ) (call : EnqueueCall) (second : Nat) (content : γ) :
    CrashPoint → State γ
  | .beforeRemoval => state
  | .beforeMove removalRaises => state.beforeMove call removalRaises
  | .beforeReplace removalRaises =>
      (state.beforeMove call removalRaises).moveFile (.journal call.tempName)
        (safePath call second)
  | .beforeSave removalRaises => state.beforeSave call second content removalRaises
  | .afterSave removalRaises saveRaises =>
      state.afterSave call second content removalRaises saveRaises

/-- The state after the call, and after the restart if the process crashed. -/
def ended (state : State γ) (call : EnqueueCall) (second : Nat) (content : γ)
    (listing : List Recovery) : Stop → State γ
  | .moveRaises removalRaises => state.beforeMove call removalRaises
  | .returns removalRaises saveRaises =>
      state.afterSave call second content removalRaises saveRaises
  | .crash point => (state.crashedAt call second content point).restart listing

/-! ## What must survive -/

/-- The content of the local file of a pending entry. -/
def pendingContent (state : State γ) (fileId : Str) : Option γ :=
  match state.queue.lookup fileId with
  | some job => if job.status = .pending then state.files.lookup job.path else none
  | none => none

/-- The content of the local file of the entry, whatever its status. -/
def queuedContent (state : State γ) (fileId : Str) : Option γ :=
  (state.queue.lookup fileId).bind fun job => state.files.lookup job.path

end State

/-- The content the id had in the queue before the call, or the new one. -/
def IsVersion (state : State γ) (call : EnqueueCall) (content bytes : γ) : Prop :=
  state.queuedContent call.fileId = some bytes ∨ bytes = content

/-- The file has a pending entry with one of the versions.  A file that is
created anew from its journal file is known by the id of the recovery. -/
def Survives (state after : State γ) (call : EnqueueCall) (content : γ)
    (listing : List Recovery) : Prop :=
  ∃ fileId bytes, (fileId = call.fileId ∨ (call.isNew = true ∧ ∃ recovery ∈ listing,
      recovery.name = call.tempName ∧
      (recoveryCall recovery.uuid recovery.name).map EnqueueCall.fileId = some fileId)) ∧
    after.pendingContent fileId = some bytes ∧ IsVersion state call content bytes

/-- The entry of the id and its file are as they were. -/
def Unchanged (state after : State γ) (fileId : Str) : Prop :=
  after.queue.lookup fileId = state.queue.lookup fileId ∧
    ∀ job, state.queue.lookup fileId = some job →
      after.files.lookup job.path = state.files.lookup job.path

/-- Either version survives the stop, and one that raises leaves the entry. -/
def NothingLost (state : State γ) (call : EnqueueCall) (second : Nat) (content : γ)
    (listing : List Recovery) (stop : Stop) : Prop :=
  Survives state (state.ended call second content listing stop) call content
      (match stop with | .crash _ => listing | _ => []) ∧
    match stop with
    | .moveRaises _ => Unchanged state (state.ended call second content listing stop) call.fileId
    | _ => True

/-! ## One undisturbed call -/

namespace State

/-- The entries of the queue and of the saved queue keep their files under
their own ids. -/
structure OwnPaths (state : State γ) : Prop where
  queue : EntriesPlaced state.queue
  saved : EntriesPlaced state.savedQueue

section EnqueueFile

variable {state : State γ} {call : EnqueueCall} {second : Nat} {content : γ}

theorem enqueueFile_queue : (state.enqueueFile call second content).queue =
    state.queue.insert call.fileId (newJob call state.nextSerial content (safePath call second)
      (state.existingRetries call.fileId)) := by
  simp only [enqueueFile, enqueueReplace, persistUploadQueueToDisk]
  rw [moveFile_eq, removeOldFile_eq]

theorem removeOldFile_journal (placed : EntriesPlaced state.queue) (fileId name : Str) :
    (state.removeOldFile fileId).files.lookup (.journal name) =
      state.files.lookup (.journal name) := by
  rw [removeOldFile_lookup, if_neg]
  intro old
  obtain ⟨job, entry, isPath⟩ := Option.map_eq_some_iff.mp old
  obtain ⟨second, own⟩ := placed fileId job entry
  rw [own] at isPath
  cases isPath

theorem enqueueFile_files (placed : EntriesPlaced state.queue)
    (temp : state.files.lookup (.journal call.tempName) = some content) (path : LocalPath) :
    (state.enqueueFile call second content).files.lookup path =
      if path = safePath call second then some content
      else if path = .journal call.tempName then none
      else if (state.queue.lookup call.fileId).map Job.path = some path then none
      else state.files.lookup path := by
  have source : (state.removeOldFile call.fileId).files.lookup (.journal call.tempName) =
      some content := by rwa [removeOldFile_journal placed]
  simp only [enqueueFile, enqueueReplace, persistUploadQueueToDisk]
  rw [moveFile_lookup source, removeOldFile_lookup]

theorem enqueueFile_placed (placed : EntriesPlaced state.queue) :
    EntriesPlaced (state.enqueueFile call second content).queue := by
  rw [enqueueFile_queue]
  exact placed.insert ⟨second, rfl⟩

/-- The call gives its id a pending entry with the new content and leaves the
entries and files of the other ids alone. -/
theorem enqueueFile_pendingContent (placed : EntriesPlaced state.queue)
    (temp : state.files.lookup (.journal call.tempName) = some content) (fileId : Str) :
    (state.enqueueFile call second content).pendingContent fileId =
      if fileId = call.fileId then some content else state.pendingContent fileId := by
  unfold pendingContent
  rw [enqueueFile_queue, Dict.lookup_insert_eq]
  by_cases same : fileId = call.fileId
  · rw [if_pos same, if_pos same]
    simp only [newJob, if_true]
    rw [enqueueFile_files placed temp, if_pos rfl]
  · rw [if_neg same, if_neg same]
    cases entry : state.queue.lookup fileId with
    | none => rfl
    | some job =>
        obtain ⟨own, isOwn⟩ := placed fileId job entry
        have notOld : (state.queue.lookup call.fileId).map Job.path ≠ some job.path := by
          intro old
          obtain ⟨other, isOther, isPath⟩ := Option.map_eq_some_iff.mp old
          obtain ⟨second, isSecond⟩ := placed call.fileId other isOther
          rw [isSecond, isOwn, LocalPath.upload.injEq] at isPath
          exact same isPath.1.symm
        have notSafe : job.path ≠ safePath call second := by
          rw [isOwn, safePath, Ne, LocalPath.upload.injEq]
          exact fun both => same both.1
        have notJournal : job.path ≠ .journal call.tempName := by simp [isOwn]
        simp only
        rw [enqueueFile_files placed temp, if_neg notSafe, if_neg notJournal, if_neg notOld]

theorem enqueueFile_journal (placed : EntriesPlaced state.queue)
    (temp : state.files.lookup (.journal call.tempName) = some content) {name : Str}
    (other : name ≠ call.tempName) :
    (state.enqueueFile call second content).files.lookup (.journal name) =
      state.files.lookup (.journal name) := by
  rw [enqueueFile_files placed temp, if_neg, if_neg, ← removeOldFile_lookup,
    removeOldFile_journal placed]
  · simpa using other
  · simp [safePath]

end EnqueueFile

/-! ## The recovery -/

/-- What the recovery of a file puts into the queue for an id. -/
def recovered (files : Dict LocalPath γ) (fileId : Str) (recovery : Recovery) : Option γ :=
  if (recoveryCall recovery.uuid recovery.name).map EnqueueCall.fileId = some fileId then
    files.lookup (.journal recovery.name)
  else none

/-- The content of the last journal file in the listing that is recovered for
an id. -/
def lastRecovered (files : Dict LocalPath γ) (fileId : Str) : List Recovery → Option γ
  | [] => none
  | recovery :: listing =>
      (lastRecovered files fileId listing).or (recovered files fileId recovery)

theorem tempName_of_recoveryCall {uuid name : Str} {call : EnqueueCall}
    (parsed : recoveryCall uuid name = some call) : call.tempName = name := by
  unfold recoveryCall at parsed
  split at parsed <;> cases parsed <;> rfl

section Recover

variable {state : State γ}

theorem recoverFile_placed (placed : EntriesPlaced state.queue) (recovery : Recovery) :
    EntriesPlaced (state.recoverFile recovery).queue := by
  unfold recoverFile
  split
  · exact enqueueFile_placed placed
  · exact placed

theorem recoverFile_journal (placed : EntriesPlaced state.queue) {recovery : Recovery} {name : Str}
    (other : name ≠ recovery.name) :
    (state.recoverFile recovery).files.lookup (.journal name) =
      state.files.lookup (.journal name) := by
  unfold recoverFile
  split
  · rename_i call content parsed present
    have isName := tempName_of_recoveryCall parsed
    rw [← isName] at present other
    exact enqueueFile_journal placed present other
  · rfl

theorem recoverFile_pendingContent (placed : EntriesPlaced state.queue) (recovery : Recovery)
    (fileId : Str) :
    (state.recoverFile recovery).pendingContent fileId =
      (recovered state.files fileId recovery).or (state.pendingContent fileId) := by
  unfold recoverFile recovered
  cases parsed : recoveryCall recovery.uuid recovery.name with
  | none => rfl
  | some call =>
      have isName := tempName_of_recoveryCall parsed
      cases present : state.files.lookup (.journal recovery.name) with
      | none =>
          simp only [Option.map_some, ite_self, Option.none_or]
      | some content =>
          rw [← isName] at present
          simp only [Option.map_some, Option.some.injEq]
          rw [enqueueFile_pendingContent placed present]
          by_cases same : fileId = call.fileId
          · rw [if_pos same, if_pos same.symm, Option.some_or]
          · rw [if_neg same, if_neg (Ne.symm same), Option.none_or]

theorem lastRecovered_congr {files other : Dict LocalPath γ} {fileId : Str}
    {listing : List Recovery} (same : ∀ recovery ∈ listing,
      other.lookup (.journal recovery.name) = files.lookup (.journal recovery.name)) :
    lastRecovered other fileId listing = lastRecovered files fileId listing := by
  induction listing with
  | nil => rfl
  | cons recovery listing induction =>
      rw [lastRecovered, lastRecovered,
        induction fun later member => same later (List.mem_cons_of_mem recovery member),
        recovered, recovered, same recovery List.mem_cons_self]

/-- After the recovery an id has the content of its last journal file, or what
it had before. -/
theorem recoverJournal_pendingContent (placed : EntriesPlaced state.queue)
    {listing : List Recovery} (distinct : (listing.map Recovery.name).Nodup) (fileId : Str) :
    (state.recoverJournal listing).pendingContent fileId =
      (lastRecovered state.files fileId listing).or (state.pendingContent fileId) := by
  induction listing generalizing state with
  | nil => rfl
  | cons recovery listing induction =>
      rw [List.map_cons, List.nodup_cons] at distinct
      have later := induction (recoverFile_placed placed recovery) distinct.2
      have same : lastRecovered (state.recoverFile recovery).files fileId listing =
          lastRecovered state.files fileId listing := by
        apply lastRecovered_congr
        intro other member
        apply recoverFile_journal placed
        intro isName
        exact distinct.1 (isName ▸ List.mem_map_of_mem member)
      calc (state.recoverJournal (recovery :: listing)).pendingContent fileId
          = (lastRecovered state.files fileId listing).or
              ((state.recoverFile recovery).pendingContent fileId) := by rw [← same, ← later]; rfl
        _ = (lastRecovered state.files fileId (recovery :: listing)).or
              (state.pendingContent fileId) := by
            rw [recoverFile_pendingContent placed, lastRecovered, Option.or_assoc]

end Recover

end State

/-! ## When nothing is lost -/

/-- The saved entry of the id still finds its file when the new file has been
moved but not saved: both have one path, or the file was not removed. -/
def SavedKeeps (state : State γ) (call : EnqueueCall) (second : Nat) (content : γ)
    (removalRaises : Bool) : Prop :=
  ∃ job, state.savedQueue.lookup call.fileId = some job ∧ job.status = .pending ∧
    (job.path = safePath call second ∨
      ((removalRaises = true ∨ (state.queue.lookup call.fileId).map Job.path ≠ some job.path) ∧
        ∃ bytes, state.files.lookup job.path = some bytes ∧
          IsVersion state call content bytes))

/-- The last journal file that is recovered for the id, if any, has one of the
versions. -/
def RecoversVersion (state : State γ) (call : EnqueueCall) (content : γ)
    (listing : List Recovery) : Prop :=
  ∀ bytes, lastRecovered state.files call.fileId listing = some bytes →
    IsVersion state call content bytes

/-- The condition on the state, the call, the listing and the stop. -/
def StopsSafely (state : State γ) (call : EnqueueCall) (second : Nat) (content : γ)
    (listing : List Recovery) : Stop → Prop
  | .moveRaises removalRaises =>
      removalRaises = true ∧ (state.pendingContent call.fileId).isSome
  | .returns _ _ => True
  | .crash .beforeRemoval | .crash (.beforeMove _) =>
      call.isNew = true ∨ RecoversVersion state call content listing
  | .crash (.beforeReplace removalRaises) | .crash (.beforeSave removalRaises)
  | .crash (.afterSave removalRaises true) =>
      RecoversVersion state call content listing ∧
        (lastRecovered state.files call.fileId listing = none →
          SavedKeeps state call second content removalRaises)
  | .crash (.afterSave _ false) => RecoversVersion state call content listing

/-- The recovery reads the call's journal file as what it was written for. -/
def ParsedCorrectly (call : EnqueueCall) : Prop :=
  if call.isNew then
    ∃ parentId name, recoverJournalEntry call.tempName = .create parentId name ∧
      call.parentId = some parentId ∧ call.name = some name
  else recoverJournalEntry call.tempName = .edit call.fileId

/-- The recovery lists the journal directory, every file once, and draws a new
`uuid4` for each. -/
structure Lists (state : State γ) (listing : List Recovery) : Prop where
  names : (listing.map Recovery.name).Perm state.journalNames
  uuids : (listing.map Recovery.uuid).Nodup

/-- An edit is never recovered under the id of a new file. -/
theorem notMem_underscore_of_edit {name fileId : Str}
    (parsed : recoverJournalEntry name = .edit fileId) : '_' ∉ fileId := by
  unfold recoverJournalEntry at parsed
  split at parsed
  · rename_i found isEdit
    cases parsed
    simp only [editMatch, Option.bind_eq_bind, Option.bind_eq_some_iff, Option.some.injEq] at isEdit
    obtain ⟨text, _, ⟨_, rest⟩, field, rfl⟩ := isEdit
    exact (underscoreField_eq_some field).2.1
  · split at parsed
    · cases parsed
    · split at parsed <;> cases parsed

theorem State.exists_of_lastRecovered {files : Dict LocalPath γ} {fileId : Str} {bytes : γ}
    {listing : List Recovery} (found : lastRecovered files fileId listing = some bytes) :
    ∃ recovery ∈ listing, recovered files fileId recovery = some bytes := by
  induction listing with
  | nil => cases found
  | cons first listing induction =>
      rw [lastRecovered, Option.or_eq_some_iff] at found
      rcases found with found | ⟨_, found⟩
      · obtain ⟨recovery, member, own⟩ := induction found
        exact ⟨recovery, List.mem_cons_of_mem first member, own⟩
      · exact ⟨first, List.mem_cons_self, found⟩

theorem State.lastRecovered_isSome {files : Dict LocalPath γ} {fileId : Str}
    {listing : List Recovery} {recovery : Recovery} (member : recovery ∈ listing)
    (own : (recovered files fileId recovery).isSome) :
    (lastRecovered files fileId listing).isSome := by
  induction listing with
  | nil => cases member
  | cons first listing induction =>
      rw [lastRecovered, Option.isSome_or, Bool.or_eq_true]
      rcases List.mem_cons.mp member with rfl | later
      · exact .inr own
      · exact .inl (induction later)

section Stops

variable {state : State γ} {call : EnqueueCall} {second : Nat} {content : γ}
  {listing : List Recovery}

theorem lastRecovered_of_create {files : Dict LocalPath γ} (isNew : call.isNew = true)
    (parsed : ParsedCorrectly call) (temp : files.lookup (.journal call.tempName) = some content)
    (uuids : (listing.map Recovery.uuid).Nodup) {recovery : Recovery}
    (member : recovery ∈ listing) (own : recovery.name = call.tempName) {fileId : Str}
    (isId : (recoveryCall recovery.uuid recovery.name).map EnqueueCall.fileId = some fileId) :
    lastRecovered files fileId listing = some content := by
  obtain ⟨parentId, name, isCreate, _, _⟩ : ∃ parentId name,
      recoverJournalEntry call.tempName = .create parentId name ∧
        call.parentId = some parentId ∧ call.name = some name := by
    simpa [ParsedCorrectly, isNew] using parsed
  rw [← own] at isCreate temp
  have isRec : fileId = ['r', 'e', 'c', '_'] ++ recovery.uuid := by
    simpa [recoveryCall, isCreate, eq_comm] using isId
  have isSome : (State.lastRecovered files fileId listing).isSome := by
    apply State.lastRecovered_isSome member
    rw [State.recovered, if_pos isId, temp]
    rfl
  obtain ⟨bytes, last⟩ := Option.isSome_iff_exists.mp isSome
  obtain ⟨other, isOther, found⟩ := State.exists_of_lastRecovered last
  rw [last]
  unfold State.recovered at found
  split at found
  · rename_i sameId
    -- a file with the same recovery id has the same `uuid4`
    have same : other = recovery := by
      apply List.inj_on_of_nodup_map uuids isOther member
      cases entry : recoverJournalEntry other.name with
      | edit edited =>
          simp only [recoveryCall, entry, Option.map_some, Option.some.injEq] at sameId
          have clean := notMem_underscore_of_edit entry
          rw [sameId, isRec] at clean
          simp at clean
      | create _ _ => simpa [recoveryCall, entry, isRec] using sameId
      | undecodable | other => simp [recoveryCall, entry] at sameId
    rw [← found, same, temp]
  · cases found

theorem State.restart_pendingContent {crashed : State γ} (placed : EntriesPlaced crashed.savedQueue)
    (lists : Lists crashed listing) (fileId : Str) :
    (crashed.restart listing).pendingContent fileId =
      (State.lastRecovered crashed.files fileId listing).or
        (crashed.crash.loadUploadQueueFromDisk.pendingContent fileId) := by
  have distinct : (listing.map Recovery.name).Nodup :=
    lists.names.nodup_iff.mpr crashed.journalNames_nodup
  have loaded : EntriesPlaced crashed.crash.loadUploadQueueFromDisk.queue := placed
  exact recoverJournal_pendingContent loaded distinct fileId

/-! ### The disk at each stop -/

@[simp] theorem State.beforeMove_queue (removalRaises : Bool) :
    (state.beforeMove call removalRaises).queue = state.queue := by
  cases removalRaises
  · simp only [State.beforeMove, Bool.false_eq_true, if_false]
    rw [State.removeOldFile_eq]
  · rfl

@[simp] theorem State.beforeMove_savedQueue (removalRaises : Bool) :
    (state.beforeMove call removalRaises).savedQueue = state.savedQueue := by
  cases removalRaises
  · simp only [State.beforeMove, Bool.false_eq_true, if_false]
    rw [State.removeOldFile_eq]
  · rfl

theorem State.beforeMove_journal (placed : EntriesPlaced state.queue) (removalRaises : Bool)
    (name : Str) : (state.beforeMove call removalRaises).files.lookup (.journal name) =
      state.files.lookup (.journal name) := by
  cases removalRaises
  · exact State.removeOldFile_journal placed call.fileId name
  · rfl

theorem State.beforeMove_lookup (removalRaises : Bool) (path : LocalPath) :
    (state.beforeMove call removalRaises).files.lookup path =
      if removalRaises = false ∧ (state.queue.lookup call.fileId).map Job.path = some path then none
      else state.files.lookup path := by
  cases removalRaises
  · simp only [State.beforeMove, Bool.false_eq_true, if_false, true_and]
    exact State.removeOldFile_lookup state call.fileId path
  · simp [State.beforeMove]

theorem State.moved_lookup (placed : EntriesPlaced state.queue)
    (temp : state.files.lookup (.journal call.tempName) = some content) (removalRaises : Bool)
    (second : Nat) (path : LocalPath) :
    ((state.beforeMove call removalRaises).moveFile (.journal call.tempName)
        (State.safePath call second)).files.lookup path =
      if path = State.safePath call second then some content
      else if path = .journal call.tempName then none
      else (state.beforeMove call removalRaises).files.lookup path := by
  apply State.moveFile_lookup
  rw [State.beforeMove_journal placed, temp]

/-! ### Each stop -/

theorem survives_nil {after : State γ} : Survives state after call content [] ↔
    ∃ bytes, after.pendingContent call.fileId = some bytes ∧ IsVersion state call content bytes := by
  constructor
  · rintro ⟨fileId, bytes, rfl | ⟨_, _, member, _⟩, survives⟩
    · exact ⟨bytes, survives⟩
    · cases member
  · rintro ⟨bytes, survives⟩
    exact ⟨call.fileId, bytes, .inl rfl, survives⟩

theorem isVersion_of_pendingContent {bytes : γ}
    (pending : state.pendingContent call.fileId = some bytes) :
    IsVersion state call content bytes := by
  unfold State.pendingContent at pending
  left
  unfold State.queuedContent
  cases entry : state.queue.lookup call.fileId with
  | none => simp [entry] at pending
  | some job =>
      simp only [entry] at pending
      split at pending
      · simpa using pending
      · cases pending

theorem nothingLost_of_moveRaises (removalRaises : Bool) :
    NothingLost state call second content listing (.moveRaises removalRaises) ↔
      StopsSafely state call second content listing (.moveRaises removalRaises) := by
  simp only [NothingLost, StopsSafely, survives_nil, State.ended]
  cases removalRaises
  · -- the old file is gone, and with it the pending content
    simp only [Bool.false_eq_true, false_and, iff_false, not_and]
    rintro ⟨bytes, pending, _⟩
    unfold State.pendingContent at pending
    rw [State.beforeMove_queue] at pending
    cases entry : state.queue.lookup call.fileId with
    | none => simp [entry] at pending
    | some job => simp [entry, State.beforeMove_lookup] at pending
  · simp only [true_and]
    constructor
    · rintro ⟨⟨bytes, pending, _⟩, _⟩
      exact Option.isSome_iff_exists.mpr ⟨bytes, pending⟩
    · intro isSome
      obtain ⟨bytes, pending⟩ := Option.isSome_iff_exists.mp isSome
      exact ⟨⟨bytes, pending, isVersion_of_pendingContent pending⟩, rfl, fun _ _ => rfl⟩

theorem State.beforeSave_queue (removalRaises : Bool) :
    (state.beforeSave call second content removalRaises).queue =
      state.queue.insert call.fileId (State.newJob call state.nextSerial content
        (State.safePath call second) (state.existingRetries call.fileId)) := by
  simp only [State.beforeSave]
  rw [State.moveFile_eq, State.beforeMove_queue]

theorem State.beforeSave_savedQueue (removalRaises : Bool) :
    (state.beforeSave call second content removalRaises).savedQueue = state.savedQueue := by
  simp only [State.beforeSave]
  rw [State.moveFile_eq, State.beforeMove_savedQueue]

theorem State.beforeSave_pendingContent (placed : EntriesPlaced state.queue)
    (temp : state.files.lookup (.journal call.tempName) = some content) (removalRaises : Bool) :
    (state.beforeSave call second content removalRaises).pendingContent call.fileId =
      some content := by
  have files : (state.beforeSave call second content removalRaises).files =
      ((state.beforeMove call removalRaises).moveFile (.journal call.tempName)
        (State.safePath call second)).files := rfl
  unfold State.pendingContent
  rw [State.beforeSave_queue, AList.lookup_insert]
  simp only [State.newJob, if_true]
  rw [files, State.moved_lookup placed temp, if_pos rfl]

theorem State.afterSave_pendingContent (placed : EntriesPlaced state.queue)
    (temp : state.files.lookup (.journal call.tempName) = some content)
    (removalRaises saveRaises : Bool) :
    (state.afterSave call second content removalRaises saveRaises).pendingContent call.fileId =
      some content := by
  cases saveRaises
  · exact State.beforeSave_pendingContent placed temp removalRaises
  · exact State.beforeSave_pendingContent placed temp removalRaises

theorem nothingLost_of_returns (placed : EntriesPlaced state.queue)
    (temp : state.files.lookup (.journal call.tempName) = some content)
    (removalRaises saveRaises : Bool) :
    NothingLost state call second content listing (.returns removalRaises saveRaises) := by
  simp only [NothingLost, survives_nil, State.ended, and_true]
  exact ⟨content, State.afterSave_pendingContent placed temp removalRaises saveRaises, .inr rfl⟩

/-- After a restart the id has the last of its journal files, or the saved
entry. -/
theorem survives_restart {crashed : State γ} (placed : EntriesPlaced crashed.savedQueue)
    (lists : Lists crashed listing)
    (journals : ∀ recovery ∈ listing, crashed.files.lookup (.journal recovery.name) =
      state.files.lookup (.journal recovery.name))
    (own : call.isNew = true → ∀ recovery ∈ listing, recovery.name ≠ call.tempName) :
    Survives state (crashed.restart listing) call content listing ↔
      RecoversVersion state call content listing ∧
        (State.lastRecovered state.files call.fileId listing = none →
          ∃ bytes, crashed.crash.loadUploadQueueFromDisk.pendingContent call.fileId = some bytes ∧
            IsVersion state call content bytes) := by
  have byId : Survives state (crashed.restart listing) call content listing ↔
      ∃ bytes, (crashed.restart listing).pendingContent call.fileId = some bytes ∧
        IsVersion state call content bytes := by
    constructor
    · rintro ⟨fileId, bytes, rfl | ⟨isNew, recovery, member, isName, _⟩, survives⟩
      · exact ⟨bytes, survives⟩
      · exact absurd isName (own isNew recovery member)
    · rintro ⟨bytes, survives⟩
      exact ⟨call.fileId, bytes, .inl rfl, survives⟩
  rw [byId, State.restart_pendingContent placed lists, State.lastRecovered_congr journals,
    RecoversVersion]
  cases State.lastRecovered state.files call.fileId listing with
  | none => simp
  | some bytes => simp

theorem Lists.mem_iff {crashed : State γ} (lists : Lists crashed listing) {name : Str} :
    name ∈ listing.map Recovery.name ↔ (crashed.files.lookup (.journal name)).isSome := by
  rw [lists.names.mem_iff, State.mem_journalNames]

/-- As long as the journal file is there, the recovery finds it. -/
theorem survives_of_beforeMove {crashed : State γ} (placed : EntriesPlaced state.savedQueue)
    (temp : state.files.lookup (.journal call.tempName) = some content)
    (parsed : ParsedCorrectly call) (saved : crashed.savedQueue = state.savedQueue)
    (journals : ∀ name, crashed.files.lookup (.journal name) =
      state.files.lookup (.journal name)) (lists : Lists crashed listing) :
    Survives state (crashed.restart listing) call content listing ↔
      call.isNew = true ∨ RecoversVersion state call content listing := by
  have listed : call.tempName ∈ listing.map Recovery.name := by
    rw [lists.mem_iff, journals, temp]
    rfl
  obtain ⟨recovery, member, isName⟩ := List.mem_map.mp listed
  cases isNew : call.isNew with
  | true =>
      simp only [true_or, iff_true]
      obtain ⟨parentId, name, isCreate, _, _⟩ : ∃ parentId name,
          recoverJournalEntry call.tempName = .create parentId name ∧
            call.parentId = some parentId ∧ call.name = some name := by
        simpa [ParsedCorrectly, isNew] using parsed
      have isId : (recoveryCall recovery.uuid recovery.name).map EnqueueCall.fileId =
          some (['r', 'e', 'c', '_'] ++ recovery.uuid) := by
        simp [recoveryCall, isName, isCreate]
      refine ⟨_, content, .inr ⟨isNew, recovery, member, isName, isId⟩, ?_, .inr rfl⟩
      rw [State.restart_pendingContent (by rwa [saved]) lists,
        lastRecovered_of_create isNew parsed (by rwa [journals]) lists.uuids member isName isId,
        Option.some_or]
  | false =>
      rw [survives_restart (by rwa [saved]) lists (fun other _ => journals other.name)
        (by simp [isNew])]
      have isEdit : recoverJournalEntry call.tempName = .edit call.fileId := by
        simpa [ParsedCorrectly, isNew] using parsed
      have isSome : (State.lastRecovered state.files call.fileId listing).isSome := by
        apply State.lastRecovered_isSome member
        rw [State.recovered, if_pos (by simp [recoveryCall, isName, isEdit]), isName, temp]
        rfl
      simp only [Bool.false_eq_true, false_or, and_iff_left_iff_imp]
      intro _ none
      rw [none] at isSome
      cases isSome

/-- Once the new file has been moved, its journal file is not listed any more,
and the others are as they were. -/
theorem journals_of_moved {crashed : State γ} {removalRaises : Bool}
    (placed : EntriesPlaced state.queue)
    (temp : state.files.lookup (.journal call.tempName) = some content)
    (files : crashed.files = ((state.beforeMove call removalRaises).moveFile
      (.journal call.tempName) (State.safePath call second)).files)
    (lists : Lists crashed listing) : ∀ recovery ∈ listing, recovery.name ≠ call.tempName ∧
      crashed.files.lookup (.journal recovery.name) =
        state.files.lookup (.journal recovery.name) := by
  intro recovery member
  have present := lists.mem_iff.mp (List.mem_map_of_mem member)
  have lookup := State.moved_lookup placed temp removalRaises second
    (.journal recovery.name)
  rw [← files, if_neg (by simp [State.safePath])] at lookup
  have distinct : recovery.name ≠ call.tempName := by
    intro same
    rw [same, if_pos rfl] at lookup
    rw [same, lookup] at present
    cases present
  refine ⟨distinct, ?_⟩
  rw [lookup, if_neg (by simpa using distinct), State.beforeMove_journal placed]

theorem savedKeeps_iff {crashed : State γ} {removalRaises : Bool}
    (placed : EntriesPlaced state.queue) (savedPlaced : EntriesPlaced state.savedQueue)
    (temp : state.files.lookup (.journal call.tempName) = some content)
    (files : crashed.files = ((state.beforeMove call removalRaises).moveFile
      (.journal call.tempName) (State.safePath call second)).files)
    (saved : crashed.savedQueue = state.savedQueue) :
    (∃ bytes, crashed.crash.loadUploadQueueFromDisk.pendingContent call.fileId = some bytes ∧
        IsVersion state call content bytes) ↔
      SavedKeeps state call second content removalRaises := by
  have loaded : crashed.crash.loadUploadQueueFromDisk.pendingContent call.fileId =
      match state.savedQueue.lookup call.fileId with
      | some job => if job.status = .pending then crashed.files.lookup job.path else none
      | none => none := by
    rw [← saved]
    rfl
  rw [loaded, SavedKeeps]
  cases entry : state.savedQueue.lookup call.fileId with
  | none => simp
  | some job =>
      obtain ⟨own, isOwn⟩ := savedPlaced call.fileId job entry
      have lookup := State.moved_lookup placed temp removalRaises second job.path
      rw [← files, if_neg (show job.path ≠ .journal call.tempName by simp [isOwn]),
        State.beforeMove_lookup] at lookup
      simp only [Option.some.injEq, exists_eq_left']
      by_cases pending : job.status = .pending
      · simp only [pending, if_true, true_and, lookup]
        by_cases isSafe : job.path = State.safePath call second
        · simp only [isSafe, if_true, Option.some.injEq, exists_eq_left', true_or, iff_true]
          exact .inr rfl
        · simp only [isSafe, if_false, false_or]
          cases removalRaises
          · by_cases isOld : (state.queue.lookup call.fileId).map Job.path = some job.path
            · simp [isOld]
            · simp [isOld]
          · simp
      · simp [pending]

theorem survives_of_unsaved {crashed : State γ} {removalRaises : Bool}
    (placed : EntriesPlaced state.queue) (savedPlaced : EntriesPlaced state.savedQueue)
    (temp : state.files.lookup (.journal call.tempName) = some content)
    (files : crashed.files = ((state.beforeMove call removalRaises).moveFile
      (.journal call.tempName) (State.safePath call second)).files)
    (saved : crashed.savedQueue = state.savedQueue) (lists : Lists crashed listing) :
    Survives state (crashed.restart listing) call content listing ↔
      RecoversVersion state call content listing ∧
        (State.lastRecovered state.files call.fileId listing = none →
          SavedKeeps state call second content removalRaises) := by
  have journals := journals_of_moved placed temp files lists
  rw [survives_restart (by rwa [saved]) lists (fun other member => (journals other member).2)
    (fun _ other member => (journals other member).1),
    savedKeeps_iff placed savedPlaced temp files saved]

theorem survives_of_saved {removalRaises : Bool} (placed : EntriesPlaced state.queue)
    (temp : state.files.lookup (.journal call.tempName) = some content)
    (lists : Lists (state.afterSave call second content removalRaises false) listing) :
    Survives state ((state.afterSave call second content removalRaises false).restart listing) call
        content listing ↔ RecoversVersion state call content listing := by
  have files : (state.afterSave call second content removalRaises false).files =
      ((state.beforeMove call removalRaises).moveFile (.journal call.tempName)
        (State.safePath call second)).files := rfl
  have journals := journals_of_moved placed temp files lists
  have savedPlaced : EntriesPlaced
      (state.afterSave call second content removalRaises false).savedQueue := by
    change EntriesPlaced (state.beforeSave call second content removalRaises).queue
    rw [State.beforeSave_queue]
    exact placed.insert ⟨second, rfl⟩
  have loaded : (state.afterSave call second content removalRaises
      false).crash.loadUploadQueueFromDisk.pendingContent call.fileId = some content :=
    State.beforeSave_pendingContent placed temp removalRaises
  rw [survives_restart savedPlaced lists (fun other member => (journals other member).2)
    (fun _ other member => (journals other member).1)]
  simp only [and_iff_left_iff_imp]
  exact fun _ _ => ⟨content, loaded, .inr rfl⟩

/-! ### Exactly when -/

/-- Wherever the call stops, one of the two versions survives exactly when the
stop is safe. -/
theorem nothingLost_iff {stop : Stop} (placed : state.OwnPaths)
    (temp : state.files.lookup (.journal call.tempName) = some content)
    (parsed : ParsedCorrectly call)
    (lists : ∀ point, stop = .crash point →
      Lists (state.crashedAt call second content point) listing) :
    NothingLost state call second content listing stop ↔
      StopsSafely state call second content listing stop := by
  cases stop with
  | moveRaises removalRaises => exact nothingLost_of_moveRaises removalRaises
  | returns removalRaises saveRaises =>
      simp only [StopsSafely, iff_true]
      exact nothingLost_of_returns placed.queue temp removalRaises saveRaises
  | crash point =>
      specialize lists point rfl
      simp only [NothingLost, State.ended, and_true]
      cases point with
      | beforeRemoval =>
          exact survives_of_beforeMove placed.saved temp parsed rfl (fun _ => rfl) lists
      | beforeMove removalRaises =>
          exact survives_of_beforeMove placed.saved temp parsed
            (State.beforeMove_savedQueue removalRaises)
            (State.beforeMove_journal placed.queue removalRaises) lists
      | beforeReplace removalRaises =>
          refine survives_of_unsaved placed.queue placed.saved temp rfl ?_ lists
          simp only [State.crashedAt]
          rw [State.moveFile_eq, State.beforeMove_savedQueue]
      | beforeSave removalRaises =>
          exact survives_of_unsaved placed.queue placed.saved temp rfl
            (State.beforeSave_savedQueue removalRaises) lists
      | afterSave removalRaises saveRaises =>
          cases saveRaises with
          | false => exact survives_of_saved placed.queue temp lists
          | true =>
              exact survives_of_unsaved placed.queue placed.saved temp rfl
                (State.beforeSave_savedQueue removalRaises) lists

end Stops

/-! ## The calls of the transition system -/

/-- The paths of every state that the manager reaches are as assumed. -/
theorem State.OwnPaths.of_reaches {maxRetries : Nat} {allowed : State γ → Label → Prop}
    {start finish : State γ} (placed : Placed start)
    (reached : Reaches (step maxRetries) allowed start finish) : finish.OwnPaths := by
  have kept : Placed finish :=
    reached.invariant (fun before _ taken => before.step (stepped_of_step taken)) placed
  exact ⟨kept.queue, kept.saved⟩

/-- Two states agree in what a restart and a later call read. -/
structure SameDisk (left right : State γ) : Prop where
  files : left.files = right.files
  queue : left.queue = right.queue
  saved : left.savedQueue = right.savedQueue

theorem State.moveFile_files_congr {left right : State γ} (same : left.files = right.files)
    (source target : LocalPath) :
    (left.moveFile source target).files = (right.moveFile source target).files := by
  unfold State.moveFile
  rw [same]
  cases right.files.lookup source with
  | none => exact same
  | some _ => rfl

theorem run_move_replace {maxRetries index second : Nat} {state begun : State γ}
    {call : EnqueueCall} {content : γ} (files : begun.files = (state.removeOldFile call.fileId).files)
    (queue : begun.queue = state.queue)
    (slot : begun.slots index = .enqueue call state.nextSerial content
      (.move (State.safePath call second) (state.existingRetries call.fileId))) :
    ∃ after, run (step maxRetries) begun [.move index, .replace index] = some after ∧
      SameDisk after (state.enqueueFile call second content) := by
  simp only [run, step, slotStep, slot, Option.bind_some, State.setSlot_slots_self]
  refine ⟨_, rfl, ?_, ?_, ?_⟩
  · exact State.moveFile_files_congr files _ _
  · rw [State.enqueueFile_queue]
    simp only [State.enqueueReplace, State.persistUploadQueueToDisk, State.setSlot_queue]
    rw [State.moveFile_eq, queue]
  · change _ = (state.enqueueFile call second content).queue
    rw [State.enqueueFile_queue]
    simp only [State.enqueueReplace, State.persistUploadQueueToDisk, State.setSlot_queue,
      State.setSlot_savedQueue]
    rw [State.moveFile_eq, queue]

/-- The three steps of a call that nothing interrupts have the effect of
`enqueueFile`. -/
theorem run_begin {maxRetries index second : Nat} {state : State γ} {call : EnqueueCall}
    {content : γ} (ready : state.boot = .ready) (free : state.slots index = .free)
    (unlocked : state.locked = false)
    (temp : state.files.lookup (.journal call.tempName) = some content) :
    ∃ after, run (step maxRetries) state
        [.begin index call second, .move index, .replace index] = some after ∧
      SameDisk after (state.enqueueFile call second content) := by
  have begun : step maxRetries state (.begin index call second) =
      some (state.enqueueBegin index call second content) := by
    simp [step, ready, beginCall, free, temp, unlocked]
  rw [run, begun, Option.bind_some]
  apply run_move_replace
  · rw [State.enqueueBegin_eq]
  · rw [State.enqueueBegin_eq]
  · rw [State.enqueueBegin_eq]
    exact Function.update_self ..

theorem run_recover {maxRetries index : Nat} {state : State γ} {recovery : Recovery}
    {names : List Str} {call : EnqueueCall} {content : γ}
    (boot : state.boot = .recovering (recovery.name :: names)) (free : state.slots index = .free)
    (unlocked : state.locked = false)
    (parsed : recoveryCall recovery.uuid recovery.name = some call)
    (temp : state.files.lookup (.journal recovery.name) = some content) :
    ∃ after, run (step maxRetries) state
        [.recover index recovery.uuid recovery.second, .move index, .replace index] =
          some after ∧
      SameDisk after (state.recoverFile recovery) := by
  have isName := State.tempName_of_recoveryCall parsed
  have present : state.files.lookup (.journal call.tempName) = some content := by rwa [isName]
  have started : beginCall state index call recovery.second =
      some (state.enqueueBegin index call recovery.second content) := by
    simp [beginCall, free, present, unlocked]
  have begun : step maxRetries state (.recover index recovery.uuid recovery.second) =
      some { state.enqueueBegin index call recovery.second content with
        boot := .recoveringIn index names } := by
    simp only [step, processStep, boot, parsed, started, Option.map_some]
  have recovers : state.recoverFile recovery =
      state.enqueueFile call recovery.second content := by
    simp only [State.recoverFile, parsed, temp]
  rw [run, begun, Option.bind_some, recovers]
  apply run_move_replace
  · rw [State.enqueueBegin_eq]
  · rw [State.enqueueBegin_eq]
  · rw [State.enqueueBegin_eq]
    exact Function.update_self ..

/-! ## An edit that replaces a pending one -/

def secondEdit : EnqueueCall :=
  ⟨['f'], editJournalName ['f'] ['x'], false, none, none⟩

/-- The first edit is pending since the first second, the second one is in the
journal. -/
def pendingEdit : State Nat :=
  let job : Job Nat := ⟨.upload ['f'] 1, 0, .pending, .update, none, none, 0, 10⟩
  { State.ready (((∅ : Dict LocalPath Nat).insert (.upload ['f'] 1) 10).insert
      (.journal secondEdit.tempName) 20) with
    queue := (∅ : Dict Str (Job Nat)).insert ['f'] job
    savedQueue := (∅ : Dict Str (Job Nat)).insert ['f'] job }

theorem pendingEdit_ownPaths : pendingEdit.OwnPaths := by
  have placed : EntriesPlaced pendingEdit.queue :=
    EntriesPlaced.insert (fun _ _ absent => by cases absent) ⟨1, rfl⟩
  exact ⟨placed, placed⟩

theorem secondEdit_parsed : ParsedCorrectly secondEdit :=
  show recoverJournalEntry secondEdit.tempName = .edit ['f'] from rfl

/-- After a crash before the move the recovery finds the second edit. -/
theorem nothingLost_iff_beforeMove :
    NothingLost pendingEdit secondEdit 2 20 [⟨secondEdit.tempName, ['u'], 3⟩]
      (.crash (.beforeMove false)) := by
  refine (nothingLost_iff pendingEdit_ownPaths rfl secondEdit_parsed fun point same => ?_).mpr
    (.inr fun bytes found => ?_)
  · cases same
    exact ⟨List.Perm.refl _, List.nodup_singleton _⟩
  · exact .inr (Option.some.inj found).symm

/-- After a crash between the move and the save both edits are out of reach, if
the clock has gone on since the first one. -/
theorem nothingLost_fails_after_move :
    ¬ ∀ (state : State Nat) (call : EnqueueCall) (second content : Nat) (listing : List Recovery)
      (stop : Stop), state.OwnPaths →
      state.files.lookup (.journal call.tempName) = some content → ParsedCorrectly call →
      (∀ point, stop = .crash point →
        Lists (state.crashedAt call second content point) listing) →
      NothingLost state call second content listing stop := by
  intro holds
  have lists : Lists (pendingEdit.crashedAt secondEdit 2 20 (.beforeReplace false)) [] :=
    ⟨List.Perm.refl _, List.nodup_nil⟩
  have lost := holds pendingEdit secondEdit 2 20 [] (.crash (.beforeReplace false))
    pendingEdit_ownPaths rfl secondEdit_parsed fun point same => by cases same; exact lists
  obtain ⟨fileId, bytes, rfl | ⟨isNew, _⟩, pending, _⟩ := lost.1
  · cases pending
  · cases isNew

end FuseDrive.Upload
