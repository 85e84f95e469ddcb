import FuseDrive.JournalNames
import FuseDrive.Transition

/-!
# The upload manager

`UploadManager` keeps a dictionary of pending uploads, saves it after every
change to `queue.json`, and lets a thread pool send the files to Drive.  This
module models it as a transition system at the granularity at which its
threads and a crash can tell two states apart: one label for each effect on a
local file, on the saved queue or on Drive, and one for each block that runs
entirely under `UploadManager.lock`.

A *slot* is one life line of a submission: the `enqueue_file_for_upload` call,
the pool task it submits, the `execute_pending_upload_job` run that task
becomes, and the retry timer a failed run arms.  Every caller, worker and
timer of the program is in some slot, and a run of the system is any
interleaving of the steps of all slots.

The bytes of the files are never looked at, so they are a parameter `γ`.
-/

namespace FuseDrive.Upload

/-- A file below the cache directory: `uploads/<file_id>_<second>.tmp` or a
file of the journal directory. -/
inductive LocalPath where
  | upload (fileId : Str) (second : Nat)
  | journal (name : Str)
deriving DecidableEq

inductive JobType where
  | update
  | create
deriving DecidableEq

inductive JobStatus where
  | pending
  | failed
deriving DecidableEq

/-- A value of the `queue` dictionary.  `serial` is the identity of the
dictionary object and `content` the bytes it was made for; no operation of
the program reads either. -/
structure Job (γ : Type) where
  path : LocalPath
  retries : Nat
  status : JobStatus
  jobType : JobType
  parentId : Option Str
  name : Option Str
  serial : Nat
  content : γ

/-- The arguments of `enqueue_file_for_upload`; callers hand over a journal
file. -/
structure EnqueueCall where
  fileId : Str
  tempName : Str
  isNew : Bool
  parentId : Option Str
  name : Option Str

def EnqueueCall.jobType (call : EnqueueCall) : JobType :=
  if call.isNew then .create else .update

/-- Program points of `enqueue_file_for_upload` after the lock was taken and
the old local file removed. -/
inductive EnqueuePoint where
  /-- Lock held, about to move the file to `safePath`. -/
  | move (safePath : LocalPath) (existingRetries : Nat)
  /-- Lock held, about to replace the queue entry and save the queue. -/
  | replace (safePath : LocalPath) (existingRetries : Nat)
  /-- Lock released, about to submit the task. -/
  | submit

/-- Program points of `execute_pending_upload_job` after the entry was read. -/
inductive AttemptPoint (γ : Type) where
  /-- About to test whether the local file exists. -/
  | check
  /-- The file is missing, about to call `_remove_job(file_id)`. -/
  | missing
  /-- About to read the local file. -/
  | read
  /-- The request with these bytes is with the storage. -/
  | sent (content : γ)
  /-- The storage accepted, about to call `_remove_job(file_id, local_path)`. -/
  | success (content : γ)
  /-- Inside `_remove_job`: lock held, local file removed. -/
  | removing (content : γ)
  /-- The attempt raised, about to call `_handle_failure`. -/
  | failure (content : γ) (isFatal : Bool)

inductive Slot (γ : Type) where
  | free
  | enqueue (call : EnqueueCall) (serial : Nat) (content : γ) (point : EnqueuePoint)
  | queued (fileId : Str)
  | attempt (fileId : Str) (job : Job γ) (point : AttemptPoint γ)
  | armed (fileId : Str)
  | done

/-- An upload the storage accepted.  `fileId` is the id the queue knows the
file under and `nodeId` the one Drive does. -/
structure Accepted (γ : Type) where
  jobType : JobType
  fileId : Str
  nodeId : Str
  serial : Nat
  parentId : Option Str
  name : Option Str
  content : γ

/-- A call of `enqueue_file_for_upload` that took the lock. -/
structure Enqueued (γ : Type) where
  fileId : Str
  serial : Nat
  jobType : JobType
  parentId : Option Str
  name : Option Str
  content : γ

def EnqueueCall.enqueued {γ : Type} (call : EnqueueCall) (serial : Nat) (content : γ) :
    Enqueued γ :=
  ⟨call.fileId, serial, call.jobType, call.parentId, call.name, content⟩

/-- Progress of `UploadManager.__init__`. -/
inductive Boot where
  | off
  | recovering (names : List Str)
  | recoveringIn (slot : Nat) (names : List Str)
  | sweeping (fileIds : List Str)
  | ready
deriving DecidableEq

structure Metrics where
  uploadQueueSize : Nat
  uploadRetries : Nat
  uploadFailures : Nat
  uploads : Nat

/-- The process, its disk and what the storage has accepted.  `enqueued` and
`accepted` are histories, newest first. -/
structure State (γ : Type) where
  files : Dict LocalPath γ
  savedQueue : Dict Str (Job γ)
  queue : Dict Str (Job γ)
  locked : Bool
  slots : Nat → Slot γ
  boot : Boot
  quotaExceeded : Bool
  metrics : Metrics
  nextSerial : Nat
  enqueued : List (Enqueued γ)
  accepted : List (Accepted γ)

variable {γ : Type}

namespace State

def setSlot (state : State γ) (index : Nat) (slot : Slot γ) : State γ :=
  { state with slots := Function.update state.slots index slot }

/-! ## The queue file -/

/-- Number of entries the `upload_queue_size` metric counts. -/
def activeEntries (queue : Dict Str (Job γ)) : Nat :=
  (queue.entries.filter fun entry => entry.2.status ≠ .failed).length

def loadUploadQueueFromDisk (state : State γ) : State γ :=
  { state with
    queue := state.savedQueue
    metrics := { state.metrics with uploadQueueSize := activeEntries state.savedQueue } }

def persistUploadQueueToDisk (state : State γ) : State γ :=
  { state with
    savedQueue := state.queue
    metrics := { state.metrics with uploadQueueSize := activeEntries state.queue } }

/-! ## `enqueue_file_for_upload` -/

def existingRetries (state : State γ) (fileId : Str) : Nat :=
  ((state.queue.lookup fileId).map Job.retries).getD 0

/-- Remove the local file of the entry that is about to be replaced. -/
def removeOldFile (state : State γ) (fileId : Str) : State γ :=
  match state.queue.lookup fileId with
  | some old => { state with files := state.files.erase old.path }
  | none => state

/-- Take the lock, choose the safe path for the second of the clock and
remove the old file. -/
def enqueueBegin (state : State γ) (index : Nat) (call : EnqueueCall)
    (second : Nat) (content : γ) : State γ :=
  { state.removeOldFile call.fileId with
    locked := true
    nextSerial := state.nextSerial + 1
    enqueued := call.enqueued state.nextSerial content :: state.enqueued
    slots := Function.update state.slots index
      (.enqueue call state.nextSerial content
        (.move (.upload call.fileId second) (state.existingRetries call.fileId))) }

/-- `shutil.move(temp_path, safe_path)`. -/
def moveFile (state : State γ) (source target : LocalPath) : State γ :=
  match state.files.lookup source with
  | some content =>
      { state with files := (state.files.erase source).insert target content }
  | none => state

def newJob (call : EnqueueCall) (serial : Nat) (content : γ)
    (safePath : LocalPath) (retries : Nat) : Job γ :=
  { path := safePath
    retries := retries
    status := .pending
    jobType := call.jobType
    parentId := call.parentId
    name := call.name
    serial := serial
    content := content }

/-- Replace the entry, save the queue and release the lock. -/
def enqueueReplace (state : State γ) (call : EnqueueCall) (serial : Nat)
    (content : γ) (safePath : LocalPath) (retries : Nat) : State γ :=
  { persistUploadQueueToDisk
      { state with
        queue := state.queue.insert call.fileId
          (newJob call serial content safePath retries) } with
    locked := false }

/-! ## `_remove_job` and `_handle_failure` -/

/-- The second half of `_remove_job`: drop the entry, save the queue and
release the lock. -/
def removeEntry (state : State γ) (fileId : Str) : State γ :=
  { persistUploadQueueToDisk { state with queue := state.queue.erase fileId } with
    locked := false }

/-- The entry as `_handle_failure` leaves it. -/
def failedJob (maxRetries : Nat) (job : Job γ) (isFatal : Bool) : Job γ :=
  { job with
    retries := job.retries + 1
    status := if maxRetries < job.retries + 1 ∨ isFatal then .failed else job.status }

/-- `_handle_failure`; the second component tells whether a retry timer was
started. -/
def handleFailure (maxRetries : Nat) (state : State γ) (fileId : Str)
    (isFatal : Bool) : State γ × Bool :=
  match state.queue.lookup fileId with
  | none => (state, false)
  | some job =>
      let counted : State γ :=
        { state with
          queue := state.queue.insert fileId (failedJob maxRetries job isFatal)
          metrics := { state.metrics with
            uploadRetries := state.metrics.uploadRetries + 1 } }
      if maxRetries < job.retries + 1 ∨ isFatal then
        ({ counted with
            metrics := { counted.metrics with
              uploadFailures := counted.metrics.uploadFailures + 1 }
          }.persistUploadQueueToDisk, false)
      else
        (counted.persistUploadQueueToDisk, true)

/-- The storage accepted the request of an attempt. -/
def recordAccepted (state : State γ) (fileId nodeId : Str) (job : Job γ)
    (content : γ) : State γ :=
  { state with
    metrics := { state.metrics with uploads := state.metrics.uploads + 1 }
    accepted :=
      { jobType := job.jobType
        fileId := fileId
        nodeId := nodeId
        serial := job.serial
        parentId := job.parentId
        name := job.name
        content := content } :: state.accepted }

/-! ## Start and crash -/

/-- A process that has not been started, over an empty saved queue. -/
def stopped (files : Dict LocalPath γ) : State γ where
  files := files
  savedQueue := ∅
  queue := ∅
  locked := false
  slots := fun _ => .free
  boot := .off
  quotaExceeded := false
  metrics := ⟨0, 0, 0, 0⟩
  nextSerial := 0
  enqueued := []
  accepted := []

/-- A manager that has started on an empty queue. -/
def ready (files : Dict LocalPath γ) : State γ :=
  { stopped files with boot := .ready }

/-- The files of the journal directory. -/
def journalNames (state : State γ) : List Str :=
  state.files.keys.filterMap fun path =>
    match path with
    | .journal name => some name
    | .upload _ _ => none

/-- The ids `_process_queue` submits. -/
def pendingIds (state : State γ) : List Str :=
  (state.queue.entries.filter fun entry => entry.2.status = .pending).map Sigma.fst

/-- A crash keeps the disk and what Drive has accepted, nothing else. -/
def crash (state : State γ) : State γ :=
  { state with
    queue := ∅
    locked := false
    slots := fun _ => .free
    boot := .off
    quotaExceeded := false
    metrics := ⟨0, 0, 0, 0⟩ }

/-! ## What each operation leaves unchanged -/

@[simp] theorem setSlot_files (state : State γ) (index : Nat) (slot : Slot γ) :
    (state.setSlot index slot).files = state.files := rfl

@[simp] theorem setSlot_queue (state : State γ) (index : Nat) (slot : Slot γ) :
    (state.setSlot index slot).queue = state.queue := rfl

@[simp] theorem setSlot_savedQueue (state : State γ) (index : Nat) (slot : Slot γ) :
    (state.setSlot index slot).savedQueue = state.savedQueue := rfl

@[simp] theorem setSlot_locked (state : State γ) (index : Nat) (slot : Slot γ) :
    (state.setSlot index slot).locked = state.locked := rfl

@[simp] theorem setSlot_enqueued (state : State γ) (index : Nat) (slot : Slot γ) :
    (state.setSlot index slot).enqueued = state.enqueued := rfl

@[simp] theorem setSlot_accepted (state : State γ) (index : Nat) (slot : Slot γ) :
    (state.setSlot index slot).accepted = state.accepted := rfl

@[simp] theorem setSlot_nextSerial (state : State γ) (index : Nat) (slot : Slot γ) :
    (state.setSlot index slot).nextSerial = state.nextSerial := rfl

@[simp] theorem setSlot_boot (state : State γ) (index : Nat) (slot : Slot γ) :
    (state.setSlot index slot).boot = state.boot := rfl

theorem setSlot_slots (state : State γ) (index : Nat) (slot : Slot γ) (other : Nat) :
    (state.setSlot index slot).slots other =
      if other = index then slot else state.slots other := by
  simp [setSlot, Function.update_apply]

@[simp] theorem setSlot_slots_self (state : State γ) (index : Nat) (slot : Slot γ) :
    (state.setSlot index slot).slots index = slot := by
  simp [setSlot_slots]

theorem removeOldFile_eq (state : State γ) (fileId : Str) :
    state.removeOldFile fileId =
      { state with files := (state.removeOldFile fileId).files } := by
  unfold removeOldFile
  split <;> rfl

theorem removeOldFile_lookup (state : State γ) (fileId : Str) (path : LocalPath) :
    (state.removeOldFile fileId).files.lookup path =
      if (state.queue.lookup fileId).map Job.path = some path then none
      else state.files.lookup path := by
  unfold removeOldFile
  cases state.queue.lookup fileId with
  | none => simp
  | some old => simp [Dict.lookup_erase_eq, eq_comm]

theorem enqueueBegin_eq (state : State γ) (index : Nat) (call : EnqueueCall)
    (second : Nat) (content : γ) :
    state.enqueueBegin index call second content =
      { state with
        files := (state.removeOldFile call.fileId).files
        locked := true
        nextSerial := state.nextSerial + 1
        enqueued := call.enqueued state.nextSerial content :: state.enqueued
        slots := Function.update state.slots index
          (.enqueue call state.nextSerial content
            (.move (.upload call.fileId second)
              (state.existingRetries call.fileId))) } := by
  rw [enqueueBegin, removeOldFile_eq]

theorem enqueueBegin_slots (state : State γ) (index : Nat) (call : EnqueueCall)
    (second : Nat) (content : γ) (other : Nat) :
    (state.enqueueBegin index call second content).slots other =
      if other = index then
        .enqueue call state.nextSerial content
          (.move (.upload call.fileId second) (state.existingRetries call.fileId))
      else state.slots other := by
  rw [enqueueBegin_eq]
  exact Function.update_apply ..

theorem moveFile_eq (state : State γ) (source target : LocalPath) :
    state.moveFile source target =
      { state with files := (state.moveFile source target).files } := by
  unfold moveFile
  split <;> rfl

theorem moveFile_lookup {state : State γ} {source : LocalPath} {content : γ}
    (found : state.files.lookup source = some content) (target path : LocalPath) :
    (state.moveFile source target).files.lookup path =
      if path = target then some content
      else if path = source then none
      else state.files.lookup path := by
  simp [moveFile, found, Dict.lookup_insert_eq, Dict.lookup_erase_eq]

theorem handleFailure_eq {maxRetries : Nat} {state next : State γ} {fileId : Str}
    {isFatal armed : Bool}
    (handled : state.handleFailure maxRetries fileId isFatal = (next, armed)) :
    next = { state with
      queue := next.queue
      savedQueue := next.savedQueue
      metrics := next.metrics } := by
  unfold handleFailure at handled
  split at handled
  · cases handled
    rfl
  · simp only at handled
    split at handled <;> cases handled <;> rfl

/-- `_handle_failure` saves the queue unless the entry is gone. -/
theorem handleFailure_saved {maxRetries : Nat} {state next : State γ} {fileId : Str}
    {isFatal armed : Bool}
    (handled : state.handleFailure maxRetries fileId isFatal = (next, armed)) :
    next = state ∨ next.savedQueue = next.queue := by
  unfold handleFailure at handled
  split at handled
  · cases handled
    exact Or.inl rfl
  · simp only at handled
    split at handled <;> cases handled <;> exact Or.inr rfl

theorem failedJob_status (maxRetries : Nat) (job : Job γ) (isFatal : Bool) :
    (failedJob maxRetries job isFatal).status =
      if maxRetries < job.retries + 1 ∨ isFatal then .failed else job.status := rfl

/-- `_handle_failure` keeps every entry up to its retry count and status. -/
theorem handleFailure_lookup {maxRetries : Nat} {state next : State γ} {fileId : Str}
    {isFatal armed : Bool}
    (handled : state.handleFailure maxRetries fileId isFatal = (next, armed))
    (other : Str) :
    next.queue.lookup other =
      if other = fileId then
        (state.queue.lookup fileId).map fun job => failedJob maxRetries job isFatal
      else state.queue.lookup other := by
  unfold handleFailure at handled
  split at handled
  · rename_i absent
    cases handled
    split
    · rename_i same
      rw [same, absent]
      rfl
    · rfl
  · rename_i job present
    simp only at handled
    split at handled <;> cases handled <;>
      simp [persistUploadQueueToDisk, Dict.lookup_insert_eq, present]

end State

/-- The answer of the storage to an upload request. -/
inductive Reply where
  | accepted (nodeId : Str)
  | rejected
  | quotaExceeded
deriving DecidableEq

/-- The steps.  `index` is the slot that moves, `second` the clock. -/
inductive Label where
  | begin (index : Nat) (call : EnqueueCall) (second : Nat)
  | moveRaises (call : EnqueueCall)
  | move (index : Nat)
  | replace (index : Nat)
  | submit (index : Nat)
  | pick (index : Nat)
  | check (index : Nat)
  | read (index : Nat)
  | reply (index : Nat) (answer : Reply)
  | forget (index : Nat)
  | pop (index : Nat)
  | fail (index : Nat)
  | fire (index : Nat)
  | crash
  | start (listing : List Str)
  | recover (index : Nat) (uuid : Str) (second : Nat)
  | recovered
  | resume
  | sweep (index : Nat)

/-- The call `_recover_journal` makes for a journal file, if it makes one. -/
def recoveryCall (uuid name : Str) : Option EnqueueCall :=
  match recoverJournalEntry name with
  | .edit fileId => some ⟨fileId, name, false, none, none⟩
  | .create parentId fileName =>
      some ⟨['r', 'e', 'c', '_'] ++ uuid, name, true, some parentId, some fileName⟩
  | .undecodable | .other => none

/-- Start `enqueue_file_for_upload` in a free slot; the lock must be free and
the file to enqueue must exist. -/
def beginCall (state : State γ) (index : Nat) (call : EnqueueCall)
    (second : Nat) : Option (State γ) :=
  match state.slots index, state.files.lookup (.journal call.tempName) with
  | .free, some content =>
      if state.locked then none
      else some (state.enqueueBegin index call second content)
  | _, _ => none

/-- An `enqueue_file_for_upload` call whose `shutil.move` raises, because the
file is gone or for another reason.  By then the old file is removed, and
nothing else comes of the call. -/
def raisingCall (state : State γ) (call : EnqueueCall) : Option (State γ) :=
  if state.locked then none else some (state.removeOldFile call.fileId)

/-- The steps of one slot. -/
def slotStep (maxRetries : Nat) (state : State γ) : Label → Option (State γ)
  | .move index =>
      match state.slots index with
      | .enqueue call serial content (.move safePath retries) =>
          some ((state.moveFile (.journal call.tempName) safePath).setSlot index
            (.enqueue call serial content (.replace safePath retries)))
      | _ => none
  | .replace index =>
      match state.slots index with
      | .enqueue call serial content (.replace safePath retries) =>
          some ((state.enqueueReplace call serial content safePath retries).setSlot
            index (.enqueue call serial content .submit))
      | _ => none
  | .submit index =>
      match state.slots index with
      | .enqueue call _ _ .submit => some (state.setSlot index (.queued call.fileId))
      | _ => none
  | .pick index =>
      match state.slots index with
      | .queued fileId =>
          if state.locked then none
          else
            match state.queue.lookup fileId with
            | none => some (state.setSlot index .done)
            | some job =>
                if job.status = .pending then
                  some (state.setSlot index (.attempt fileId job .check))
                else some (state.setSlot index .done)
      | _ => none
  | .check index =>
      match state.slots index with
      | .attempt fileId job .check =>
          match state.files.lookup job.path with
          | some _ => some (state.setSlot index (.attempt fileId job .read))
          | none => some (state.setSlot index (.attempt fileId job .missing))
      | _ => none
  | .read index =>
      match state.slots index with
      | .attempt fileId job .read =>
          match state.files.lookup job.path with
          | some content =>
              some (state.setSlot index (.attempt fileId job (.sent content)))
          | none =>
              -- opening the vanished file raises inside the `try` block
              some (state.setSlot index
                (.attempt fileId job (.failure job.content false)))
      | _ => none
  | .reply index answer =>
      match state.slots index with
      | .attempt fileId job (.sent content) =>
          match answer with
          | .accepted nodeId =>
              some ((state.recordAccepted fileId nodeId job content).setSlot index
                (.attempt fileId job (.success content)))
          | .rejected =>
              some (state.setSlot index (.attempt fileId job (.failure content false)))
          | .quotaExceeded =>
              some ({ state with quotaExceeded := true }.setSlot index
                (.attempt fileId job (.failure content true)))
      | _ => none
  | .forget index =>
      match state.slots index with
      | .attempt fileId job (.success content) =>
          if state.locked then none
          else
            some ({ state with
                locked := true
                files := state.files.erase job.path }.setSlot index
              (.attempt fileId job (.removing content)))
      | _ => none
  | .pop index =>
      match state.slots index with
      | .attempt fileId _ (.removing _) =>
          some ((state.removeEntry fileId).setSlot index .done)
      | .attempt fileId _ .missing =>
          if state.locked then none
          else some ((state.removeEntry fileId).setSlot index .done)
      | _ => none
  | .fail index =>
      match state.slots index with
      | .attempt fileId _ (.failure _ isFatal) =>
          if state.locked then none
          else
            match state.handleFailure maxRetries fileId isFatal with
            | (next, true) => some (next.setSlot index (.armed fileId))
            | (next, false) => some (next.setSlot index .done)
      | _ => none
  | .fire index =>
      match state.slots index with
      | .armed fileId => some (state.setSlot index (.queued fileId))
      | _ => none
  | _ => none

/-- The steps of `__init__` and the crash. -/
def processStep (state : State γ) : Label → Option (State γ)
  | .crash => some state.crash
  | .start listing =>
      if state.boot = .off ∧ listing.Perm state.journalNames then
        some { state.loadUploadQueueFromDisk with boot := .recovering listing }
      else none
  | .recover index uuid second =>
      match state.boot with
      | .recovering (name :: names) =>
          match recoveryCall uuid name with
          | some call =>
              (beginCall state index call second).map fun next =>
                { next with boot := .recoveringIn index names }
          | none => some { state with boot := .recovering names }
      | _ => none
  | .recovered =>
      match state.boot with
      | .recoveringIn index names =>
          match state.slots index with
          | .enqueue _ _ _ _ => none
          | _ => some { state with boot := .recovering names }
      | _ => none
  | .resume =>
      match state.boot with
      | .recovering [] =>
          if state.locked then none
          else some { state with locked := true, boot := .sweeping state.pendingIds }
      | _ => none
  | .sweep index =>
      match state.boot with
      | .sweeping [] => some { state with locked := false, boot := .ready }
      | .sweeping (fileId :: fileIds) =>
          match state.slots index with
          | .free =>
              some { state.setSlot index (.queued fileId) with
                boot := .sweeping fileIds }
          | _ => none
      | _ => none
  | _ => none

/-- The transition system. -/
def step (maxRetries : Nat) (state : State γ) : Label → Option (State γ)
  | .begin index call second =>
      if state.boot = .ready then beginCall state index call second else none
  | .moveRaises call => if state.boot = .ready then raisingCall state call else none
  | label@(.move _) | label@(.replace _) | label@(.submit _) | label@(.pick _)
  | label@(.check _) | label@(.read _) | label@(.reply _ _) | label@(.forget _)
  | label@(.pop _) | label@(.fail _) | label@(.fire _) =>
      slotStep maxRetries state label
  | label@.crash | label@(.start _) | label@(.recover _ _ _) | label@.recovered
  | label@.resume | label@(.sweep _) => processStep state label

/-! ## What a step can do -/

/-- The effect of every step, guards included.  The invariants of the later
modules are proved against this relation and never unfold `step`. -/
inductive Stepped (maxRetries : Nat) (state : State γ) : Label → State γ → Prop where
  | begin {index call second content}
      (ready : state.boot = .ready)
      (slot : state.slots index = .free)
      (temp : state.files.lookup (.journal call.tempName) = some content)
      (unlocked : state.locked = false) :
      Stepped maxRetries state (.begin index call second)
        (state.enqueueBegin index call second content)
  | moveRaises {call} (ready : state.boot = .ready) (unlocked : state.locked = false) :
      Stepped maxRetries state (.moveRaises call) (state.removeOldFile call.fileId)
  | move {index call serial content safePath retries}
      (slot : state.slots index =
        .enqueue call serial content (.move safePath retries)) :
      Stepped maxRetries state (.move index)
        ((state.moveFile (.journal call.tempName) safePath).setSlot index
          (.enqueue call serial content (.replace safePath retries)))
  | replace {index call serial content safePath retries}
      (slot : state.slots index =
        .enqueue call serial content (.replace safePath retries)) :
      Stepped maxRetries state (.replace index)
        ((state.enqueueReplace call serial content safePath retries).setSlot index
          (.enqueue call serial content .submit))
  | submit {index call serial content}
      (slot : state.slots index = .enqueue call serial content .submit) :
      Stepped maxRetries state (.submit index)
        (state.setSlot index (.queued call.fileId))
  | pickNothing {index fileId}
      (slot : state.slots index = .queued fileId)
      (unlocked : state.locked = false)
      (idle : ∀ job, state.queue.lookup fileId = some job → job.status ≠ .pending) :
      Stepped maxRetries state (.pick index) (state.setSlot index .done)
  | pick {index fileId job}
      (slot : state.slots index = .queued fileId)
      (unlocked : state.locked = false)
      (entry : state.queue.lookup fileId = some job)
      (pending : job.status = .pending) :
      Stepped maxRetries state (.pick index)
        (state.setSlot index (.attempt fileId job .check))
  | checkExists {index fileId job content}
      (slot : state.slots index = .attempt fileId job .check)
      (file : state.files.lookup job.path = some content) :
      Stepped maxRetries state (.check index)
        (state.setSlot index (.attempt fileId job .read))
  | checkMissing {index fileId job}
      (slot : state.slots index = .attempt fileId job .check)
      (file : state.files.lookup job.path = none) :
      Stepped maxRetries state (.check index)
        (state.setSlot index (.attempt fileId job .missing))
  | read {index fileId job content}
      (slot : state.slots index = .attempt fileId job .read)
      (file : state.files.lookup job.path = some content) :
      Stepped maxRetries state (.read index)
        (state.setSlot index (.attempt fileId job (.sent content)))
  | readVanished {index fileId job}
      (slot : state.slots index = .attempt fileId job .read)
      (file : state.files.lookup job.path = none) :
      Stepped maxRetries state (.read index)
        (state.setSlot index (.attempt fileId job (.failure job.content false)))
  | replyAccepted {index fileId job content nodeId}
      (slot : state.slots index = .attempt fileId job (.sent content)) :
      Stepped maxRetries state (.reply index (.accepted nodeId))
        ((state.recordAccepted fileId nodeId job content).setSlot index
          (.attempt fileId job (.success content)))
  | replyRejected {index fileId job content}
      (slot : state.slots index = .attempt fileId job (.sent content)) :
      Stepped maxRetries state (.reply index .rejected)
        (state.setSlot index (.attempt fileId job (.failure content false)))
  | replyQuota {index fileId job content}
      (slot : state.slots index = .attempt fileId job (.sent content)) :
      Stepped maxRetries state (.reply index .quotaExceeded)
        ({ state with quotaExceeded := true }.setSlot index
          (.attempt fileId job (.failure content true)))
  | forget {index fileId job content}
      (slot : state.slots index = .attempt fileId job (.success content))
      (unlocked : state.locked = false) :
      Stepped maxRetries state (.forget index)
        ({ state with
            locked := true
            files := state.files.erase job.path }.setSlot index
          (.attempt fileId job (.removing content)))
  | popRemoved {index fileId job content}
      (slot : state.slots index = .attempt fileId job (.removing content)) :
      Stepped maxRetries state (.pop index)
        ((state.removeEntry fileId).setSlot index .done)
  | popMissing {index fileId job}
      (slot : state.slots index = .attempt fileId job .missing)
      (unlocked : state.locked = false) :
      Stepped maxRetries state (.pop index)
        ((state.removeEntry fileId).setSlot index .done)
  | failRetry {index fileId job content isFatal next}
      (slot : state.slots index = .attempt fileId job (.failure content isFatal))
      (unlocked : state.locked = false)
      (handled : state.handleFailure maxRetries fileId isFatal = (next, true)) :
      Stepped maxRetries state (.fail index) (next.setSlot index (.armed fileId))
  | failOver {index fileId job content isFatal next}
      (slot : state.slots index = .attempt fileId job (.failure content isFatal))
      (unlocked : state.locked = false)
      (handled : state.handleFailure maxRetries fileId isFatal = (next, false)) :
      Stepped maxRetries state (.fail index) (next.setSlot index .done)
  | fire {index fileId}
      (slot : state.slots index = .armed fileId) :
      Stepped maxRetries state (.fire index) (state.setSlot index (.queued fileId))
  | crash : Stepped maxRetries state .crash state.crash
  | start {listing}
      (off : state.boot = .off)
      (listed : listing.Perm state.journalNames) :
      Stepped maxRetries state (.start listing)
        { state.loadUploadQueueFromDisk with boot := .recovering listing }
  | recover {index uuid second name names call content}
      (boot : state.boot = .recovering (name :: names))
      (parsed : recoveryCall uuid name = some call)
      (slot : state.slots index = .free)
      (temp : state.files.lookup (.journal call.tempName) = some content)
      (unlocked : state.locked = false) :
      Stepped maxRetries state (.recover index uuid second)
        { state.enqueueBegin index call second content with
          boot := .recoveringIn index names }
  | recoverSkip {index uuid second name names}
      (boot : state.boot = .recovering (name :: names))
      (parsed : recoveryCall uuid name = none) :
      Stepped maxRetries state (.recover index uuid second)
        { state with boot := .recovering names }
  | recovered {index names}
      (boot : state.boot = .recoveringIn index names)
      (returned : ∀ call serial content point,
        state.slots index ≠ .enqueue call serial content point) :
      Stepped maxRetries state .recovered { state with boot := .recovering names }
  | resume
      (boot : state.boot = .recovering [])
      (unlocked : state.locked = false) :
      Stepped maxRetries state .resume
        { state with locked := true, boot := .sweeping state.pendingIds }
  | sweepDone {index}
      (boot : state.boot = .sweeping []) :
      Stepped maxRetries state (.sweep index)
        { state with locked := false, boot := .ready }
  | sweep {index fileId fileIds}
      (boot : state.boot = .sweeping (fileId :: fileIds))
      (slot : state.slots index = .free) :
      Stepped maxRetries state (.sweep index)
        { state.setSlot index (.queued fileId) with boot := .sweeping fileIds }

theorem beginCall_eq_some {state next : State γ} {index : Nat} {call : EnqueueCall}
    {second : Nat} (begun : beginCall state index call second = some next) :
    ∃ content, state.slots index = .free ∧
      state.files.lookup (.journal call.tempName) = some content ∧
      state.locked = false ∧ next = state.enqueueBegin index call second content := by
  unfold beginCall at begun
  split at begun
  · rename_i content slot temp
    split at begun
    · simp at begun
    · rename_i unlocked
      exact ⟨content, slot, temp, by simpa using unlocked, by simpa using begun.symm⟩
  · simp at begun

theorem stepped_of_slotStep {maxRetries : Nat} {state next : State γ} {label : Label}
    (taken : slotStep maxRetries state label = some next) :
    Stepped maxRetries state label next := by
  cases label <;> simp only [slotStep, reduceCtorEq] at taken
  case move index =>
    split at taken <;> cases taken
    exact .move ‹_›
  case replace index =>
    split at taken <;> cases taken
    exact .replace ‹_›
  case submit index =>
    split at taken <;> cases taken
    exact .submit ‹_›
  case pick index =>
    split at taken
    · rename_i fileId slot
      by_cases locked : state.locked = true
      · simp [locked] at taken
      · simp only [if_neg locked] at taken
        have unlocked : state.locked = false := by simpa using locked
        cases entry : state.queue.lookup fileId with
        | none =>
            simp only [entry, Option.some.injEq] at taken
            subst taken
            exact .pickNothing slot unlocked (by simp [entry])
        | some job =>
            simp only [entry] at taken
            by_cases pending : job.status = .pending
            · simp only [if_pos pending, Option.some.injEq] at taken
              subst taken
              exact .pick slot unlocked entry pending
            · simp only [if_neg pending, Option.some.injEq] at taken
              subst taken
              refine .pickNothing slot unlocked ?_
              intro other found
              rw [entry, Option.some.injEq] at found
              exact found ▸ pending
    · cases taken
  case check index =>
    split at taken
    · split at taken <;> cases taken
      · exact .checkExists ‹_› ‹_›
      · exact .checkMissing ‹_› ‹_›
    · cases taken
  case read index =>
    split at taken
    · split at taken <;> cases taken
      · exact .read ‹_› ‹_›
      · exact .readVanished ‹_› ‹_›
    · cases taken
  case reply index answer =>
    split at taken
    · split at taken <;> cases taken
      · exact .replyAccepted ‹_›
      · exact .replyRejected ‹_›
      · exact .replyQuota ‹_›
    · cases taken
  case forget index =>
    split at taken
    · split at taken <;> cases taken
      rename_i unlocked
      exact .forget ‹_› (by simpa using unlocked)
    · cases taken
  case pop index =>
    split at taken
    · cases taken
      exact .popRemoved ‹_›
    · split at taken <;> cases taken
      rename_i unlocked
      exact .popMissing ‹_› (by simpa using unlocked)
    · cases taken
  case fail index =>
    split at taken
    · split at taken
      · cases taken
      · rename_i unlocked
        split at taken <;> cases taken
        · exact .failRetry ‹_› (by simpa using unlocked) ‹_›
        · exact .failOver ‹_› (by simpa using unlocked) ‹_›
    · cases taken
  case fire index =>
    split at taken <;> cases taken
    exact .fire ‹_›

theorem stepped_of_processStep {maxRetries : Nat} {state next : State γ} {label : Label}
    (taken : processStep state label = some next) :
    Stepped maxRetries state label next := by
  cases label <;> simp only [processStep, reduceCtorEq] at taken
  case crash =>
    cases taken
    exact .crash
  case start listing =>
    split at taken <;> cases taken
    rename_i enabled
    exact .start enabled.1 enabled.2
  case recover index uuid second =>
    split at taken
    · rename_i name names boot
      split at taken
      · rename_i call parsed
        simp only [Option.map_eq_some_iff] at taken
        obtain ⟨begun, success, rfl⟩ := taken
        obtain ⟨content, slot, temp, unlocked, rfl⟩ := beginCall_eq_some success
        exact .recover boot parsed slot temp unlocked
      · cases taken
        exact .recoverSkip boot ‹_›
    · cases taken
  case recovered =>
    split at taken
    · split at taken
      · cases taken
      · cases taken
        rename_i returned
        exact .recovered ‹_› returned
    · cases taken
  case resume =>
    split at taken
    · split at taken <;> cases taken
      rename_i unlocked
      exact .resume ‹_› (by simpa using unlocked)
    · cases taken
  case sweep index =>
    split at taken
    · cases taken
      exact .sweepDone ‹_›
    · split at taken <;> cases taken
      exact .sweep ‹_› ‹_›
    · cases taken

theorem stepped_of_step {maxRetries : Nat} {state next : State γ} {label : Label}
    (taken : step maxRetries state label = some next) :
    Stepped maxRetries state label next := by
  cases label <;> simp only [step] at taken
  case begin index call second =>
    split at taken
    · obtain ⟨content, slot, temp, unlocked, rfl⟩ := beginCall_eq_some taken
      exact .begin ‹_› slot temp unlocked
    · cases taken
  case moveRaises call =>
    unfold raisingCall at taken
    split at taken
    · split at taken <;> cases taken
      rename_i ready unlocked
      exact .moveRaises ready (by simpa using unlocked)
    · cases taken
  all_goals
    first
    | exact stepped_of_slotStep taken
    | exact stepped_of_processStep taken

theorem Stepped.of_begin {maxRetries : Nat} {state next : State γ} {index : Nat}
    {call : EnqueueCall} {second : Nat}
    (stepped : Stepped maxRetries state (.begin index call second) next) :
    ∃ content, state.boot = .ready ∧ state.slots index = .free ∧
      state.files.lookup (.journal call.tempName) = some content ∧ state.locked = false ∧
      next = state.enqueueBegin index call second content := by
  cases stepped with
  | begin ready slot temp unlocked => exact ⟨_, ready, slot, temp, unlocked, rfl⟩

/-! ## The journal directory -/

theorem State.mem_journalNames {state : State γ} {name : Str} :
    name ∈ state.journalNames ↔ (state.files.lookup (.journal name)).isSome := by
  rw [State.journalNames, AList.lookup_isSome, AList.mem_keys, List.mem_filterMap]
  constructor
  · rintro ⟨path, member, isName⟩
    cases path <;> cases isName
    exact member
  · exact fun member => ⟨_, member, rfl⟩

theorem State.journalNames_nodup (state : State γ) : state.journalNames.Nodup := by
  refine List.Nodup.filterMap ?_ state.files.keys_nodup
  intro path other name isName also
  cases path <;> cases other <;> simp_all

end FuseDrive.Upload
