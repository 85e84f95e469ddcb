import FuseDrive.Cache.Coherence
import FuseDrive.Fuse.Handles
import FuseDrive.Fuse.Paths
import FuseDrive.Upload.Manager

/-!
# The file system operations

`FuseOps` joins the metadata cache, the chunk manager and the upload manager.
This module puts `create`, `open`, `read`, `write`, `truncate` and `release`
around the two transition systems of the managers, at the granularity at which
other threads, the storage and a crash can come between: one label for each
program point of a call on a handle, of a `read` call on a reading handle and
of `release`.

The calls on one writing handle come one after the other, as the lock of the
handle and the kernel see to.  Local-only files and the files below `/stats`
never meet the managers and are left out.
-/

namespace FuseDrive.Fuse

open Upload (LocalPath)

/-- The parameters of the mount. -/
structure Settings where
  chunks : Cache.Config
  maxRetries : Nat
  rootId : Str

def localPrefix : Str := ['l', 'o', 'c', 'a', 'l', '_']

/-! ## Program points -/

/-- Program points of a `read`, `write` or `truncate` call on a writing
handle. -/
inductive CallPoint where
  | idle
  /-- `_ensure_downloaded` is about to look at the flag and at the record. -/
  | ensure (call : Call)
  /-- About to call `get_pending_path`. -/
  | locate (call : Call)
  /-- About to test whether the pending file exists. -/
  | probe (call : Call) (path : LocalPath)
  /-- About to read the pending file, or the content of the Drive file. -/
  | fetch (call : Call) (path : Option LocalPath)
  /-- The base is there. -/
  | apply (call : Call)

/-- An `open_files` entry with `is_write` set.  The bytes of its temp file are
in the journal directory. -/
structure Writer where
  path : Str
  fileId : Str
  tempName : Str
  position : Nat
  isModified : Bool
  baseDownloaded : Bool
  isNew : Bool
  parentId : Option Str
  name : Option Str
  point : CallPoint

/-- Program points of `release` for a writing handle. -/
inductive ClosingPoint where
  /-- At work on the cached record; the details are in the metadata cache. -/
  | record
  /-- About to call `enqueue_file_for_upload` for a new file. -/
  | enqueue
  | enqueueing (slot : Nat)
  /-- About to invalidate the chunks, or at it. -/
  | invalidate
deriving DecidableEq

/-- A `release` call.  `content` is the content of the temp file when it was
closed; nothing of the program keeps it. -/
structure Closing where
  writer : Writer
  content : Bytes
  point : ClosingPoint

/-- Program points of `read` for a reading handle. -/
inductive ReadingPoint where
  /-- About to call `get_pending_path`. -/
  | locate
  | probe (path : LocalPath)
  | openFile (path : LocalPath)
  /-- About to ask for the record. -/
  | stat
  /-- In `read_content_range_with_caching`. -/
  | chunks
  | finished (data : Bytes)
  | failed

/-- A `read` call on a reading handle. -/
structure Reading where
  fileId : Str
  offset : Nat
  length : Nat
  point : ReadingPoint

/-- What a journal file goes back to: the handle it was made for, the content
of the file when the handle fetched its base, and the writes and truncates
issued through the handle. -/
structure Origin where
  fileId : Str
  isNew : Bool
  isTruncate : Bool
  base : Bytes
  edits : List Call

/-- The content of the handle whose `release` returned last. -/
structure Held where
  content : Bytes
  isNew : Bool

/-- `nodes` are the ids Drive has issued, with parent and name.  `origins`
and `held` are histories. -/
structure State where
  uploads : Upload.State Bytes
  store : Coherence.State UInt8
  paths : Dict Str Str
  nodes : Str → Option (Str × Str)
  writers : Nat → Option Writer
  readers : Nat → Option Str
  closing : Nat → Option Closing
  readings : Nat → Option Reading
  origins : Str → Option Origin
  held : Str → Option Held

/-- What a step of a handle adds to the history of its journal file. -/
inductive Noted where
  | nothing
  | base (content : Bytes)
  | edit (call : Call)

namespace Writer

def handle (writer : Writer) (bytes : Bytes) : WriteHandle :=
  ⟨⟨bytes, writer.position⟩, writer.isModified, writer.baseDownloaded⟩

def follow (writer : Writer) (handle : WriteHandle) (point : CallPoint) : Writer :=
  { writer with
    position := handle.temp.position
    isModified := handle.isModified
    baseDownloaded := handle.baseDownloaded
    point := point }

/-- The arguments `release` passes to `enqueue_file_for_upload`. -/
def enqueueCall (writer : Writer) : Upload.EnqueueCall :=
  ⟨writer.fileId, writer.tempName, writer.isNew, writer.parentId, writer.name⟩

end Writer

namespace Origin

/-- The content the handle has made of its base. -/
def result (origin : Origin) : Bytes :=
  origin.edits.foldl (fun content call => (call.meaning content).2) origin.base

def note (origin : Origin) : Noted → Origin
  | .nothing => origin
  | .base content => { origin with base := content }
  | .edit call => { origin with edits := origin.edits ++ [call] }

end Origin

/-- What a call does to a handle whose base was ensured. -/
def applyCall (handle : WriteHandle) : Call → WriteHandle
  | .read length offset => (readTemp handle offset length).2
  | .write data offset => writeTemp handle data offset
  | .truncate length => truncateTemp handle length

/-- A read leaves no trace in the file. -/
def Call.noted : Call → Noted
  | .read _ _ => .nothing
  | call => .edit call

/-- `_ensure_downloaded` has the base. -/
def fetched (handle : WriteHandle) (data : Bytes) : WriteHandle :=
  { handle with temp := handle.temp.write data, baseDownloaded := true }

namespace State

/-! ## What the operations look at -/

/-- `resolve_path_to_drive_node_id` without the listings. -/
def resolvePathToDriveNodeId (rootId : Str) (state : State) (path : Str) : Option Str :=
  if path = ['/'] then some rootId else state.paths.lookup path

/-- The record `getattr` reports. -/
def getattr (rootId : Str) (state : State) (path : Str) : Option DriveNodeMetadata :=
  (state.resolvePathToDriveNodeId rootId path).bind state.store.cache.getMetadata

def journal (state : State) (tempName : Str) : Option Bytes :=
  state.uploads.files.lookup (.journal tempName)

def driveContent (state : State) (fileId : Str) : Bytes :=
  (state.store.chunks.drive fileId).map Coherence.Stamped.byte

/-- The content of the pending upload. -/
def pendingContent (state : State) (fileId : Str) : Option Bytes :=
  (state.uploads.queue.lookup fileId).bind fun job => state.uploads.files.lookup job.path

/-- The current content of a file. -/
def currentContent (state : State) (fileId : Str) : Bytes :=
  (state.pendingContent fileId).getD (state.driveContent fileId)

/-- The operations are served and the metadata cache is not locked. -/
def Serves (state : State) : Prop :=
  state.uploads.boot = .ready ∧ state.store.holder = none

instance (state : State) : Decidable state.Serves :=
  inferInstanceAs (Decidable (_ ∧ _))

/-- The number of a handle that was never given away or is free again. -/
def Unused (state : State) (fd : Nat) : Prop :=
  (state.writers fd).isNone ∧ (state.readers fd).isNone ∧ (state.closing fd).isNone ∧
    state.store.edits fd = .idle

instance (state : State) (fd : Nat) : Decidable (state.Unused fd) :=
  inferInstanceAs (Decidable (_ ∧ _))

/-! ## Updates -/

def setWriter (state : State) (fd : Nat) (writer : Option Writer) : State :=
  { state with writers := Function.update state.writers fd writer }

def setClosing (state : State) (fd : Nat) (closing : Option Closing) : State :=
  { state with closing := Function.update state.closing fd closing }

def setFile (state : State) (tempName : Str) (bytes : Bytes) : State :=
  { state with
    uploads := { state.uploads with
      files := state.uploads.files.insert (.journal tempName) bytes } }

def removeFile (state : State) (tempName : Str) : State :=
  { state with
    uploads := { state.uploads with
      files := state.uploads.files.erase (.journal tempName) } }

/-- A handle over a file that `tempfile.mkstemp` has just made. -/
def mkstemp (state : State) (fd : Nat) (writer : Writer) (origin : Origin) : State :=
  { (state.setFile writer.tempName []).setWriter fd (some writer) with
    origins := Function.update state.origins writer.tempName (some origin) }

/-- A handle and its file after a step of a call. -/
def setHandle (state : State) (fd : Nat) (writer : Writer) (bytes : Bytes) (noted : Noted) :
    State :=
  { (state.setFile writer.tempName bytes).setWriter fd (some writer) with
    origins := Function.update state.origins writer.tempName
      ((state.origins writer.tempName).map (·.note noted)) }

/-- `release` has returned. -/
def hold (state : State) (fd : Nat) (closing : Closing) : State :=
  { state.setClosing fd none with
    held := Function.update state.held closing.writer.fileId
      (some ⟨closing.content, closing.writer.isNew⟩) }

def setReading (state : State) (read : Nat) (reading : Reading) : State :=
  { state with readings := Function.update state.readings read (some reading) }

end State

/-! ## Steps of a call on a writing handle -/

/-- The content `_ensure_downloaded` fetches. -/
def State.fetches (state : State) (fileId : Str) : Option LocalPath → Option Bytes
  | some path => state.uploads.files.lookup path
  | none => some (state.driveContent fileId)

/-- One step of a call: the handle and the bytes of its file after it. -/
def callStep (state : State) (writer : Writer) (bytes : Bytes) (storageFails : Bool) :
    Option (Writer × Bytes × Noted) :=
  match writer.point with
  | .idle => none
  | .ensure call =>
      if writer.baseDownloaded then
        some ({ writer with point := .apply call }, bytes, .nothing)
      else if state.store.holder.isSome then none
      else
        match state.store.cache.getMetadata writer.fileId with
        | some node =>
            if 0 < node.size then
              some ({ writer with point := .locate call }, bytes, .nothing)
            else
              some ({ writer with baseDownloaded := true, point := .apply call }, bytes,
                .base (state.currentContent writer.fileId))
        | none =>
            some ({ writer with baseDownloaded := true, point := .apply call }, bytes,
              .base (state.currentContent writer.fileId))
  | .locate call =>
      if state.uploads.locked then none
      else
        match state.uploads.queue.lookup writer.fileId with
        | some job => some ({ writer with point := .probe call job.path }, bytes, .nothing)
        | none => some ({ writer with point := .fetch call none }, bytes, .nothing)
  | .probe call path =>
      match state.uploads.files.lookup path with
      | some _ => some ({ writer with point := .fetch call (some path) }, bytes, .nothing)
      | none => some ({ writer with point := .fetch call none }, bytes, .nothing)
  | .fetch call source =>
      match state.fetches writer.fileId source with
      | some data =>
          if storageFails ∧ source = none then
            some ({ writer with point := .idle }, bytes, .nothing)
          else
            let handle := fetched (writer.handle bytes) data
            some (writer.follow handle (.apply call), handle.temp.bytes,
              .base (state.currentContent writer.fileId))
      | none => some ({ writer with point := .idle }, bytes, .nothing)
  | .apply call =>
      let handle := applyCall (writer.handle bytes) call
      some (writer.follow handle .idle, handle.temp.bytes, call.noted)

/-! ## Steps of a `read` call on a reading handle -/

def readingStep (config : Cache.Config) (state : State) (read : Nat) (reading : Reading) :
    Option (ReadingPoint × Coherence.State UInt8) :=
  match reading.point with
  | .locate =>
      if state.uploads.locked then none
      else
        match state.uploads.queue.lookup reading.fileId with
        | some job => some (.probe job.path, state.store)
        | none => some (.stat, state.store)
  | .probe path =>
      match state.uploads.files.lookup path with
      | some _ => some (.openFile path, state.store)
      | none => some (.stat, state.store)
  | .openFile path =>
      match state.uploads.files.lookup path with
      | some data => some (.finished (slice data reading.offset reading.length), state.store)
      | none => some (.failed, state.store)
  | .stat =>
      match state.store.holder, state.store.cache.getMetadata reading.fileId with
      | some _, _ => none
      | none, none => some (.failed, state.store)
      | none, some _ =>
          (Coherence.step config state.store
            (.stat read reading.fileId reading.offset reading.length)).map fun store =>
              (.chunks, store)
  | .chunks =>
      match (state.store.chunks.readers read).map Cache.Reader.point with
      | some (.finished result) =>
          some (.finished (result.map Coherence.Stamped.byte), state.store)
      | some .failed => some (.failed, state.store)
      | _ => none
  | .finished _ | .failed => none

/-! ## The transition system -/

/-- `edit` are the steps of `release` in the metadata cache and the chunk
manager, `upload` and `store` those that the managers take by themselves, and
`map` and `unmap` what listings and the time to live do to the path cache. -/
inductive Label where
  | openWrite (fd : Nat) (path : Str) (isTruncate : Bool) (suffix : Str)
  | openRead (fd : Nat) (path : Str)
  | create (fd : Nat) (path uuid suffix : Str) (now index : Nat)
  | call (fd : Nat) (call : Call)
  | advance (fd : Nat) (storageFails : Bool)
  | release (fd : Nat)
  | edit (fd : Nat) (label : Coherence.Label UInt8)
  | enqueue (fd slot second : Nat)
  | enqueued (fd : Nat)
  | beginRead (read fd offset length : Nat)
  | advanceRead (read : Nat)
  | accept (slot : Nat) (nodeId : Str) (modified : Nat)
  | upload (label : Upload.Label)
  | store (label : Coherence.Label UInt8)
  | map (parentPath fileId : Str)
  | unmap (path : Str)
  | crash

/-- The steps of the upload manager that are not the beginning of an
`enqueue_file_for_upload` call and change nothing outside of it. -/
def isUploadStep : Upload.Label → Bool
  | .begin _ _ _ | .moveRaises _ | .reply _ (.accepted _) | .crash => false
  | _ => true

/-- The steps of the caches that are not part of an operation on a handle. -/
def isStoreStep : Coherence.Label UInt8 → Bool
  | .load _ _ | .unlock | .expire _ | .read _ | .chunks _ => true
  | .release _ _ | .assign _ _ _ | .store _ _ | .stored _ | .invalidate _ _ | .released _
  | .stat _ _ _ _ | .change _ _ _ => false

/-- The steps of one `release` call in the caches; it assigns the size of the
temp file. -/
def Closing.permits (closing : Closing) (fd : Nat) (size : Nat) :
    Coherence.Label UInt8 → Bool
  | .release edit fileId =>
      closing.point = .record ∧ edit = fd ∧ fileId = closing.writer.fileId
  | .assign edit newSize _ => closing.point = .record ∧ edit = fd ∧ newSize = size
  | .store edit _ | .stored edit => closing.point = .record ∧ edit = fd
  | .invalidate edit _ | .released edit => closing.point = .invalidate ∧ edit = fd
  | _ => false

/-- `release` can call `enqueue_file_for_upload`. -/
def State.readyToEnqueue (state : State) (fd : Nat) (closing : Closing) : Bool :=
  match closing.point with
  | .enqueue => true
  | .record => state.store.edits fd = .invalidate closing.writer.fileId
  | .enqueueing _ | .invalidate => false

namespace State

/-- A crash keeps the disk, Drive and the histories of the files. -/
def crash (state : State) : State where
  uploads := state.uploads.crash
  store :=
    { cache := ⟨∅, state.store.cache.objects, state.store.cache.nextObject⟩
      holder := none
      edits := fun _ => .idle
      pending := fun _ => none
      chunks :=
        { state.store.chunks with
          memory := .new state.store.chunks.memory.maxChunks
            state.store.chunks.memory.maxMemoryBytes
          tasks := []
          active := ∅
          activeLocked := false
          recent := ∅
          readers := fun _ => none
          invalidations := fun _ => .idle }
      modified := state.store.modified
      recorded := fun _ => none }
  paths := ∅
  nodes := state.nodes
  writers := fun _ => none
  readers := fun _ => none
  closing := fun _ => none
  readings := fun _ => none
  origins := state.origins
  held := fun _ => none

/-- The storage has issued an id for a new file, or has the content of a file
replaced. -/
def issue (state : State) (job : Upload.Job Bytes) (nodeId : Str) : Str → Option (Str × Str) :=
  match job.jobType with
  | .create =>
      Function.update state.nodes nodeId (some (job.parentId.getD [], job.name.getD []))
  | .update => state.nodes

/-- The node id an accepted request can come back with. -/
def Issues (state : State) (fileId nodeId : Str) : Upload.JobType → Prop
  | .create => (state.nodes nodeId).isNone
  | .update => nodeId = fileId

instance (state : State) (fileId nodeId : Str) (jobType : Upload.JobType) :
    Decidable (state.Issues fileId nodeId jobType) := by
  cases jobType <;> unfold Issues <;> infer_instance

end State

/-- `open`, for writing. -/
def openWriteStep (state : State) (fd : Nat) (path : Str) (isTruncate : Bool)
    (suffix : Str) : Option State :=
  match state.paths.lookup path with
  | some fileId =>
      let tempName := editJournalName fileId suffix
      if state.Serves ∧ state.Unused fd ∧ (state.journal tempName).isNone then
        some (state.mkstemp fd
          ⟨path, fileId, tempName, 0, isTruncate, isTruncate, false, none, none, .idle⟩
          ⟨fileId, false, isTruncate, [], []⟩)
      else none
  | none => none

/-- `create`, for a name that is not one of an editor's swap files. -/
def createStep (settings : Settings) (state : State) (fd : Nat) (path uuid suffix : Str)
    (now index : Nat) : Option State :=
  match state.resolvePathToDriveNodeId settings.rootId (dirname path) with
  | some parentId =>
      let name := basename path
      let fakeId := localPrefix ++ uuid
      let tempName := createJournalName parentId name suffix
      if state.Serves ∧ state.Unused fd ∧ (state.journal tempName).isNone then
        (Coherence.step settings.chunks state.store
          (.load ⟨fakeId, name, false, 0, now⟩ index)).map fun store =>
            { state with
              store := store
              paths := state.paths.insert path fakeId }.mkstemp fd
              ⟨path, fakeId, tempName, 0, true, true, true, some parentId, some name, .idle⟩
              ⟨fakeId, true, false, [], []⟩
      else none
  | none => none

/-- The beginning of `release`. -/
def releaseStep (state : State) (fd : Nat) : Option State :=
  match state.writers fd, state.readers fd with
  | some writer, _ =>
      match writer.point, state.journal writer.tempName with
      | .idle, some content =>
          let popped := state.setWriter fd none
          if writer.isNew then
            some (popped.setClosing fd (some ⟨writer, content, .enqueue⟩))
          else if writer.isModified then
            some (popped.setClosing fd (some ⟨writer, content, .record⟩))
          else some (popped.removeFile writer.tempName)
      | _, _ => none
  | none, some _ => some { state with readers := Function.update state.readers fd none }
  | none, none => none

/-- The later steps of `release`. -/
def closingStep (settings : Settings) (state : State) : Label → Option State
  | .edit fd label =>
      match state.closing fd with
      | some closing =>
          let size := ((state.journal closing.writer.tempName).getD []).length
          if closing.permits fd size label then
            (Coherence.step settings.chunks state.store label).map fun store =>
              match label with
              | .released _ => { state with store := store }.hold fd closing
              | _ => { state with store := store }
          else none
      | none => none
  | .enqueue fd slot second =>
      match state.closing fd with
      | some closing =>
          if state.readyToEnqueue fd closing then
            (Upload.step settings.maxRetries state.uploads
              (.begin slot closing.writer.enqueueCall second)).map fun uploads =>
                { state with uploads := uploads }.setClosing fd
                  (some { closing with point := .enqueueing slot })
          else none
      | none => none
  | .enqueued fd =>
      match state.closing fd with
      | some closing =>
          match closing.point with
          | .enqueueing slot =>
              match state.uploads.slots slot with
              | .enqueue _ _ _ _ => none
              | _ =>
                  if closing.writer.isNew then some (state.hold fd closing)
                  else some (state.setClosing fd (some { closing with point := .invalidate }))
          | _ => none
      | none => none
  | _ => none

/-- The storage accepts the request of an attempt. -/
def acceptStep (settings : Settings) (state : State) (slot : Nat) (nodeId : Str)
    (modified : Nat) : Option State :=
  match state.uploads.slots slot with
  | .attempt fileId job (.sent content) =>
      if state.Issues fileId nodeId job.jobType then
        (Upload.step settings.maxRetries state.uploads (.reply slot (.accepted nodeId))).bind
          fun uploads =>
            (Coherence.step settings.chunks state.store
              (.change nodeId content modified)).map fun store =>
                { state with
                  uploads := uploads
                  store := store
                  nodes := state.issue job nodeId }
      else none
  | _ => none

/-- The transition system. -/
def step (settings : Settings) (state : State) : Label → Option State
  | .openWrite fd path isTruncate suffix => openWriteStep state fd path isTruncate suffix
  | .openRead fd path =>
      match state.paths.lookup path with
      | some fileId =>
          if state.Serves ∧ state.Unused fd then
            some { state with readers := Function.update state.readers fd (some fileId) }
          else none
      | none => none
  | .create fd path uuid suffix now index =>
      createStep settings state fd path uuid suffix now index
  | .call fd call =>
      match state.writers fd with
      | some writer =>
          match writer.point with
          | .idle => some (state.setWriter fd (some { writer with point := .ensure call }))
          | _ => none
      | none => none
  | .advance fd storageFails =>
      match state.writers fd with
      | some writer =>
          (state.journal writer.tempName).bind fun bytes =>
            (callStep state writer bytes storageFails).map fun (later, content, noted) =>
              state.setHandle fd later content noted
      | none => none
  | .release fd => releaseStep state fd
  | label@(.edit _ _) | label@(.enqueue _ _ _) | label@(.enqueued _) =>
      closingStep settings state label
  | .beginRead read fd offset length =>
      match state.readers fd, state.readings read with
      | some fileId, none =>
          some (state.setReading read ⟨fileId, offset, length, .locate⟩)
      | _, _ => none
  | .advanceRead read =>
      match state.readings read with
      | some reading =>
          (readingStep settings.chunks state read reading).map fun (point, store) =>
            { state with store := store }.setReading read { reading with point := point }
      | none => none
  | .accept slot nodeId modified => acceptStep settings state slot nodeId modified
  | .upload label =>
      if isUploadStep label then
        (Upload.step settings.maxRetries state.uploads label).map fun uploads =>
          { state with uploads := uploads }
      else none
  | .store label =>
      if isStoreStep label then
        (Coherence.step settings.chunks state.store label).map fun store =>
          { state with store := store }
      else none
  | .map parentPath fileId =>
      match state.nodes fileId with
      | some (parentId, name) =>
          if state.Serves ∧
              state.resolvePathToDriveNodeId settings.rootId parentPath = some parentId then
            some { state with paths := state.paths.insert (join parentPath name) fileId }
          else none
      | none => none
  | .unmap path => some { state with paths := state.paths.erase path }
  | .crash => some state.crash

/-! ## What a step can do -/

/-- The effect of a step of a call on a writing handle. -/
inductive Advanced (state : State) (writer : Writer) (bytes : Bytes) :
    Writer → Bytes → Noted → Prop where
  | ensured {call} (point : writer.point = .ensure call)
      (downloaded : writer.baseDownloaded = true) :
      Advanced state writer bytes { writer with point := .apply call } bytes .nothing
  | unrecorded {call} (point : writer.point = .ensure call)
      (missing : writer.baseDownloaded = false)
      (empty : ∀ node, state.store.cache.getMetadata writer.fileId = some node → node.size = 0) :
      Advanced state writer bytes
        { writer with baseDownloaded := true, point := .apply call } bytes
        (.base (state.currentContent writer.fileId))
  | recorded {call node} (point : writer.point = .ensure call)
      (missing : writer.baseDownloaded = false)
      (found : state.store.cache.getMetadata writer.fileId = some node)
      (positive : 0 < node.size) :
      Advanced state writer bytes { writer with point := .locate call } bytes .nothing
  | pending {call job} (point : writer.point = .locate call)
      (unlocked : state.uploads.locked = false)
      (entry : state.uploads.queue.lookup writer.fileId = some job) :
      Advanced state writer bytes { writer with point := .probe call job.path } bytes .nothing
  | notPending {call} (point : writer.point = .locate call)
      (unlocked : state.uploads.locked = false)
      (absent : state.uploads.queue.lookup writer.fileId = none) :
      Advanced state writer bytes { writer with point := .fetch call none } bytes .nothing
  | there {call path data} (point : writer.point = .probe call path)
      (file : state.uploads.files.lookup path = some data) :
      Advanced state writer bytes { writer with point := .fetch call (some path) } bytes
        .nothing
  | gone {call path} (point : writer.point = .probe call path)
      (file : state.uploads.files.lookup path = none) :
      Advanced state writer bytes { writer with point := .fetch call none } bytes .nothing
  | fetched {call source data} (point : writer.point = .fetch call source)
      (read : state.fetches writer.fileId source = some data) :
      Advanced state writer bytes
        (writer.follow (fetched (writer.handle bytes) data) (.apply call))
        (fetched (writer.handle bytes) data).temp.bytes
        (.base (state.currentContent writer.fileId))
  | raised {call source} (point : writer.point = .fetch call source) :
      Advanced state writer bytes { writer with point := .idle } bytes .nothing
  | applied {call} (point : writer.point = .apply call) :
      Advanced state writer bytes
        (writer.follow (applyCall (writer.handle bytes) call) .idle)
        (applyCall (writer.handle bytes) call).temp.bytes call.noted

/-- The effect of a step of a `read` call on a reading handle. -/
inductive ReadAdvanced (config : Cache.Config) (state : State) (read : Nat)
    (reading : Reading) : ReadingPoint → Coherence.State UInt8 → Prop where
  | pending {job} (point : reading.point = .locate) (unlocked : state.uploads.locked = false)
      (entry : state.uploads.queue.lookup reading.fileId = some job) :
      ReadAdvanced config state read reading (.probe job.path) state.store
  | notPending (point : reading.point = .locate) (unlocked : state.uploads.locked = false)
      (absent : state.uploads.queue.lookup reading.fileId = none) :
      ReadAdvanced config state read reading .stat state.store
  | there {path data} (point : reading.point = .probe path)
      (file : state.uploads.files.lookup path = some data) :
      ReadAdvanced config state read reading (.openFile path) state.store
  | gone {path} (point : reading.point = .probe path)
      (file : state.uploads.files.lookup path = none) :
      ReadAdvanced config state read reading .stat state.store
  | readPending {path data} (point : reading.point = .openFile path)
      (file : state.uploads.files.lookup path = some data) :
      ReadAdvanced config state read reading
        (.finished (slice data reading.offset reading.length)) state.store
  | vanished {path} (point : reading.point = .openFile path)
      (file : state.uploads.files.lookup path = none) :
      ReadAdvanced config state read reading .failed state.store
  | stat {store} (point : reading.point = .stat)
      (asked : Coherence.Stepped config state.store
        (.stat read reading.fileId reading.offset reading.length) store) :
      ReadAdvanced config state read reading .chunks store
  | unrecorded (point : reading.point = .stat)
      (absent : state.store.cache.getMetadata reading.fileId = none) :
      ReadAdvanced config state read reading .failed state.store
  | returned {call result} (point : reading.point = .chunks)
      (reader : state.store.chunks.readers read = some ⟨call, .finished result⟩) :
      ReadAdvanced config state read reading
        (.finished (result.map Coherence.Stamped.byte)) state.store
  | raised {call} (point : reading.point = .chunks)
      (reader : state.store.chunks.readers read = some ⟨call, .failed⟩) :
      ReadAdvanced config state read reading .failed state.store

/-- The effect of every step. -/
inductive Stepped (settings : Settings) (state : State) : Label → State → Prop where
  | openWrite {fd path isTruncate suffix fileId} (serves : state.Serves)
      (unused : state.Unused fd) (found : state.paths.lookup path = some fileId)
      (fresh : state.journal (editJournalName fileId suffix) = none) :
      Stepped settings state (.openWrite fd path isTruncate suffix)
        (state.mkstemp fd
          ⟨path, fileId, editJournalName fileId suffix, 0, isTruncate, isTruncate, false,
            none, none, .idle⟩
          ⟨fileId, false, isTruncate, [], []⟩)
  | openRead {fd path fileId} (serves : state.Serves) (unused : state.Unused fd)
      (found : state.paths.lookup path = some fileId) :
      Stepped settings state (.openRead fd path)
        { state with readers := Function.update state.readers fd (some fileId) }
  | create {fd path uuid suffix now index parentId store} (serves : state.Serves)
      (unused : state.Unused fd)
      (parent : state.resolvePathToDriveNodeId settings.rootId (dirname path) = some parentId)
      (fresh : state.journal (createJournalName parentId (basename path) suffix) = none)
      (recorded : Coherence.Stepped settings.chunks state.store
        (.load ⟨localPrefix ++ uuid, basename path, false, 0, now⟩ index) store) :
      Stepped settings state (.create fd path uuid suffix now index)
        ({ state with
          store := store
          paths := state.paths.insert path (localPrefix ++ uuid) }.mkstemp fd
          ⟨path, localPrefix ++ uuid, createJournalName parentId (basename path) suffix, 0,
            true, true, true, some parentId, some (basename path), .idle⟩
          ⟨localPrefix ++ uuid, true, false, [], []⟩)
  | call {fd call writer} (opened : state.writers fd = some writer)
      (idle : writer.point = .idle) :
      Stepped settings state (.call fd call)
        (state.setWriter fd (some { writer with point := .ensure call }))
  | advance {fd storageFails writer bytes later content noted}
      (opened : state.writers fd = some writer)
      (file : state.journal writer.tempName = some bytes)
      (advanced : Advanced state writer bytes later content noted) :
      Stepped settings state (.advance fd storageFails)
        (state.setHandle fd later content noted)
  | releaseReader {fd fileId} (opened : state.readers fd = some fileId) :
      Stepped settings state (.release fd)
        { state with readers := Function.update state.readers fd none }
  | releaseNew {fd writer content} (opened : state.writers fd = some writer)
      (idle : writer.point = .idle) (file : state.journal writer.tempName = some content)
      (new : writer.isNew = true) :
      Stepped settings state (.release fd)
        ((state.setWriter fd none).setClosing fd (some ⟨writer, content, .enqueue⟩))
  | releaseModified {fd writer content} (opened : state.writers fd = some writer)
      (idle : writer.point = .idle) (file : state.journal writer.tempName = some content)
      (old : writer.isNew = false) (modified : writer.isModified = true) :
      Stepped settings state (.release fd)
        ((state.setWriter fd none).setClosing fd (some ⟨writer, content, .record⟩))
  | releaseUnmodified {fd writer content} (opened : state.writers fd = some writer)
      (idle : writer.point = .idle) (file : state.journal writer.tempName = some content)
      (old : writer.isNew = false) (unmodified : writer.isModified = false) :
      Stepped settings state (.release fd)
        ((state.setWriter fd none).removeFile writer.tempName)
  | edit {fd label closing store} (released : state.closing fd = some closing)
      (permitted : closing.permits fd
        ((state.journal closing.writer.tempName).getD []).length label = true)
      (unfinished : ∀ edit, label ≠ .released edit)
      (moved : Coherence.Stepped settings.chunks state.store label store) :
      Stepped settings state (.edit fd label) { state with store := store }
  | editReleased {fd closing store} (released : state.closing fd = some closing)
      (point : closing.point = .invalidate)
      (moved : Coherence.Stepped settings.chunks state.store (.released fd) store) :
      Stepped settings state (.edit fd (.released fd))
        ({ state with store := store }.hold fd closing)
  | enqueue {fd slot second closing uploads} (released : state.closing fd = some closing)
      (ready : state.readyToEnqueue fd closing = true)
      (begun : Upload.Stepped settings.maxRetries state.uploads
        (.begin slot closing.writer.enqueueCall second) uploads) :
      Stepped settings state (.enqueue fd slot second)
        ({ state with uploads := uploads }.setClosing fd
          (some { closing with point := .enqueueing slot }))
  | enqueuedNew {fd slot closing} (released : state.closing fd = some closing)
      (point : closing.point = .enqueueing slot)
      (returned : ∀ call serial content point,
        state.uploads.slots slot ≠ .enqueue call serial content point)
      (new : closing.writer.isNew = true) :
      Stepped settings state (.enqueued fd) (state.hold fd closing)
  | enqueuedEdit {fd slot closing} (released : state.closing fd = some closing)
      (point : closing.point = .enqueueing slot)
      (returned : ∀ call serial content point,
        state.uploads.slots slot ≠ .enqueue call serial content point)
      (old : closing.writer.isNew = false) :
      Stepped settings state (.enqueued fd)
        (state.setClosing fd (some { closing with point := .invalidate }))
  | beginRead {read fd offset length fileId} (opened : state.readers fd = some fileId)
      (unused : state.readings read = none) :
      Stepped settings state (.beginRead read fd offset length)
        (state.setReading read ⟨fileId, offset, length, .locate⟩)
  | advanceRead {read reading point store} (present : state.readings read = some reading)
      (advanced : ReadAdvanced settings.chunks state read reading point store) :
      Stepped settings state (.advanceRead read)
        ({ state with store := store }.setReading read { reading with point := point })
  | accept {slot nodeId modified fileId job content uploads store}
      (sent : state.uploads.slots slot = .attempt fileId job (.sent content))
      (issues : state.Issues fileId nodeId job.jobType)
      (replied : Upload.Stepped settings.maxRetries state.uploads
        (.reply slot (.accepted nodeId)) uploads)
      (changed : Coherence.Stepped settings.chunks state.store
        (.change nodeId content modified) store) :
      Stepped settings state (.accept slot nodeId modified)
        { state with
          uploads := uploads
          store := store
          nodes := state.issue job nodeId }
  | upload {label uploads} (background : isUploadStep label = true)
      (moved : Upload.Stepped settings.maxRetries state.uploads label uploads) :
      Stepped settings state (.upload label) { state with uploads := uploads }
  | store {label store} (background : isStoreStep label = true)
      (moved : Coherence.Stepped settings.chunks state.store label store) :
      Stepped settings state (.store label) { state with store := store }
  | map {parentPath fileId parentId name} (serves : state.Serves)
      (node : state.nodes fileId = some (parentId, name))
      (parent : state.resolvePathToDriveNodeId settings.rootId parentPath = some parentId) :
      Stepped settings state (.map parentPath fileId)
        { state with paths := state.paths.insert (join parentPath name) fileId }
  | unmap {path} :
      Stepped settings state (.unmap path) { state with paths := state.paths.erase path }
  | crash : Stepped settings state .crash state.crash

theorem advanced_of_callStep {state : State} {writer later : Writer} {bytes content : Bytes}
    {storageFails : Bool} {noted : Noted}
    (taken : callStep state writer bytes storageFails = some (later, content, noted)) :
    Advanced state writer bytes later content noted := by
  unfold callStep at taken
  split at taken
  · cases taken
  · rename_i call point
    split at taken
    · cases taken
      exact .ensured point ‹_›
    · rename_i notDownloaded
      have missing : writer.baseDownloaded = false := by simpa using notDownloaded
      split at taken
      · cases taken
      · split at taken
        · rename_i node found
          split at taken <;> cases taken
          · exact .recorded point missing found ‹_›
          · rename_i notPositive
            refine .unrecorded point missing fun other isOther => ?_
            rw [found, Option.some.injEq] at isOther
            rw [← isOther]
            exact Nat.eq_zero_of_not_pos notPositive
        · rename_i absent
          cases taken
          refine .unrecorded point missing fun other isOther => ?_
          rw [absent] at isOther
          cases isOther
  · rename_i call point
    split at taken
    · cases taken
    · rename_i locked
      have unlocked : state.uploads.locked = false := by simpa using locked
      split at taken <;> cases taken
      · exact .pending point unlocked ‹_›
      · exact .notPending point unlocked ‹_›
  · rename_i call path point
    split at taken <;> cases taken
    · exact .there point ‹_›
    · exact .gone point ‹_›
  · rename_i call source point
    split at taken
    · split at taken <;> cases taken
      · exact .raised point
      · exact .fetched point ‹_›
    · cases taken
      exact .raised point
  · rename_i call point
    cases taken
    exact .applied point

theorem readAdvanced_of_readingStep {config : Cache.Config} {state : State} {read : Nat}
    {reading : Reading} {point : ReadingPoint} {store : Coherence.State UInt8}
    (taken : readingStep config state read reading = some (point, store)) :
    ReadAdvanced config state read reading point store := by
  unfold readingStep at taken
  split at taken
  · rename_i isPoint
    split at taken
    · cases taken
    · rename_i locked
      have unlocked : state.uploads.locked = false := by simpa using locked
      split at taken <;> cases taken
      · exact .pending isPoint unlocked ‹_›
      · exact .notPending isPoint unlocked ‹_›
  · rename_i path isPoint
    split at taken <;> cases taken
    · exact .there isPoint ‹_›
    · exact .gone isPoint ‹_›
  · rename_i path isPoint
    split at taken <;> cases taken
    · exact .readPending isPoint ‹_›
    · exact .vanished isPoint ‹_›
  · rename_i isPoint
    split at taken
    · cases taken
    · cases taken
      exact .unrecorded isPoint ‹_›
    · simp only [Option.map_eq_some_iff] at taken
      obtain ⟨asked, success, same⟩ := taken
      cases same
      exact .stat isPoint (Coherence.stepped_of_step success)
  · rename_i isPoint
    cases present : state.store.chunks.readers read with
    | none => simp [present] at taken
    | some reader =>
        obtain ⟨call, readerPoint⟩ := reader
        simp only [present, Option.map_some] at taken
        split at taken <;> cases taken
        · rename_i isFinished
          cases isFinished
          exact .returned isPoint present
        · rename_i isFailed
          cases isFailed
          exact .raised isPoint present
  · cases taken
  · cases taken

theorem stepped_of_releaseStep {settings : Settings} {state next : State} {fd : Nat}
    (taken : releaseStep state fd = some next) :
    Stepped settings state (.release fd) next := by
  unfold releaseStep at taken
  split at taken
  · rename_i writer opened
    split at taken
    · rename_i content idle file
      simp only at taken
      split at taken
      · cases taken
        exact .releaseNew opened idle file ‹_›
      · rename_i notNew
        have old : writer.isNew = false := by simpa using notNew
        split at taken <;> cases taken
        · exact .releaseModified opened idle file old ‹_›
        · rename_i unmodified
          exact .releaseUnmodified opened idle file old (by simpa using unmodified)
    · cases taken
  · cases taken
    exact .releaseReader ‹_›
  · cases taken

theorem stepped_of_closingStep {settings : Settings} {state next : State} {label : Label}
    (taken : closingStep settings state label = some next) :
    Stepped settings state label next := by
  cases label <;> simp only [closingStep, reduceCtorEq] at taken
  case edit fd label =>
    split at taken
    · rename_i closing released
      split at taken
      · rename_i permitted
        simp only [Option.map_eq_some_iff] at taken
        obtain ⟨store, success, rfl⟩ := taken
        have moved := Coherence.stepped_of_step success
        split
        · rename_i edit
          simp only [Closing.permits, decide_eq_true_eq] at permitted
          obtain ⟨point, rfl⟩ := permitted
          exact .editReleased released point moved
        · rename_i unfinished
          exact .edit released permitted unfinished moved
      · cases taken
    · cases taken
  case enqueue fd slot second =>
    split at taken
    · split at taken
      · simp only [Option.map_eq_some_iff] at taken
        obtain ⟨uploads, success, rfl⟩ := taken
        exact .enqueue ‹_› ‹_› (Upload.stepped_of_step success)
      · cases taken
    · cases taken
  case enqueued fd =>
    split at taken
    · split at taken
      · split at taken
        · cases taken
        · rename_i returned
          split at taken <;> cases taken
          · exact .enqueuedNew ‹_› ‹_› returned ‹_›
          · rename_i notNew
            exact .enqueuedEdit ‹_› ‹_› returned (by simpa using notNew)
      · cases taken
    · cases taken

theorem stepped_of_step {settings : Settings} {state next : State} {label : Label}
    (taken : step settings state label = some next) : Stepped settings state label next := by
  cases label <;> simp only [step] at taken
  case openWrite fd path isTruncate suffix =>
    unfold openWriteStep at taken
    split at taken
    · simp only at taken
      split at taken <;> cases taken
      rename_i enabled
      exact .openWrite enabled.1 enabled.2.1 ‹_› (by simpa using enabled.2.2)
    · cases taken
  case openRead fd path =>
    split at taken
    · split at taken <;> cases taken
      rename_i enabled
      exact .openRead enabled.1 enabled.2 ‹_›
    · cases taken
  case create fd path uuid suffix now index =>
    unfold createStep at taken
    split at taken
    · simp only at taken
      split at taken
      · rename_i enabled
        simp only [Option.map_eq_some_iff] at taken
        obtain ⟨store, success, rfl⟩ := taken
        exact .create enabled.1 enabled.2.1 ‹_› (by simpa using enabled.2.2)
          (Coherence.stepped_of_step success)
      · cases taken
    · cases taken
  case call fd call =>
    split at taken
    · split at taken <;> cases taken
      exact .call ‹_› ‹_›
    · cases taken
  case advance fd storageFails =>
    split at taken
    · simp only [Option.bind_eq_some_iff, Option.map_eq_some_iff] at taken
      obtain ⟨bytes, file, ⟨later, content, noted⟩, success, rfl⟩ := taken
      exact .advance ‹_› file (advanced_of_callStep success)
    · cases taken
  case release fd => exact stepped_of_releaseStep taken
  case beginRead read fd offset length =>
    split at taken <;> cases taken
    exact .beginRead ‹_› ‹_›
  case advanceRead read =>
    split at taken
    · simp only [Option.map_eq_some_iff] at taken
      obtain ⟨⟨point, store⟩, success, rfl⟩ := taken
      exact .advanceRead ‹_› (readAdvanced_of_readingStep success)
    · cases taken
  case accept slot nodeId modified =>
    unfold acceptStep at taken
    split at taken
    · split at taken
      · simp only [Option.bind_eq_some_iff, Option.map_eq_some_iff] at taken
        obtain ⟨uploads, replied, store, changed, rfl⟩ := taken
        exact .accept ‹_› ‹_› (Upload.stepped_of_step replied)
          (Coherence.stepped_of_step changed)
      · cases taken
    · cases taken
  case upload label =>
    split at taken
    · simp only [Option.map_eq_some_iff] at taken
      obtain ⟨uploads, success, rfl⟩ := taken
      exact .upload ‹_› (Upload.stepped_of_step success)
    · cases taken
  case store label =>
    split at taken
    · simp only [Option.map_eq_some_iff] at taken
      obtain ⟨store, success, rfl⟩ := taken
      exact .store ‹_› (Coherence.stepped_of_step success)
    · cases taken
  case map parentPath fileId =>
    split at taken
    · split at taken <;> cases taken
      rename_i enabled
      exact .map enabled.1 ‹_› enabled.2
    · cases taken
  case unmap path =>
    cases taken
    exact .unmap
  case crash =>
    cases taken
    exact .crash
  all_goals exact stepped_of_closingStep taken

/-- Drive forgets no id it has issued. -/
theorem Stepped.nodes_kept {settings : Settings} {state next : State} {label : Label}
    {fileId : Str} (stepped : Stepped settings state label next)
    (issued : (state.nodes fileId).isSome) : (next.nodes fileId).isSome := by
  cases stepped with
  | @accept slot nodeId modified other job content uploads store sent issues replied changed =>
      change (state.issue job nodeId fileId).isSome
      unfold State.issue
      cases job.jobType with
      | create =>
          simp only [Function.update_apply]
          split
          · rfl
          · exact issued
      | update => exact issued
  | _ => exact issued

/-- A mount of a Drive with one file `f` in the root folder `r`, which the
caches know. -/
def mount (content : Bytes) : State where
  uploads := .ready ∅
  store :=
    { cache := ⟨AList.insert ['f'] 0 ∅, fun _ => ⟨['f'], ['f'], false, content.length, 0⟩, 1⟩
      holder := none
      edits := fun _ => .idle
      pending := fun _ => none
      chunks := .empty 20 (content.map fun byte => ⟨byte, 0⟩)
      modified := fun _ => 0
      recorded := fun _ => none }
  paths := AList.insert ['/', 'f'] ['f'] ∅
  nodes := fun fileId => if fileId = ['f'] then some (['r'], ['f']) else none
  writers := fun _ => none
  readers := fun _ => none
  closing := fun _ => none
  readings := fun _ => none
  origins := fun _ => none
  held := fun _ => none

def defaults : Settings := ⟨⟨4, by decide, false⟩, 5, ['r']⟩

end FuseDrive.Fuse
