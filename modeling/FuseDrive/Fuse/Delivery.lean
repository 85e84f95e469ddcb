import FuseDrive.Fuse.Handover
import Mathlib.Data.List.Find

/-!
# New files reach Drive once

`create` gives a file a placeholder id, under which `release` enqueues it;
Drive issues the real id when the upload arrives, and the path cache learns it
only from a listing.  A file that is saved again in the meantime is enqueued
under the placeholder, which Drive does not know.  This module says when a new
file ends up on Drive once, with what was released last.
-/

namespace FuseDrive.Fuse

open Transition

/-- A file that `create` makes. -/
structure NewFile where
  parentId : Str
  name : Str
  fakeId : Str

/-- Neither Drive nor the process has ever used the id. -/
structure State.Unknown (state : State) (id : Str) : Prop where
  nodes : state.nodes id = none
  owes : ∀ fd call, state.owes fd = some call → call.fileId ≠ id
  slots : ∀ index, (state.uploads.slots index).live ≠ some id
  queue : state.uploads.queue.lookup id = none
  enqueued : state.uploads.lastEnqueued id = none
  accepted : state.uploads.lastAccepted id = none

/-- Drive has issued the id, or it is that of the root folder. -/
def State.Issued (rootId : Str) (state : State) (id : Str) : Prop :=
  id = rootId ∨ (state.nodes id).isSome

/-- The id that the request of an attempt names. -/
def namedId (fileId : Str) (job : Upload.Job Bytes) : Str :=
  match job.jobType with
  | .create => job.parentId.getD []
  | .update => fileId

/-- The storage accepts what names an id it has issued, and rejects updates of
an id it has not.  The ids it issues are new. -/
def StorageAnswers (rootId : Str) (state : State) : Label → Prop
  | .accept slot nodeId _ => ∀ fileId job content,
      state.uploads.slots slot = .attempt fileId job (.sent content) →
      match job.jobType with
      | .create => state.Unknown nodeId
      | .update => state.Issued rootId fileId
  | .upload (.reply slot _) => ∀ fileId job content,
      state.uploads.slots slot = .attempt fileId job (.sent content) →
      ¬ state.Issued rootId (namedId fileId job)
  | _ => True

namespace NewFile

/-- The id is one of the file: its placeholder, or the id Drive has given it. -/
def HasId (file : NewFile) (state : State) (id : Str) : Prop :=
  id = file.fakeId ∨ state.nodes id = some (file.parentId, file.name)

/-- Every other `create` draws a new `uuid4` and makes another file. -/
def CreatedOnce (file : NewFile) (rootId : Str) (state : State) : Label → Prop
  | .create _ path uuid _ _ _ => state.Unknown (localPrefix ++ uuid) ∧
      ¬ (state.resolvePathToDriveNodeId rootId (dirname path) = some file.parentId ∧
        basename path = file.name)
  | _ => True

/-- A run of one process in which the storage answers, and the file is created
once and then only opened. -/
structure Continues (file : NewFile) (rootId : Str) (state : State) (label : Label) : Prop where
  answers : StorageAnswers rootId state label
  created : file.CreatedOnce rootId state label
  running : label ≠ .crash

/-- What `release` enqueues for the placeholder is the handle that `create`
gave out, and it enqueues the file while no attempt to upload it runs. -/
def HandsOver (file : NewFile) (state : State) : Label → Prop
  | .enqueue fd _ _ => ∀ closing, state.closing fd = some closing →
      file.HasId state closing.writer.fileId →
      (closing.writer.fileId = file.fakeId → closing.writer.isNew = true) ∧
        ∀ index, (state.uploads.slots index).attempting ≠ some closing.writer.fileId
  | _ => True

/-- No file of that name is there or on its way. -/
structure Absent (file : NewFile) (rootId : Str) (state : State) : Prop where
  unknown : state.Unknown file.fakeId
  parent : state.Issued rootId file.parentId
  nodes : ∀ id, state.nodes id ≠ some (file.parentId, file.name)
  owes : ∀ fd call, state.owes fd = some call → ¬ call.Creates file.parentId file.name
  queue : ∀ id job, state.uploads.queue.lookup id = some job →
    ¬ job.Creates file.parentId file.name
  slots : ∀ index, ¬ (state.uploads.slots index).Creates file.parentId file.name

/-- The newest `enqueue_file_for_upload` call for the file; its content is that
of the handle that was released. -/
def lastRelease (file : NewFile) (state : State) (nodeId : Str) :
    Option (Upload.Enqueued Bytes) :=
  state.uploads.enqueued.find? fun call => call.fileId = file.fakeId ∨ call.fileId = nodeId

/-- Drive has the file once, with the content released last, and the queue has
nothing of it. -/
def DeliveredOnce (file : NewFile) (state : State) : Prop :=
  ∃ nodeId release,
    (∀ id, state.nodes id = some (file.parentId, file.name) ↔ id = nodeId) ∧
    file.lastRelease state nodeId = some release ∧
    state.driveContent nodeId = release.content ∧
    state.uploads.queue.lookup file.fakeId = none ∧
    state.uploads.queue.lookup nodeId = none

end NewFile

/-- No handle is open for writing, no `release` runs, and no task and no timer
is left. -/
structure State.Quiescent (state : State) : Prop where
  writers : ∀ fd, state.writers fd = none
  closing : ∀ fd, state.closing fd = none
  slots : ∀ index, (state.uploads.slots index).live = none

/-! ## Who will enqueue the placeholder -/

section Owed

variable {settings : Settings} {file : NewFile} {state next : State}

/-- The handle that `create` gave out has not handed its file over. -/
def State.Creator (state : State) (id : Str) (fd : Nat) : Prop :=
  ∃ call, state.owes fd = some call ∧ call.isNew = true ∧ call.fileId = id

/-- One handle creates the file, and only it makes one of the name. -/
structure Owed (file : NewFile) (state : State) : Prop where
  sole : ∀ fd call, state.owes fd = some call → call.isNew = true →
    (call.Creates file.parentId file.name ↔ call.fileId = file.fakeId)
  waiting : state.uploads.lastEnqueued file.fakeId = none →
    ∃ fd, ∀ other, state.Creator file.fakeId other ↔ other = fd
  past : state.uploads.lastEnqueued file.fakeId ≠ none →
    ∀ fd, ¬ state.Creator file.fakeId fd

theorem Owed.keep (owed : Owed file state)
    (enqueued : next.uploads.enqueued = state.uploads.enqueued)
    (sole : ∀ fd call, next.owes fd = some call → call.isNew = true →
      (call.Creates file.parentId file.name ↔ call.fileId = file.fakeId))
    (creators : ∀ fd, next.Creator file.fakeId fd ↔ state.Creator file.fakeId fd) :
    Owed file next where
  sole := sole
  waiting := by
    intro never
    rw [Upload.lastEnqueued_congr enqueued] at never
    obtain ⟨fd, isFd⟩ := owed.waiting never
    exact ⟨fd, fun other => (creators other).trans (isFd other)⟩
  past := by
    intro called fd creator
    rw [Upload.lastEnqueued_congr enqueued] at called
    exact owed.past called fd ((creators fd).mp creator)

theorem Owed.change (owed : Owed file state) {fd : Nat} {call : Option Upload.EnqueueCall}
    (enqueued : next.uploads.enqueued = state.uploads.enqueued)
    (owes : ∀ other, next.owes other = if other = fd then call else state.owes other)
    (before : ¬ state.Creator file.fakeId fd)
    (own : ∀ found, call = some found → found.isNew = true →
      ¬ found.Creates file.parentId file.name ∧ found.fileId ≠ file.fakeId) :
    Owed file next := by
  refine owed.keep enqueued ?_ ?_
  · intro other found isOwed new
    rw [owes] at isOwed
    split at isOwed
    · obtain ⟨notCreates, different⟩ := own found isOwed new
      exact iff_of_false notCreates different
    · exact owed.sole other found isOwed new
  · intro other
    unfold State.Creator
    rw [owes]
    split
    · rename_i isFd
      rw [isFd]
      refine iff_of_false ?_ before
      rintro ⟨found, isCall, new, same⟩
      exact (own found isCall new).2 same
    · rfl

theorem State.not_creator_of_none {id : Str} {fd : Nat} (none : state.owes fd = none) :
    ¬ state.Creator id fd := by
  rintro ⟨call, isOwed, -⟩
  rw [none] at isOwed
  cases isOwed

theorem Owed.known (owed : Owed file state) : ¬ state.Unknown file.fakeId := by
  intro unknown
  obtain ⟨fd, isFd⟩ := owed.waiting unknown.enqueued
  obtain ⟨call, isOwed, -, same⟩ := (isFd fd).mpr rfl
  exact unknown.owes fd call isOwed same

/-- The file is handed over, or another one is. -/
theorem Owed.handed (owed : Owed file state) {fd slot second : Nat} {call : Upload.EnqueueCall}
    (isOwed : state.owes fd = some call) (hands : call.fileId = file.fakeId → call.isNew = true)
    (owes : ∀ other, next.owes other = if other = fd then none else state.owes other)
    (begun : Upload.Stepped settings.maxRetries state.uploads (.begin slot call second)
      next.uploads) : Owed file next := by
  obtain ⟨content, -, -, -, -, isBegun⟩ := begun.of_begin
  have enqueued : next.uploads.enqueued =
      call.enqueued state.uploads.nextSerial content :: state.uploads.enqueued := by
    rw [isBegun]
    exact Upload.enqueueBegin_enqueued ..
  have newest : next.uploads.lastEnqueued file.fakeId =
      if call.fileId = file.fakeId then some (call.enqueued state.uploads.nextSerial content)
      else state.uploads.lastEnqueued file.fakeId :=
    Upload.lastEnqueued_cons state.uploads enqueued file.fakeId
  have old (other : Nat) (creator : next.Creator file.fakeId other) :
      other ≠ fd ∧ state.Creator file.fakeId other := by
    obtain ⟨found, isFound, new, same⟩ := creator
    rw [owes] at isFound
    split at isFound
    · cases isFound
    · exact ⟨‹_›, found, isFound, new, same⟩
  have sole (other : Nat) (found : Upload.EnqueueCall) (isFound : next.owes other = some found)
      (new : found.isNew = true) :
      found.Creates file.parentId file.name ↔ found.fileId = file.fakeId := by
    rw [owes] at isFound
    split at isFound
    · cases isFound
    · exact owed.sole other found isFound new
  by_cases same : call.fileId = file.fakeId
  · -- the handle that creates the file hands it over, and no other one does
    have creator : state.Creator file.fakeId fd := ⟨call, isOwed, hands same, same⟩
    have never : state.uploads.lastEnqueued file.fakeId = none := by
      by_contra called
      exact owed.past called fd creator
    obtain ⟨owner, isOwner⟩ := owed.waiting never
    rw [if_pos same] at newest
    refine ⟨sole, fun none => ?_, fun _ other isCreator => ?_⟩
    · rw [newest] at none
      cases none
    · obtain ⟨notFd, wasCreator⟩ := old other isCreator
      exact notFd (((isOwner other).mp wasCreator).trans ((isOwner fd).mp creator).symm)
  · have notCreator : ¬ state.Creator file.fakeId fd := by
      rintro ⟨found, isFound, -, isFile⟩
      rw [isOwed] at isFound
      cases isFound
      exact same isFile
    have creators (other : Nat) : next.Creator file.fakeId other ↔
        state.Creator file.fakeId other := by
      refine ⟨fun creator => (old other creator).2, ?_⟩
      rintro ⟨found, isFound, new, isFile⟩
      refine ⟨found, ?_, new, isFile⟩
      rw [owes, if_neg]
      · exact isFound
      · rintro rfl
        exact notCreator ⟨found, isFound, new, isFile⟩
    rw [if_neg same] at newest
    refine ⟨sole, fun never => ?_, fun called other creator => ?_⟩
    · rw [newest] at never
      obtain ⟨owner, isOwner⟩ := owed.waiting never
      exact ⟨owner, fun other => (creators other).trans (isOwner other)⟩
    · rw [newest] at called
      exact owed.past called other ((creators other).mp creator)

/-- What `release` enqueues obeys the discipline. -/
theorem NewFile.HandsOver.isNew {fd slot second : Nat} {closing : Closing}
    (handsOver : file.HandsOver state (.enqueue fd slot second))
    (released : state.closing fd = some closing)
    (same : closing.writer.enqueueCall.fileId = file.fakeId) :
    closing.writer.enqueueCall.isNew = true :=
  (handsOver closing released (.inl same)).1 same

theorem Owed.step (owed : Owed file state) (ready : state.uploads.boot = .ready) {label : Label}
    (continues : file.Continues settings.rootId state label)
    (handsOver : file.HandsOver state label) (owing : Owing settings state next label)
    (moved : Moved settings state next label) : Owed file next := by
  cases owing with
  | kept notEnqueue same =>
      have creators (fd : Nat) : next.Creator file.fakeId fd ↔ state.Creator file.fakeId fd := by
        unfold State.Creator
        rw [same]
      refine owed.keep (moved.enqueued_eq ready notEnqueue) ?_ creators
      intro fd call isOwed
      rw [same] at isOwed
      exact owed.sole fd call isOwed
  | opened fresh old owes =>
      refine owed.change (moved.enqueued_eq ready nofun) owes (State.not_creator_of_none fresh) ?_
      intro found isFound new
      cases isFound
      rw [old] at new
      cases new
  | @created fd path uuid suffix now index parentId fresh parent owes =>
      obtain ⟨unknown, notFile⟩ := continues.created
      refine owed.change (moved.enqueued_eq ready nofun) owes (State.not_creator_of_none fresh) ?_
      intro found isFound _
      cases isFound
      constructor
      · rintro ⟨-, isParent, isName⟩
        exact notFile ⟨isParent ▸ parent, isName⟩
      · intro same
        exact owed.known (same ▸ unknown)
  | @discarded fd call isOwed old owes =>
      refine owed.change (moved.enqueued_eq ready nofun) owes ?_ (by simp)
      rintro ⟨found, isFound, new, -⟩
      rw [isOwed] at isFound
      cases isFound
      rw [old] at new
      cases new
  | handed owes =>
      cases moved with
      | aside notEnqueue notAccept uploads nodes drive => exact absurd rfl (notEnqueue _ _ _)
      | enqueue released isOwed begun nodes drive =>
          exact owed.handed isOwed (handsOver.isNew released) owes begun

end Owed

/-! ## Before and after the first upload -/

/-- Drive has no file of the name yet. -/
structure Unsent (file : NewFile) (state : State) : Prop where
  accepted : state.uploads.lastAccepted file.fakeId = none
  nodes : ∀ id, state.nodes id ≠ some (file.parentId, file.name)

/-- Drive has the file, and all that the process does for its id is to save it
again. -/
structure Sent (file : NewFile) (nodeId : Str) (state : State) : Prop where
  different : nodeId ≠ file.fakeId
  nodes : ∀ id, state.nodes id = some (file.parentId, file.name) ↔ id = nodeId
  served : Upload.Served nodeId state.uploads
  owes : ∀ fd call, state.owes fd = some call → call.fileId = nodeId → call.isNew = false
  updates : ∀ call, state.uploads.lastEnqueued nodeId = some call → call.jobType = .update
  called : ∀ upload, state.uploads.lastAccepted nodeId = some upload →
    state.uploads.lastEnqueued nodeId ≠ none
  created : state.uploads.lastAccepted file.fakeId ≠ none
  content : ∀ upload, (state.uploads.lastAccepted nodeId).or
    (state.uploads.lastAccepted file.fakeId) = some upload →
      state.driveContent nodeId = upload.content
  released : file.lastRelease state nodeId =
    (state.uploads.lastEnqueued nodeId).or (state.uploads.lastEnqueued file.fakeId)

section Phases

variable {settings : Settings} {file : NewFile} {nodeId : Str} {state next : State}

/-- The storage accepts what an attempt for an id has sent. -/
theorem delivers_of_answers {rootId id : Str} {maxRetries : Nat} {label : Upload.Label}
    {uploads : Upload.State Bytes} (background : isUploadStep label = true)
    (answers : StorageAnswers rootId state (.upload label))
    (moved : Upload.Stepped maxRetries state.uploads label uploads)
    (named : ∀ slot job content, state.uploads.slots slot = .attempt id job (.sent content) →
      state.Issued rootId (namedId id job)) : Upload.Delivers id state.uploads label := by
  cases moved with
  | @replyRejected index fileId job content slot | @replyQuota index fileId job content slot =>
      intro attempting
      rw [slot] at attempting
      cases attempting
      exact absurd (named _ _ _ slot) (answers _ _ _ slot)
  | begin _ _ _ _ | moveRaises _ _ | crash | replyAccepted _ => cases background
  | move _ | replace _ | submit _ | pickNothing _ _ _ | pick _ _ _ _ | checkExists _ _
  | checkMissing _ _ | read _ _ | readVanished _ _ | forget _ _ | popRemoved _
  | popMissing _ _ | failRetry _ _ _ | failOver _ _ _ | fire _ | start _ _ | recover _ _ _ _ _
  | recoverSkip _ _ | recovered _ _ | resume _ _ | sweepDone _ | sweep _ _ => trivial

theorem creates_of_attempt
    (creating : Upload.Creating file.fakeId file.parentId file.name state.uploads) {slot : Nat}
    {id : Str} {job : Upload.Job Bytes} {point : Upload.AttemptPoint Bytes}
    (isSlot : state.uploads.slots slot = .attempt id job point) :
    job.Creates file.parentId file.name ↔ id = file.fakeId := by
  have sole := creating.sole.slots slot
  rw [isSlot] at sole
  exact sole

theorem creating_moved
    (creating : Upload.Creating file.fakeId file.parentId file.name state.uploads)
    (owed : Owed file state) (ready : state.uploads.boot = .ready)
    (parent : state.Issued settings.rootId file.parentId) {label : Label}
    (continues : file.Continues settings.rootId state label)
    (handsOver : file.HandsOver state label) (moved : Moved settings state next label) :
    Upload.Creating file.fakeId file.parentId file.name next.uploads := by
  cases moved with
  | aside notEnqueue notAccept uploads nodes drive =>
      rw [uploads.files]
      exact creating.setFiles (uploads.setFiles creating.grounded) uploads.uploads
  | @enqueue fd slot second closing released isOwed begun nodes drive =>
      have new := handsOver.isNew released
      refine creating.step ready ?_ ?_ ?_ begun
      · exact fun same => same ▸ (handsOver closing released (.inl same)).2
      · intro same
        by_contra called
        exact owed.past called fd ⟨_, isOwed, new same, same⟩
      · by_cases isNew : closing.writer.enqueueCall.isNew = true
        · exact owed.sole fd _ isOwed isNew
        · exact iff_of_false (fun creates => isNew creates.1) fun same => isNew (new same)
  | accept sent issues replied nodes drive =>
      refine creating.step ready ?_ ?_ ?_ replied
      · exact fun _ => ⟨_, rfl⟩
      · trivial
      · trivial
  | @upload label background stepped nodes drive =>
      refine creating.step ready ?_ ?_ ?_ stepped
      · refine delivers_of_answers background continues.answers stepped ?_
        intro slot job content isSlot
        obtain ⟨isCreate, isParent, -⟩ := (creates_of_attempt creating isSlot).mpr rfl
        simp only [namedId, isCreate, isParent]
        exact parent
      all_goals
        cases label with
        | begin index call second => cases background
        | crash => cases background
        | _ => trivial

theorem Sent.update_of_attempt (sent : Sent file nodeId state) {slot : Nat}
    {job : Upload.Job Bytes} {point : Upload.AttemptPoint Bytes}
    (isSlot : state.uploads.slots slot = .attempt nodeId job point) :
    job.jobType = .update ∧ state.uploads.lastEnqueued nodeId = some (job.origin nodeId) := by
  have served := sent.served.slots slot
  rw [isSlot] at served
  have newest := (served rfl).newest
  exact ⟨sent.updates _ newest, newest⟩

theorem Sent.served_moved (sent : Sent file nodeId state)
    (grounded : Upload.Grounded state.uploads) (ready : state.uploads.boot = .ready)
    {label : Label} (continues : file.Continues settings.rootId state label)
    (handsOver : file.HandsOver state label) (moved : Moved settings state next label) :
    Upload.Served nodeId next.uploads := by
  have issued : state.nodes nodeId = some (file.parentId, file.name) :=
    (sent.nodes nodeId).mpr rfl
  cases moved with
  | aside notEnqueue notAccept uploads nodes drive =>
      rw [uploads.files]
      exact sent.served.setFiles grounded.placed (uploads.uploads nodeId)
  | @enqueue fd slot second closing released isOwed begun nodes drive =>
      refine sent.served.stepGrounded grounded ready ?_ begun
      intro same
      have hasId : file.HasId state closing.writer.fileId := .inr (by rw [← issued, ← same]; rfl)
      exact same ▸ (handsOver closing released hasId).2
  | accept isSent issues replied nodes drive =>
      refine sent.served.stepGrounded grounded ready ?_ replied
      exact fun _ => ⟨_, rfl⟩
  | upload background stepped nodes drive =>
      refine sent.served.stepGrounded grounded ready ?_ stepped
      refine delivers_of_answers background continues.answers stepped ?_
      intro slot job content isSlot
      simp only [namedId, (sent.update_of_attempt isSlot).1]
      exact .inr (by rw [issued]; rfl)

theorem Sent.owes_step (sent : Sent file nodeId state) {label : Label}
    (continues : file.Continues settings.rootId state label)
    (owing : Owing settings state next label) (fd : Nat) (call : Upload.EnqueueCall)
    (isOwed : next.owes fd = some call) (same : call.fileId = nodeId) : call.isNew = false := by
  cases owing with
  | kept notEnqueue kept =>
      rw [kept] at isOwed
      exact sent.owes fd call isOwed same
  | opened fresh old owes =>
      rw [owes] at isOwed
      split at isOwed
      · cases isOwed
        exact old
      · exact sent.owes fd call isOwed same
  | created fresh parent owes =>
      rw [owes] at isOwed
      split at isOwed
      · cases isOwed
        have unknown := continues.created.1.nodes
        rw [show localPrefix ++ _ = nodeId from same, (sent.nodes nodeId).mpr rfl] at unknown
        cases unknown
      · exact sent.owes fd call isOwed same
  | discarded isDiscarded old owes | handed owes =>
      rw [owes] at isOwed
      split at isOwed
      · cases isOwed
      · exact sent.owes fd call isOwed same

theorem NewFile.lastRelease_cons {call : Upload.Enqueued Bytes}
    (enqueued : next.uploads.enqueued = call :: state.uploads.enqueued) :
    file.lastRelease next nodeId =
      if call.fileId = file.fakeId ∨ call.fileId = nodeId then some call
      else file.lastRelease state nodeId := by
  rw [NewFile.lastRelease, enqueued, List.find?_cons]
  by_cases isFile : call.fileId = file.fakeId ∨ call.fileId = nodeId
  · simp [isFile]
  · simp [isFile, NewFile.lastRelease]

/-- While the storage accepts nothing, only the calls for the id matter. -/
theorem Sent.calm (sent : Sent file nodeId state) (served : Upload.Served nodeId next.uploads)
    (owes : ∀ fd call, next.owes fd = some call → call.fileId = nodeId → call.isNew = false)
    (same : next.nodes = state.nodes ∧ next.driveContent = state.driveContent ∧
      next.uploads.accepted = state.uploads.accepted)
    (updates : ∀ call, next.uploads.lastEnqueued nodeId = some call → call.jobType = .update)
    (called : state.uploads.lastEnqueued nodeId ≠ none →
      next.uploads.lastEnqueued nodeId ≠ none)
    (released : file.lastRelease next nodeId =
      (next.uploads.lastEnqueued nodeId).or (next.uploads.lastEnqueued file.fakeId)) :
    Sent file nodeId next := by
  obtain ⟨nodes, drive, accepted⟩ := same
  have sameAccepted := Upload.lastAccepted_congr accepted
  refine ⟨sent.different, ?_, served, owes, updates, ?_, ?_, ?_, released⟩
  · rw [nodes]
    exact sent.nodes
  · intro upload isUpload
    rw [sameAccepted] at isUpload
    exact called (sent.called upload isUpload)
  · rw [sameAccepted]
    exact sent.created
  · rw [sameAccepted, sameAccepted, drive]
    exact sent.content

theorem Sent.enqueue (sent : Sent file nodeId state)
    (creating : Upload.Creating file.fakeId file.parentId file.name state.uploads)
    (owed : Owed file state) {fd slot second : Nat} {closing : Closing}
    (served : Upload.Served nodeId next.uploads)
    (owes : ∀ fd call, next.owes fd = some call → call.fileId = nodeId → call.isNew = false)
    (same : next.nodes = state.nodes ∧ next.driveContent = state.driveContent ∧
      next.uploads.accepted = state.uploads.accepted)
    (handsOver : file.HandsOver state (.enqueue fd slot second))
    (released : state.closing fd = some closing)
    (isOwed : state.owes fd = some closing.writer.enqueueCall)
    (begun : Upload.Stepped settings.maxRetries state.uploads
      (.begin slot closing.writer.enqueueCall second) next.uploads) :
    Sent file nodeId next := by
  obtain ⟨content, -, -, -, -, isBegun⟩ := begun.of_begin
  generalize isCall : closing.writer.enqueueCall = call at isBegun isOwed
  have enqueued : next.uploads.enqueued =
      call.enqueued state.uploads.nextSerial content :: state.uploads.enqueued := by
    rw [isBegun]
    exact Upload.enqueueBegin_enqueued ..
  have newest (id : Str) : next.uploads.lastEnqueued id =
      if call.fileId = id then some (call.enqueued state.uploads.nextSerial content)
      else state.uploads.lastEnqueued id :=
    Upload.lastEnqueued_cons state.uploads enqueued id
  have last : file.lastRelease next nodeId =
      if call.fileId = file.fakeId ∨ call.fileId = nodeId then
        some (call.enqueued state.uploads.nextSerial content)
      else file.lastRelease state nodeId := NewFile.lastRelease_cons enqueued
  -- the placeholder has been enqueued before, and that happens once
  have notFake : call.fileId ≠ file.fakeId := by
    intro isFake
    obtain ⟨upload, isUpload⟩ := Option.ne_none_iff_exists'.mp sent.created
    have creator : state.Creator file.fakeId fd :=
      ⟨call, isOwed, isCall ▸ handsOver.isNew released (isCall ▸ isFake), isFake⟩
    exact owed.past (creating.once.sent upload isUpload).1 fd creator
  refine sent.calm served owes same ?_ ?_ ?_
  · intro found isFound
    rw [newest] at isFound
    split at isFound
    · rename_i isNode
      cases isFound
      simp [Upload.EnqueueCall.enqueued, Upload.EnqueueCall.jobType,
        sent.owes fd call isOwed isNode]
    · exact sent.updates found isFound
  · intro called
    rw [newest]
    split
    · simp
    · exact called
  · rw [last, newest, newest, if_neg notFake]
    by_cases isNode : call.fileId = nodeId
    · rw [if_pos (.inr isNode), if_pos isNode]
      rfl
    · rw [if_neg (not_or.mpr ⟨notFake, isNode⟩), if_neg isNode]
      exact sent.released

/-- An upload under another name or of a known file changes nothing about the
name. -/
theorem State.issue_eq_some_iff {fileId issued parentId name : Str} {job : Upload.Job Bytes}
    (issues : state.Issues fileId issued job.jobType) (notCreates : ¬ job.Creates parentId name)
    (id : Str) :
    state.issue job issued id = some (parentId, name) ↔ state.nodes id = some (parentId, name) := by
  unfold State.issue
  cases isType : job.jobType with
  | create =>
      rw [isType] at issues
      simp only [Function.update_apply]
      split
      · rename_i isIssued
        refine iff_of_false ?_ ?_
        · intro isFile
          rw [Option.some.injEq, Prod.mk.injEq] at isFile
          exact notCreates ⟨isType, isFile⟩
        · rw [isIssued, Option.isNone_iff_eq_none.mp issues]
          nofun
      · rfl
  | update => rfl

theorem histories_of_accepted {maxRetries slot : Nat} {fileId issued : Str}
    {job : Upload.Job Bytes} {content : Bytes}
    (isSlot : state.uploads.slots slot = .attempt fileId job (.sent content))
    (replied : Upload.Stepped maxRetries state.uploads (.reply slot (.accepted issued))
      next.uploads) :
    next.uploads.enqueued = state.uploads.enqueued ∧
      ∃ upload : Upload.Accepted Bytes, upload.content = content ∧ ∀ id,
        next.uploads.lastAccepted id =
          if fileId = id then some upload else state.uploads.lastAccepted id := by
  have isNext := replied.of_accepted isSlot
  refine ⟨by rw [isNext]; rfl,
    ⟨job.jobType, fileId, issued, job.serial, job.parentId, job.name, content⟩, rfl,
    fun id => ?_⟩
  rw [isNext]
  exact Upload.lastAccepted_cons state.uploads
    (Upload.recordAccepted_accepted state.uploads fileId issued job content) id

theorem Sent.accept (sent : Sent file nodeId state)
    (creating : Upload.Creating file.fakeId file.parentId file.name state.uploads)
    {slot : Nat} {fileId issued : Str} {job : Upload.Job Bytes} {content : Bytes}
    (served : Upload.Served nodeId next.uploads)
    (owes : ∀ fd call, next.owes fd = some call → call.fileId = nodeId → call.isNew = false)
    (isSlot : state.uploads.slots slot = .attempt fileId job (.sent content))
    (issues : state.Issues fileId issued job.jobType)
    (replied : Upload.Stepped settings.maxRetries state.uploads
      (.reply slot (.accepted issued)) next.uploads)
    (nodes : next.nodes = state.issue job issued)
    (drive : ∀ id, next.driveContent id = if id = issued then content else state.driveContent id) :
    Sent file nodeId next := by
  obtain ⟨enqueued, upload, isContent, newer⟩ := histories_of_accepted isSlot replied
  have sameEnqueued := Upload.lastEnqueued_congr enqueued
  have notFake : fileId ≠ file.fakeId := by
    rintro rfl
    obtain ⟨earlier, isEarlier⟩ := Option.ne_none_iff_exists'.mp sent.created
    have accepting := (creating.once.sent earlier isEarlier).2 slot
    rw [isSlot] at accepting
    cases accepting rfl
  have known : (state.nodes nodeId).isSome := by
    rw [(sent.nodes nodeId).mpr rfl]
    rfl
  -- the answer names the id exactly when the upload is one of the file
  have isNode : issued = nodeId ↔ fileId = nodeId := by
    cases isType : job.jobType with
    | create =>
        rw [isType] at issues
        refine iff_of_false ?_ ?_
        · rintro rfl
          rw [Option.isNone_iff_eq_none.mp issues] at known
          cases known
        · rintro rfl
          rw [(sent.update_of_attempt isSlot).1] at isType
          cases isType
    | update =>
        rw [isType] at issues
        rw [show issued = fileId from issues]
  refine ⟨sent.different, fun id => ?_, served, owes, ?_, ?_, ?_, ?_, ?_⟩
  · rw [nodes, State.issue_eq_some_iff issues]
    · exact sent.nodes id
    · exact fun creates => notFake ((creates_of_attempt creating isSlot).mp creates)
  · rw [sameEnqueued]
    exact sent.updates
  · intro later isLater
    rw [sameEnqueued]
    rw [newer] at isLater
    split at isLater
    · rename_i same
      subst same
      rw [(sent.update_of_attempt isSlot).2]
      simp
    · exact sent.called later isLater
  · rw [newer, if_neg notFake]
    exact sent.created
  · intro later isLater
    rw [newer, newer, if_neg notFake] at isLater
    rw [drive]
    by_cases same : fileId = nodeId
    · rw [if_pos same, Option.some_or, Option.some.injEq] at isLater
      rw [if_pos (isNode.mpr same).symm, ← isLater, isContent]
    · rw [if_neg same] at isLater
      rw [if_neg fun isIssued => same (isNode.mp isIssued.symm)]
      exact sent.content later isLater
  · rw [sameEnqueued, sameEnqueued, NewFile.lastRelease, enqueued]
    exact sent.released

theorem Sent.step (sent : Sent file nodeId state)
    (creating : Upload.Creating file.fakeId file.parentId file.name state.uploads)
    (owed : Owed file state) (ready : state.uploads.boot = .ready) {label : Label}
    (continues : file.Continues settings.rootId state label)
    (handsOver : file.HandsOver state label) (owing : Owing settings state next label)
    (moved : Moved settings state next label) : Sent file nodeId next := by
  have served := sent.served_moved creating.grounded ready continues handsOver moved
  have owes := sent.owes_step continues owing
  have drives := moved.drive_eq ready
  have calls := moved.enqueued_eq ready
  -- where nothing is enqueued and nothing accepted, nothing changes
  have calm (notEnqueue : ∀ fd slot second, label ≠ .enqueue fd slot second)
      (notAccept : ∀ slot id modified, label ≠ .accept slot id modified) :
      Sent file nodeId next := by
    have sameEnqueued := Upload.lastEnqueued_congr (calls notEnqueue)
    refine sent.calm served owes (drives notAccept) ?_ ?_ ?_
    · rw [sameEnqueued]
      exact sent.updates
    · rw [sameEnqueued]
      exact id
    · rw [sameEnqueued, sameEnqueued, NewFile.lastRelease, calls notEnqueue]
      exact sent.released
  cases moved with
  | aside notEnqueue notAccept uploads nodes drive => exact calm notEnqueue notAccept
  | enqueue released isOwed begun nodes drive =>
      exact sent.enqueue creating owed served owes (drives nofun) handsOver released isOwed begun
  | accept isSlot issues replied nodes drive =>
      exact sent.accept creating served owes isSlot issues replied nodes drive
  | upload background stepped nodes drive => exact calm nofun nofun

/-- Nothing was enqueued for an id that Drive has just issued. -/
theorem NewFile.lastRelease_of_never (never : state.uploads.lastEnqueued nodeId = none) :
    file.lastRelease state nodeId = state.uploads.lastEnqueued file.fakeId := by
  refine List.find?_congr fun call member => ?_
  have other : call.fileId ≠ nodeId := by
    simpa using List.find?_eq_none.mp never call member
  simp [other]

theorem Unsent.accept (unsent : Unsent file state)
    (creating : Upload.Creating file.fakeId file.parentId file.name state.uploads)
    (ready : state.uploads.boot = .ready) {slot modified : Nat} {fileId issued : Str}
    {job : Upload.Job Bytes} {content : Bytes}
    (answers : StorageAnswers settings.rootId state (.accept slot issued modified))
    (owes : ∀ fd, next.owes fd = state.owes fd)
    (isSlot : state.uploads.slots slot = .attempt fileId job (.sent content))
    (issues : state.Issues fileId issued job.jobType)
    (replied : Upload.Stepped settings.maxRetries state.uploads
      (.reply slot (.accepted issued)) next.uploads)
    (nodes : next.nodes = state.issue job issued)
    (drive : ∀ id, next.driveContent id = if id = issued then content else state.driveContent id) :
    Unsent file next ∨ Sent file issued next := by
  obtain ⟨enqueued, upload, isContent, newer⟩ := histories_of_accepted isSlot replied
  have sameEnqueued := Upload.lastEnqueued_congr enqueued
  by_cases isFake : fileId = file.fakeId
  · right
    subst isFake
    obtain ⟨isCreate, isParent, isName⟩ := (creates_of_attempt creating isSlot).mpr rfl
    have unknown : state.Unknown issued := by
      have answered := answers _ job content isSlot
      simp only [isCreate] at answered
      exact answered
    have different : issued ≠ file.fakeId := by
      rintro rfl
      have idle := unknown.slots slot
      rw [isSlot] at idle
      exact idle rfl
    have neverAccepted : next.uploads.lastAccepted issued = none := by
      rw [newer, if_neg (Ne.symm different)]
      exact unknown.accepted
    have neverEnqueued : next.uploads.lastEnqueued issued = none := by
      rw [sameEnqueued]
      exact unknown.enqueued
    refine ⟨different, fun id => ?_, ?_, ?_, ?_, ?_, ?_, ?_, ?_⟩
    · rw [nodes, State.issue, isCreate]
      simp only [Function.update_apply, isParent, isName]
      split
      · exact iff_of_true rfl ‹_›
      · exact iff_of_false (unsent.nodes id) ‹_›
    · have served : Upload.Served issued state.uploads :=
        .of_unknown unknown.queue
          (fun other => Upload.Slot.not_touches_of_idle (unknown.slots other)) unknown.enqueued
      refine served.stepGrounded creating.grounded ready ?_ replied
      exact fun _ => ⟨_, rfl⟩
    · intro fd call isOwed same
      rw [owes] at isOwed
      exact absurd same (unknown.owes fd call isOwed)
    · simp [neverEnqueued]
    · simp [neverAccepted]
    · rw [newer, if_pos rfl]
      simp
    · intro later isLater
      rw [neverAccepted, Option.none_or, newer, if_pos rfl, Option.some.injEq] at isLater
      rw [drive, if_pos rfl, ← isLater, isContent]
    · rw [neverEnqueued, Option.none_or]
      exact NewFile.lastRelease_of_never neverEnqueued
  · left
    refine ⟨?_, fun id => ?_⟩
    · rw [newer, if_neg isFake]
      exact unsent.accepted
    · rw [nodes]
      intro isFile
      have notCreates : ¬ job.Creates file.parentId file.name :=
        fun creates => isFake ((creates_of_attempt creating isSlot).mp creates)
      exact unsent.nodes id ((State.issue_eq_some_iff issues notCreates id).mp isFile)

theorem Unsent.step (unsent : Unsent file state)
    (creating : Upload.Creating file.fakeId file.parentId file.name state.uploads)
    (ready : state.uploads.boot = .ready) {label : Label}
    (continues : file.Continues settings.rootId state label)
    (owing : Owing settings state next label) (moved : Moved settings state next label) :
    Unsent file next ∨ ∃ nodeId, Sent file nodeId next := by
  have drives := moved.drive_eq ready
  have calm (notAccept : ∀ slot id modified, label ≠ .accept slot id modified) :
      Unsent file next := by
    obtain ⟨nodes, -, accepted⟩ := drives notAccept
    refine ⟨?_, nodes ▸ unsent.nodes⟩
    rw [Upload.lastAccepted_congr accepted]
    exact unsent.accepted
  cases moved with
  | aside notEnqueue notAccept uploads nodes drive => exact .inl (calm notAccept)
  | enqueue released isOwed begun nodes drive => exact .inl (calm nofun)
  | upload background stepped nodes drive => exact .inl (calm nofun)
  | accept isSlot issues replied nodes drive =>
      cases owing with
      | kept notEnqueue owes =>
          exact (unsent.accept creating ready continues.answers owes isSlot issues replied nodes
            drive).imp_right fun sent => ⟨_, sent⟩

end Phases

/-! ## The whole run -/

section Making

variable {settings : Settings} {file : NewFile} {state next : State}

/-- What holds from the creation of the file on. -/
structure Making (settings : Settings) (file : NewFile) (state : State) : Prop where
  journaled : Journaled state
  ready : state.uploads.boot = .ready
  parent : state.Issued settings.rootId file.parentId
  creating : Upload.Creating file.fakeId file.parentId file.name state.uploads
  owed : Owed file state
  phase : Unsent file state ∨ ∃ nodeId, Sent file nodeId state

theorem Making.step (making : Making settings file state) {label : Label}
    (continues : file.Continues settings.rootId state label)
    (handsOver : file.HandsOver state label) (stepped : Stepped settings state label next) :
    Making settings file next := by
  have moved := making.journaled.moved stepped continues.running
  have owing := making.journaled.owing stepped continues.running
  constructor
  · exact making.journaled.step stepped
  · exact moved.boot_ready making.ready
  · exact making.parent.imp_right stepped.nodes_kept
  · exact creating_moved making.creating making.owed making.ready making.parent continues handsOver
      moved
  · exact making.owed.step making.ready continues handsOver owing moved
  · rcases making.phase with unsent | ⟨nodeId, sent⟩
    · exact unsent.step making.creating making.ready continues owing moved
    · exact .inr ⟨nodeId, sent.step making.creating making.owed making.ready continues handsOver
        owing moved⟩

/-- When nothing is left to do, Drive has the file. -/
theorem Making.delivered (making : Making settings file state) (quiescent : state.Quiescent) :
    file.DeliveredOnce state := by
  have attended := making.creating.grounded.attended
  obtain ⟨noFake, uploaded⟩ :=
    making.creating.served.settled attended making.ready quiescent.slots
  have nothingOwed (fd : Nat) : state.owes fd = none := by
    simp [State.owes, quiescent.writers fd, quiescent.closing fd]
  obtain ⟨created, isCreated⟩ : ∃ last, state.uploads.lastEnqueued file.fakeId = some last := by
    refine Option.ne_none_iff_exists'.mp fun never => ?_
    obtain ⟨fd, isFd⟩ := making.owed.waiting never
    exact State.not_creator_of_none (nothingOwed fd) ((isFd fd).mpr rfl)
  obtain ⟨upload, isUpload, isOrigin⟩ := uploaded created isCreated
  rcases making.phase with unsent | ⟨nodeId, sent⟩
  · rw [unsent.accepted] at isUpload
    cases isUpload
  · obtain ⟨noEntry, resaved⟩ := sent.served.settled attended making.ready quiescent.slots
    cases saved : state.uploads.lastEnqueued nodeId with
    | some last =>
        obtain ⟨later, isLater, sameOrigin⟩ := resaved last saved
        refine ⟨nodeId, last, sent.nodes, ?_, ?_, noFake, noEntry⟩
        · rw [sent.released, saved, Option.some_or]
        · rw [sent.content later (by rw [isLater, Option.some_or]), ← sameOrigin]
          rfl
    | none =>
        have neverAccepted : state.uploads.lastAccepted nodeId = none := by
          by_contra isAccepted
          obtain ⟨later, isLater⟩ := Option.ne_none_iff_exists'.mp isAccepted
          exact sent.called later isLater saved
        refine ⟨nodeId, created, sent.nodes, ?_, ?_, noFake, noEntry⟩
        · rw [sent.released, saved, Option.none_or, isCreated]
        · rw [sent.content upload (by rw [neverAccepted, Option.none_or, isUpload]), ← isOrigin]
          rfl

theorem Owed.of_create {fd : Nat} {tempName : Str}
    (unknown : state.Unknown file.fakeId)
    (others : ∀ other call, state.owes other = some call →
      ¬ call.Creates file.parentId file.name)
    (enqueued : next.uploads.enqueued = state.uploads.enqueued)
    (owes : ∀ other, next.owes other =
      if other = fd then some ⟨file.fakeId, tempName, true, some file.parentId, some file.name⟩
      else state.owes other) : Owed file next := by
  have never : next.uploads.lastEnqueued file.fakeId = none := by
    rw [Upload.lastEnqueued_congr enqueued]
    exact unknown.enqueued
  refine ⟨?_, fun _ => ⟨fd, fun other => ?_⟩, fun called => absurd never called⟩
  · intro other call isOwed _
    rw [owes] at isOwed
    split at isOwed
    · cases isOwed
      exact iff_of_true ⟨rfl, rfl, rfl⟩ rfl
    · exact iff_of_false (others other call isOwed) (unknown.owes other call isOwed)
  · unfold State.Creator
    rw [owes]
    split
    · exact iff_of_true ⟨_, rfl, rfl, rfl⟩ ‹_›
    · refine iff_of_false ?_ ‹_›
      rintro ⟨call, isOwed, -, isFile⟩
      exact unknown.owes other call isOwed isFile

/-- `create` begins the story of the file. -/
theorem NewFile.Absent.making {fd now index : Nat} {path uuid suffix parentId : Str}
    (absent : NewFile.Absent ⟨parentId, basename path, localPrefix ++ uuid⟩ settings.rootId state)
    (grounded : Grounded state)
    (parent : state.resolvePathToDriveNodeId settings.rootId (dirname path) = some parentId)
    (stepped : Stepped settings state (.create fd path uuid suffix now index) next) :
    Making settings ⟨parentId, basename path, localPrefix ++ uuid⟩ next := by
  have moved := grounded.journaled.moved stepped nofun
  have unknown := absent.unknown
  have journaled := grounded.journaled.step stepped
  have issued := absent.parent.imp_right stepped.nodes_kept
  have created : Upload.Creating (localPrefix ++ uuid) parentId (basename path) state.uploads :=
    .of_unknown grounded.uploads unknown.queue unknown.slots unknown.enqueued unknown.accepted
      absent.queue absent.slots
  cases stepped with
  | create serves unused isFound fresh recorded =>
      rw [parent, Option.some.injEq] at isFound
      subst isFound
      have enqueued := moved.enqueued_eq serves.1 nofun
      obtain ⟨nodes, -, accepted⟩ := moved.drive_eq serves.1 nofun
      refine ⟨journaled, moved.boot_ready serves.1, issued, ?_, ?_, .inl ⟨?_, ?_⟩⟩
      · cases moved with
        | aside notEnqueue notAccept uploads nodes drive =>
            rw [uploads.files]
            exact created.setFiles (uploads.setFiles grounded.uploads) uploads.uploads
      · exact .of_create unknown absent.owes enqueued fun other => State.owes_mkstemp _ _ _ other
      · rw [Upload.lastAccepted_congr accepted]
        exact unknown.accepted
      · rw [nodes]
        exact absent.nodes

/-- A file that was created through the mount, in any run, and then saved again
any number of times ends up on Drive once, with what was released last, when
every release of it hands over what Drive will know the file by. -/
theorem new_file_delivered_once {start before after finish : State} {fd now index : Nat}
    {path uuid suffix parentId : Str} (mounted : Mounted start)
    (off : start.uploads.boot = .off)
    (reached : Reaches (Fuse.step settings) (fun _ _ => True) start before)
    (parent : before.resolvePathToDriveNodeId settings.rootId (dirname path) = some parentId)
    (absent : NewFile.Absent ⟨parentId, basename path, localPrefix ++ uuid⟩ settings.rootId before)
    (created : Fuse.step settings before (.create fd path uuid suffix now index) = some after)
    (saved : Reaches (Fuse.step settings)
      (fun state label =>
        NewFile.Continues ⟨parentId, basename path, localPrefix ++ uuid⟩ settings.rootId state
            label ∧
          NewFile.HandsOver ⟨parentId, basename path, localPrefix ++ uuid⟩ state label)
      after finish)
    (quiescent : finish.Quiescent) :
    NewFile.DeliveredOnce ⟨parentId, basename path, localPrefix ++ uuid⟩ finish := by
  have grounded := mounted.grounded_of_reaches off reached
  have making := absent.making grounded parent (stepped_of_step created)
  have rest : Making settings ⟨parentId, basename path, localPrefix ++ uuid⟩ finish :=
    saved.invariant (fun making allowed taken =>
      making.step allowed.1 allowed.2 (stepped_of_step taken)) making
  exact rest.delivered quiescent

end Making

/-! ## One file that is saved again in time and one that is not -/

/-- What is under way under a number, as a handle, a `release` or a slot. -/
def State.busy (state : State) (number : Nat) : Option Writer × Option Closing × Option Str :=
  (state.writers number, state.closing number, (state.uploads.slots number).live)

theorem State.Quiescent.of_busy {state : State}
    (resting : ∀ number, state.busy number = (none, none, none)) : state.Quiescent where
  writers := fun fd => congrArg Prod.fst (resting fd)
  closing := fun fd => congrArg (fun busy => busy.2.1) (resting fd)
  slots := fun index => congrArg (fun busy => busy.2.2) (resting index)

/-- A process that has not been started, before a Drive with one file `f`. -/
def unstarted : State :=
  { mount [] with uploads := .stopped ∅ }

theorem Mounted.unstarted : Mounted unstarted :=
  ⟨nofun, nofun, fun _ => rfl, fun _ => rfl, fun _ => rfl, fun _ => rfl⟩

def starts : List Label := [.upload (.start []), .upload .resume, .upload (.sweep 0)]

def createG : Label := .create 0 ['/', 'g'] ['u'] ['x'] 0 0

def fileG : NewFile := ⟨['r'], ['g'], localPrefix ++ ['u']⟩

theorem absent_fileG {before : State}
    (executed : run (Fuse.step defaults) unstarted starts = some before) :
    fileG.Absent defaults.rootId before := by
  have isBefore : before = { unstarted with
      uploads := { unstarted.uploads with boot := .ready } } :=
    (Option.some.inj executed).symm
  subst isBefore
  refine ⟨⟨rfl, nofun, fun _ => nofun, rfl, rfl, rfl⟩, .inl rfl, fun id isFile => ?_, nofun,
    nofun, fun _ => id⟩
  change (if id = ['f'] then some (['r'], ['f']) else none) = some (['r'], ['g']) at isFile
  split at isFile
  · simp at isFile
  · cases isFile

/-- The labels every discipline of this module allows. -/
def Label.quiet : Label → Bool
  | .create _ _ _ _ _ _ | .enqueue _ _ _ | .accept _ _ _ | .upload (.reply _ _) | .crash => false
  | _ => true

theorem Label.continues_of_quiet {label : Label} (quiet : label.quiet = true) (file : NewFile)
    (rootId : Str) (state : State) :
    file.Continues rootId state label ∧ file.HandsOver state label := by
  cases label with
  | create _ _ _ _ _ _ | enqueue _ _ _ | accept _ _ _ | crash => cases quiet
  | upload inner =>
      cases inner with
      | reply _ _ => cases quiet
      | _ => exact ⟨⟨trivial, trivial, nofun⟩, trivial⟩
  | _ => exact ⟨⟨trivial, trivial, nofun⟩, trivial⟩

/-- `g` is created and released. -/
def released : List Label := starts ++ createG :: [.release 0]

/-- The first upload is with the storage. -/
def sent : List Label :=
  released ++ .enqueue 0 0 0 :: [.upload (.move 0), .upload (.replace 0), .upload (.submit 0),
    .enqueued 0, .upload (.pick 0), .upload (.check 0), .upload (.read 0)]

/-- A listing has found the real id, and `g` is saved again. -/
def savedAgain : List Label :=
  sent ++ .accept 0 ['n'] 0 :: [.upload (.forget 0), .upload (.pop 0), .map ['/'] ['n'],
    .openWrite 1 ['/', 'g'] false ['y'], .call 1 (.write [7] 0), .advance 1 false,
    .advance 1 false, .release 1, .edit 1 (.release 1 ['n'])]

/-- The second upload is with the storage. -/
def sentAgain : List Label :=
  savedAgain ++ .enqueue 1 1 1 :: [.upload (.move 1), .upload (.replace 1),
    .upload (.submit 1), .enqueued 1, .edit 1 (.invalidate 1 0), .store (.chunks (.remove 0)),
    .store (.chunks (.remove 0)), .edit 1 (.released 1), .upload (.pick 1), .upload (.check 1),
    .upload (.read 1)]

def uploadedAgain : List Label :=
  sentAgain ++ .accept 1 ['n'] 1 :: [.upload (.forget 1), .upload (.pop 1)]

/-- The discipline of `g` and of what is released of it. -/
def Saves (state : State) (label : Label) : Prop :=
  fileG.Continues defaults.rootId state label ∧ fileG.HandsOver state label

theorem saves_of_run (labels : List Label) {later : List Label} {label : Label}
    {start finish : State} (quiet : later.all Label.quiet = true)
    (executed : run (Fuse.step defaults) start (labels ++ label :: later) = some finish) :
    ∃ middle, run (Fuse.step defaults) start labels = some middle ∧
      (Saves middle label → Reaches (Fuse.step defaults) Saves middle finish) := by
  obtain ⟨middle, isMiddle, rest⟩ := run_append_eq_some.mp executed
  refine ⟨middle, isMiddle, fun allowed => ?_⟩
  have along : AllowedAlong (Fuse.step defaults) Saves middle (label :: later) :=
    ⟨allowed, fun next _ => AllowedAlong.of_forall fun other member state =>
      Label.continues_of_quiet (List.all_eq_true.mp quiet other member) fileG _ state⟩
  exact Reaches.of_run along rest

/-- The kind of job an attempt has read. -/
def attemptType : Upload.Slot Bytes → Option Upload.JobType
  | .attempt _ job _ => some job.jobType
  | _ => none

theorem saves_enqueue {state : State}
    (executed : run (Fuse.step defaults) unstarted released = some state) :
    Saves state (.enqueue 0 0 0) := by
  refine ⟨⟨trivial, trivial, nofun⟩, fun closing isClosing _ => ⟨fun _ => ?_, fun index => ?_⟩⟩
  · have new : (state.closing 0).map (fun closing => closing.writer.isNew) = some true :=
      look_of_run executed
        (fun state => (state.closing 0).map fun closing => closing.writer.isNew) rfl
    rw [isClosing] at new
    exact Option.some.inj new
  · have idle : (state.uploads.slots index).attempting = none :=
      look_of_run executed (fun state => (state.uploads.slots index).attempting) rfl
    rw [idle]
    simp

/-- Nobody but the handle 0 and the slot 0 has done anything when the first
upload arrives. -/
theorem saves_accept {state : State}
    (executed : run (Fuse.step defaults) unstarted sent = some state) :
    Saves state (.accept 0 ['n'] 0) := by
  have look {α : Type} := @look_of_run _ _ _ executed α
  have owes (fd : Nat) : state.owes fd = none := by
    cases fd with
    | zero => exact look (fun state => state.owes 0) rfl
    | succ fd => exact look (fun state => state.owes (fd + 1)) rfl
  have live (index : Nat) : (state.uploads.slots index).live ≠ some ['n'] := by
    cases index with
    | zero =>
        have isLive : (state.uploads.slots 0).live = some (localPrefix ++ ['u']) :=
          look (fun state => (state.uploads.slots 0).live) rfl
        rw [isLive]
        simp [localPrefix]
    | succ index =>
        have isLive : (state.uploads.slots (index + 1)).live = none :=
          look (fun state => (state.uploads.slots (index + 1)).live) rfl
        rw [isLive]
        simp
  have unknown : state.Unknown ['n'] := by
    refine ⟨?_, ?_, live, ?_, ?_, ?_⟩
    · exact look (fun state => state.nodes ['n']) rfl
    · intro fd call isOwed
      rw [owes] at isOwed
      cases isOwed
    · exact look (fun state => state.uploads.queue.lookup ['n']) rfl
    · exact look (fun state => state.uploads.lastEnqueued ['n']) rfl
    · exact look (fun state => state.uploads.lastAccepted ['n']) rfl
  refine ⟨⟨?_, trivial, nofun⟩, trivial⟩
  intro fileId job content isSlot
  have isCreate : attemptType (state.uploads.slots 0) = some .create :=
    look (fun state => attemptType (state.uploads.slots 0)) rfl
  rw [isSlot] at isCreate
  simp only [show job.jobType = .create from Option.some.inj isCreate]
  exact unknown

theorem saves_enqueue_again {state : State}
    (executed : run (Fuse.step defaults) unstarted savedAgain = some state) :
    Saves state (.enqueue 1 1 1) := by
  refine ⟨⟨trivial, trivial, nofun⟩, fun closing isClosing _ => ⟨fun isFake => ?_, fun index => ?_⟩⟩
  · have real : (state.closing 1).map (fun closing => closing.writer.fileId) = some ['n'] :=
      look_of_run executed
        (fun state => (state.closing 1).map fun closing => closing.writer.fileId) rfl
    rw [isClosing, Option.map_some, isFake] at real
    cases Option.some.inj real
  · have idle : (state.uploads.slots index).attempting = none := by
      cases index with
      | zero => exact look_of_run executed (fun state => (state.uploads.slots 0).attempting) rfl
      | succ index =>
          exact look_of_run executed
            (fun state => (state.uploads.slots (index + 1)).attempting) rfl
    rw [idle]
    simp

theorem saves_accept_again {state : State}
    (executed : run (Fuse.step defaults) unstarted sentAgain = some state) :
    Saves state (.accept 1 ['n'] 1) := by
  refine ⟨⟨?_, trivial, nofun⟩, trivial⟩
  intro fileId job content isSlot
  have isUpdate : attemptType (state.uploads.slots 1) = some .update :=
    look_of_run executed (fun state => attemptType (state.uploads.slots 1)) rfl
  have isNode : (state.uploads.slots 1).attempting = some ['n'] :=
    look_of_run executed (fun state => (state.uploads.slots 1).attempting) rfl
  rw [isSlot] at isUpdate isNode
  simp only [show job.jobType = .update from Option.some.inj isUpdate]
  right
  rw [show fileId = ['n'] from Option.some.inj isNode]
  exact look_of_run executed (fun state => (state.nodes ['n']).isSome) rfl

/-- `g` is created, uploaded, found again in a listing and saved again. -/
theorem new_file_delivered_once_savedAgain :
    ∃ finish, run (Fuse.step defaults) unstarted uploadedAgain = some finish ∧
      finish.driveContent ['n'] = [7] ∧ fileG.DeliveredOnce finish := by
  have content : (run (Fuse.step defaults) unstarted uploadedAgain).map
      (·.driveContent ['n']) = some [7] := rfl
  obtain ⟨finish, executed, isContent⟩ := Option.map_eq_some_iff.mp content
  have look {α : Type} := @look_of_run _ _ _ executed α
  have quiescent : finish.Quiescent := by
    refine .of_busy fun number => ?_
    match number with
    | 0 => exact look (fun state => state.busy 0) rfl
    | 1 => exact look (fun state => state.busy 1) rfl
    | number + 2 => exact look (fun state => state.busy (number + 2)) rfl
  obtain ⟨fourth, isFourth, toFinish⟩ := saves_of_run sentAgain rfl executed
  obtain ⟨third, isThird, toFourth⟩ := saves_of_run savedAgain rfl isFourth
  obtain ⟨second, isSecond, toThird⟩ := saves_of_run sent rfl isThird
  obtain ⟨first, isFirst, toSecond⟩ := saves_of_run released rfl isSecond
  obtain ⟨before, isBefore, rest⟩ := run_append_eq_some.mp isFirst
  obtain ⟨after, isAfter, isReleased⟩ := Option.bind_eq_some_iff.mp rest
  have along : AllowedAlong (Fuse.step defaults) Saves after [.release 0] :=
    ⟨Label.continues_of_quiet rfl fileG _ after, fun _ _ => trivial⟩
  have toFirst := Reaches.of_run along isReleased
  have saved := toFirst.trans ((toSecond (saves_enqueue isFirst)).trans
    ((toThird (saves_accept isSecond)).trans ((toFourth (saves_enqueue_again isThird)).trans
      (toFinish (saves_accept_again isFourth)))))
  have parent : before.resolvePathToDriveNodeId defaults.rootId (dirname ['/', 'g']) =
      some ['r'] :=
    look_of_run isBefore
      (fun state => state.resolvePathToDriveNodeId defaults.rootId (dirname ['/', 'g'])) rfl
  exact ⟨finish, executed, isContent, new_file_delivered_once .unstarted rfl
    (Reaches.of_free_run isBefore) parent (absent_fileG isBefore) isAfter saved quiescent⟩

/-- `g` is saved again under its placeholder before the first upload runs. -/
def resavedEarly : List Label :=
  [.release 0, .enqueue 0 0 0, .upload (.move 0), .upload (.replace 0), .upload (.submit 0),
    .enqueued 0, .openWrite 1 ['/', 'g'] false ['y'], .call 1 (.write [7] 0), .advance 1 false,
    .advance 1 false, .release 1, .edit 1 (.release 1 (localPrefix ++ ['u'])),
    .edit 1 (.assign 1 1 5), .edit 1 (.store 1 0), .enqueue 1 1 1, .upload (.move 1),
    .upload (.replace 1), .upload (.submit 1), .enqueued 1, .edit 1 (.invalidate 1 0),
    .store (.chunks (.remove 0)), .store (.chunks (.remove 0)), .edit 1 (.released 1)]

/-- Drive rejects an update of the placeholder. -/
def rejection : List Label :=
  [.upload (.pick 0), .upload (.check 0), .upload (.read 0), .upload (.reply 0 .rejected),
    .upload (.fail 0)]

def rejections : Nat → List Label
  | 0 => rejection ++ [.upload (.pick 1)]
  | more + 1 => rejection ++ .upload (.fire 0) :: rejections more

/-- The storage rejects updates of ids it does not know. -/
def refuses (state : State) : Label → Bool
  | .upload (.reply slot .rejected) =>
      match state.uploads.slots slot with
      | .attempt fileId job _ =>
          job.jobType = .update ∧ fileId ≠ defaults.rootId ∧ (state.nodes fileId).isNone
      | _ => false
  | .enqueue _ _ _ => true
  | label => label.quiet

theorem continues_of_refuses {state : State} {label : Label}
    (isRefused : refuses state label = true) : fileG.Continues defaults.rootId state label := by
  unfold refuses at isRefused
  split at isRefused
  · rename_i slot
    refine ⟨?_, trivial, nofun⟩
    intro fileId job content isSlot
    rw [isSlot] at isRefused
    simp only [decide_eq_true_eq] at isRefused
    obtain ⟨isUpdate, notRoot, unknown⟩ := isRefused
    simp only [namedId, isUpdate]
    rintro (isRoot | issued)
    · exact notRoot isRoot
    · rw [Option.isNone_iff_eq_none.mp unknown] at issued
      cases issued
  · exact ⟨trivial, trivial, nofun⟩
  · exact (Label.continues_of_quiet isRefused fileG _ state).1

/-- The process is started, `g` is created, saved again too early and rejected. -/
def resavedRun : Option State :=
  (run (Fuse.step defaults) unstarted starts).bind fun before =>
    (Fuse.step defaults before createG).bind fun after =>
      runAllowed (Fuse.step defaults) (fun state label => refuses state label = true) after
        (resavedEarly ++ rejections 5)

/-- A file that is saved again before its first upload is lost: the new entry
is an update of an id that Drive has never issued. -/
theorem resaved_file_fails :
    ¬ ∀ (start before after finish : State) (fd now index : Nat)
      (path uuid suffix parentId : Str), Mounted start → start.uploads.boot = .off →
      Reaches (Fuse.step defaults) (fun _ _ => True) start before →
      before.resolvePathToDriveNodeId defaults.rootId (dirname path) = some parentId →
      NewFile.Absent ⟨parentId, basename path, localPrefix ++ uuid⟩ defaults.rootId before →
      Fuse.step defaults before (.create fd path uuid suffix now index) = some after →
      Reaches (Fuse.step defaults)
        (NewFile.Continues ⟨parentId, basename path, localPrefix ++ uuid⟩ defaults.rootId)
        after finish →
      finish.Quiescent →
      NewFile.DeliveredOnce ⟨parentId, basename path, localPrefix ++ uuid⟩ finish := by
  intro holds
  have lost : resavedRun.map (fun finish =>
      (finish.uploads.queue.lookup fileG.fakeId).isSome) = some true := rfl
  obtain ⟨finish, executed, isLost⟩ := Option.map_eq_some_iff.mp lost
  have look {α : Type} := @look_of_run _ _ _ executed α
  have quiescent : finish.Quiescent := by
    refine .of_busy fun number => ?_
    match number with
    | 0 => exact look (fun state => state.busy 0) rfl
    | 1 => exact look (fun state => state.busy 1) rfl
    | number + 2 => exact look (fun state => state.busy (number + 2)) rfl
  obtain ⟨before, isBefore, rest⟩ := Option.bind_eq_some_iff.mp executed
  obtain ⟨after, isAfter, isFinish⟩ := Option.bind_eq_some_iff.mp rest
  have continued : Reaches (Fuse.step defaults) (fileG.Continues defaults.rootId) after finish :=
    (Reaches.of_runAllowed isFinish).mono fun _ _ isRefused => continues_of_refuses isRefused
  have parent : before.resolvePathToDriveNodeId defaults.rootId (dirname ['/', 'g']) =
      some ['r'] :=
    look_of_run isBefore
      (fun state => state.resolvePathToDriveNodeId defaults.rootId (dirname ['/', 'g'])) rfl
  obtain ⟨nodeId, release, -, -, -, gone, -⟩ := holds unstarted before after finish 0 0 0
    ['/', 'g'] ['u'] ['x'] ['r'] .unstarted rfl (Reaches.of_free_run isBefore) parent
    (absent_fileG isBefore) isAfter continued quiescent
  rw [show finish.uploads.queue.lookup fileG.fakeId = none from gone] at isLost
  cases isLost

end FuseDrive.Fuse
