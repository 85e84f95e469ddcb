import FuseDrive.Upload.Restart

/-!
# Ids that are not uploaded any more

Once the queue has no entry of an id, or a failed one, no call or attempt is on
its way to one, and no journal file reads as an edit of it, no upload of the id
starts again unless somebody enqueues it.  This survives crashes and restarts.
-/

namespace FuseDrive.Upload

variable {γ : Type}

/-- The id a slot is about to put into the queue, or to send to Drive. -/
def Slot.willUpload : Slot γ → Option Str
  | .enqueue call _ _ (.move _ _) | .enqueue call _ _ (.replace _ _) => some call.fileId
  | .attempt fileId _ .check | .attempt fileId _ .read => some fileId
  | _ => none

/-- The queue would not upload the id. -/
def Unwanted (queue : Dict Str (Job γ)) (fileId : Str) : Prop :=
  ∀ job, queue.lookup fileId = some job → job.status = .failed

/-- Nothing of the id is left to upload. -/
structure Withdrawn (fileId : Str) (state : State γ) : Prop where
  queue : Unwanted state.queue fileId
  saved : Unwanted state.savedQueue fileId
  slots : ∀ index, (state.slots index).willUpload ≠ some fileId
  journal : ∀ name content, state.files.lookup (.journal name) = some content →
    recoverJournalEntry name ≠ .edit fileId

/-- A step of the upload manager is about to send the file to Drive. -/
def Uploads (fileId : Str) (state : State γ) : Label → Prop
  | .pick index => state.slots index = .queued fileId ∧
      ∃ job, state.queue.lookup fileId = some job ∧ job.status = .pending
  | .read index => ∃ job, state.slots index = .attempt fileId job .read
  | _ => False

/-- The step enqueues nothing under the id: the callers have other files, and
`uuid4` does not give the id again. -/
def Spares (fileId : Str) : Label → Prop
  | .begin _ call _ => call.fileId ≠ fileId
  | .recover _ uuid _ => ['r', 'e', 'c', '_'] ++ uuid ≠ fileId
  | _ => True

section Withdrawn

variable {maxRetries : Nat} {fileId : Str} {state next : State γ}

theorem Unwanted.insert {queue : Dict Str (Job γ)} (unwanted : Unwanted queue fileId)
    {other : Str} {job : Job γ} (different : other ≠ fileId) :
    Unwanted (queue.insert other job) fileId := by
  intro found present
  rw [Dict.lookup_insert_eq, if_neg (Ne.symm different)] at present
  exact unwanted found present

theorem Unwanted.erase {queue : Dict Str (Job γ)} (unwanted : Unwanted queue fileId)
    (other : Str) : Unwanted (queue.erase other) fileId := by
  intro found present
  rw [Dict.lookup_erase_eq] at present
  split at present
  · cases present
  · exact unwanted found present

/-- `_handle_failure` never makes an entry pending. -/
theorem Unwanted.handleFailure (unwanted : Unwanted state.queue fileId) {other : Str}
    {isFatal armed : Bool}
    (handled : state.handleFailure maxRetries other isFatal = (next, armed)) :
    Unwanted next.queue fileId := by
  intro found present
  rw [State.handleFailure_lookup handled] at present
  split at present
  · rename_i same
    obtain ⟨job, entry, rfl⟩ := Option.map_eq_some_iff.mp present
    have failed : job.status = .failed := unwanted job (same ▸ entry)
    simp [State.failedJob, failed]
  · exact unwanted found present

namespace Withdrawn

/-- Nobody is about to upload the id, so none of its uploads starts. -/
theorem not_uploads (withdrawn : Withdrawn fileId state) (label : Label) :
    ¬ Uploads fileId state label := by
  cases label with
  | pick index =>
      rintro ⟨-, job, entry, pending⟩
      rw [withdrawn.queue job entry] at pending
      cases pending
  | read index =>
      rintro ⟨job, slot⟩
      exact withdrawn.slots index (by rw [slot]; rfl)
  | _ => exact id

theorem setSlot (withdrawn : Withdrawn fileId state) (index : Nat) {slot : Slot γ}
    (rests : slot.willUpload ≠ some fileId) : Withdrawn fileId (state.setSlot index slot) where
  queue := withdrawn.queue
  saved := withdrawn.saved
  slots := by
    intro other
    rw [State.setSlot_slots]
    split
    · exact rests
    · exact withdrawn.slots other
  journal := withdrawn.journal

theorem setFiles (withdrawn : Withdrawn fileId state) {files : Dict LocalPath γ}
    (journal : ∀ name content, files.lookup (.journal name) = some content →
      recoverJournalEntry name ≠ .edit fileId) :
    Withdrawn fileId { state with files := files } :=
  ⟨withdrawn.queue, withdrawn.saved, withdrawn.slots, journal⟩

theorem enqueueBegin (withdrawn : Withdrawn fileId state) (index : Nat) {call : EnqueueCall}
    (second : Nat) (content : γ) (different : call.fileId ≠ fileId) :
    Withdrawn fileId (state.enqueueBegin index call second content) := by
  have moved : Withdrawn fileId (state.setSlot index (.enqueue call state.nextSerial content
      (.move (.upload call.fileId second) (state.existingRetries call.fileId)))) :=
    withdrawn.setSlot index fun same => different (Option.some.inj same)
  rw [State.enqueueBegin_eq]
  refine ⟨withdrawn.queue, withdrawn.saved, moved.slots, fun name bytes present => ?_⟩
  change (state.removeOldFile call.fileId).files.lookup _ = _ at present
  rw [State.removeOldFile_lookup] at present
  split at present
  · cases present
  · exact withdrawn.journal name bytes present

theorem removeEntry (withdrawn : Withdrawn fileId state) (other : Str) :
    Withdrawn fileId (state.removeEntry other) :=
  ⟨withdrawn.queue.erase other, withdrawn.queue.erase other, withdrawn.slots,
    withdrawn.journal⟩

theorem handleFailure (withdrawn : Withdrawn fileId state) {other : Str} {isFatal armed : Bool}
    (handled : state.handleFailure maxRetries other isFatal = (next, armed)) :
    Withdrawn fileId next := by
  have queue : Unwanted next.queue fileId := withdrawn.queue.handleFailure handled
  constructor
  · exact queue
  · rcases State.handleFailure_saved handled with same | saved
    · rw [same]
      exact withdrawn.saved
    · rw [saved]
      exact queue
  · rw [State.handleFailure_eq handled]
    exact withdrawn.slots
  · rw [State.handleFailure_eq handled]
    exact withdrawn.journal

theorem recoveryCall_ne (withdrawn : Withdrawn fileId state) {uuid name : Str}
    {call : EnqueueCall} {content : γ} (parsed : recoveryCall uuid name = some call)
    (temp : state.files.lookup (.journal call.tempName) = some content)
    (fresh : ['r', 'e', 'c', '_'] ++ uuid ≠ fileId) : call.fileId ≠ fileId := by
  unfold recoveryCall at parsed
  split at parsed
  · rename_i found isEdit
    cases parsed
    rintro rfl
    exact withdrawn.journal name content temp isEdit
  · cases parsed
    exact fresh
  · cases parsed
  · cases parsed

theorem step (withdrawn : Withdrawn fileId state) (placed : Placed state) {label : Label}
    (spares : Spares fileId label) (stepped : Stepped maxRetries state label next) :
    Withdrawn fileId next := by
  have idle (index : Nat) {slot : Slot γ} (present : state.slots index = slot) :
      slot.willUpload ≠ some fileId := present ▸ withdrawn.slots index
  cases stepped with
  | begin ready slot temp unlocked => exact withdrawn.enqueueBegin _ _ _ spares
  | @moveRaises call ready unlocked =>
      rw [State.removeOldFile_eq]
      refine withdrawn.setFiles fun name bytes present => ?_
      have raised : Stepped maxRetries state (.moveRaises call) _ := .moveRaises ready unlocked
      exact withdrawn.journal name bytes (placed.journal_lookup raised present)
  | @recover index uuid second name names call content boot parsed slot temp unlocked =>
      have begun := withdrawn.enqueueBegin index second content
        (withdrawn.recoveryCall_ne parsed temp spares)
      exact ⟨begun.queue, begun.saved, begun.slots, begun.journal⟩
  | @move index call serial content safePath retries slot =>
      have different := idle index slot
      refine Withdrawn.setSlot ?_ index different
      rw [State.moveFile_eq]
      refine withdrawn.setFiles fun name bytes present => ?_
      have moved : Stepped maxRetries state (.move index) _ := .move slot
      exact withdrawn.journal name bytes (placed.journal_lookup moved present)
  | @replace index call serial content safePath retries slot =>
      have different : call.fileId ≠ fileId := fun same => idle index slot (congrArg some same)
      have queue : Unwanted (state.queue.insert call.fileId
          (State.newJob call serial content safePath retries)) fileId :=
        withdrawn.queue.insert different
      have replaced : Withdrawn fileId
          (state.enqueueReplace call serial content safePath retries) :=
        ⟨queue, queue, withdrawn.slots, withdrawn.journal⟩
      exact replaced.setSlot index nofun
  | @pick index other job slot unlocked entry pending =>
      refine withdrawn.setSlot index fun same => ?_
      cases same
      rw [withdrawn.queue job entry] at pending
      cases pending
  | checkExists slot file =>
      have different := idle _ slot
      exact withdrawn.setSlot _ different
  | @forget index other job content slot unlocked =>
      have removed : Withdrawn fileId
          { state with locked := true, files := state.files.erase job.path } := by
        refine ⟨withdrawn.queue, withdrawn.saved, withdrawn.slots, fun name bytes present => ?_⟩
        change (state.files.erase job.path).lookup _ = _ at present
        rw [Dict.lookup_erase_eq] at present
        split at present
        · cases present
        · exact withdrawn.journal name bytes present
      exact removed.setSlot index nofun
  | popRemoved slot | popMissing slot _ => exact (withdrawn.removeEntry _).setSlot _ nofun
  | failRetry slot unlocked handled | failOver slot unlocked handled =>
      exact (withdrawn.handleFailure handled).setSlot _ nofun
  | @replyAccepted index other job content nodeId slot =>
      have recorded : Withdrawn fileId (state.recordAccepted other nodeId job content) :=
        ⟨withdrawn.queue, withdrawn.saved, withdrawn.slots, withdrawn.journal⟩
      exact recorded.setSlot index nofun
  | @replyQuota index other job content slot =>
      have tripped : Withdrawn fileId { state with quotaExceeded := true } :=
        ⟨withdrawn.queue, withdrawn.saved, withdrawn.slots, withdrawn.journal⟩
      exact tripped.setSlot index nofun
  | crash => exact ⟨nofun, withdrawn.saved, nofun, withdrawn.journal⟩
  | start off listed => exact ⟨withdrawn.saved, withdrawn.saved, withdrawn.slots, withdrawn.journal⟩
  | recoverSkip _ _ | recovered _ _ | resume _ _ | sweepDone _ =>
      exact ⟨withdrawn.queue, withdrawn.saved, withdrawn.slots, withdrawn.journal⟩
  | @sweep index other fileIds boot slot =>
      have queued : Withdrawn fileId (state.setSlot index (.queued other)) :=
        withdrawn.setSlot index nofun
      exact ⟨queued.queue, queued.saved, queued.slots, queued.journal⟩
  | submit _ | pickNothing _ _ _ | fire _ | checkMissing _ _ | read _ _ | readVanished _ _
  | replyRejected _ => exact withdrawn.setSlot _ nofun

end Withdrawn

end Withdrawn

end FuseDrive.Upload
