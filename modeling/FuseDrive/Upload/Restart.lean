import FuseDrive.Upload.Manager

/-!
# What a restart leaves in the queue

After a crash the manager loads `queue.json`, enqueues every journal file whose
name it can parse and resumes the queue.  Whatever its threads do meanwhile,
the local file of an update entry is the one the saved queue already had for
that id, or a journal file whose name was parsed as an edit of that id.
-/

namespace FuseDrive.Upload

open Transition

variable {γ : Type}

/-! ## Local files -/

/-- What a slot will put into the queue or remove lies under its own id. -/
def SlotPlaced : Slot γ → Prop
  | .enqueue call _ _ (.move safePath _) | .enqueue call _ _ (.replace safePath _) =>
      ∃ second, safePath = .upload call.fileId second
  | .attempt fileId job _ => ∃ second, job.path = .upload fileId second
  | _ => True

/-- All entries of a queue keep their local file under their own id. -/
def EntriesPlaced (queue : Dict Str (Job γ)) : Prop :=
  ∀ fileId job, queue.lookup fileId = some job → ∃ second, job.path = .upload fileId second

structure Placed (state : State γ) : Prop where
  queue : EntriesPlaced state.queue
  saved : EntriesPlaced state.savedQueue
  slots : ∀ index, SlotPlaced (state.slots index)

section Placed

variable {maxRetries : Nat} {state next : State γ}

theorem EntriesPlaced.insert {queue : Dict Str (Job γ)} (placed : EntriesPlaced queue)
    {fileId : Str} {job : Job γ} (own : ∃ second, job.path = .upload fileId second) :
    EntriesPlaced (queue.insert fileId job) := by
  intro other found present
  rw [Dict.lookup_insert_eq] at present
  split at present
  · rename_i same
    cases present
    exact same ▸ own
  · exact placed other found present

theorem EntriesPlaced.erase {queue : Dict Str (Job γ)} (placed : EntriesPlaced queue)
    (fileId : Str) : EntriesPlaced (queue.erase fileId) := by
  intro other found present
  rw [Dict.lookup_erase_eq] at present
  split at present
  · cases present
  · exact placed other found present

theorem Placed.setSlot (placed : Placed state) (index : Nat) {slot : Slot γ}
    (own : SlotPlaced slot) : Placed (state.setSlot index slot) := by
  refine ⟨placed.queue, placed.saved, fun other => ?_⟩
  rw [State.setSlot_slots]
  split
  · exact own
  · exact placed.slots other

theorem Placed.handleFailure (placed : Placed state) {fileId : Str} {isFatal armed : Bool}
    (handled : state.handleFailure maxRetries fileId isFatal = (next, armed)) :
    Placed next := by
  have queue : EntriesPlaced next.queue := by
    intro other found present
    rw [State.handleFailure_lookup handled] at present
    split at present
    · rename_i same
      obtain ⟨job, wasEntry, rfl⟩ := Option.map_eq_some_iff.mp present
      exact same ▸ placed.queue fileId job wasEntry
    · exact placed.queue other found present
  refine ⟨queue, ?_, ?_⟩
  · rcases State.handleFailure_saved handled with same | saved
    · rw [same]
      exact placed.saved
    · rw [saved]
      exact queue
  · rw [State.handleFailure_eq handled]
    exact placed.slots

theorem Placed.enqueueBegin (placed : Placed state) (index : Nat) (call : EnqueueCall)
    (second : Nat) (content : γ) :
    Placed (state.enqueueBegin index call second content) := by
  have moved : Placed (state.setSlot index (.enqueue call state.nextSerial content
      (.move (.upload call.fileId second) (state.existingRetries call.fileId)))) :=
    placed.setSlot index ⟨second, rfl⟩
  rw [State.enqueueBegin_eq]
  exact ⟨placed.queue, placed.saved, moved.slots⟩

theorem Placed.removeEntry (placed : Placed state) (fileId : Str) :
    Placed (state.removeEntry fileId) :=
  ⟨placed.queue.erase fileId, placed.queue.erase fileId, placed.slots⟩

theorem Placed.step (placed : Placed state) {label : Label}
    (stepped : Stepped maxRetries state label next) : Placed next := by
  have own (index : Nat) := placed.slots index
  cases stepped with
  | @begin index call second content ready slot temp unlocked =>
      exact placed.enqueueBegin index call second content
  | moveRaises _ _ =>
      rw [State.removeOldFile_eq]
      exact ⟨placed.queue, placed.saved, placed.slots⟩
  | @move index call serial content safePath retries slot =>
      have moved : Placed (state.moveFile (.journal call.tempName) safePath) := by
        rw [State.moveFile_eq]
        exact ⟨placed.queue, placed.saved, placed.slots⟩
      specialize own index
      rw [slot] at own
      exact moved.setSlot index own
  | @replace index call serial content safePath retries slot =>
      specialize own index
      rw [slot] at own
      have queue : EntriesPlaced (state.queue.insert call.fileId
          (State.newJob call serial content safePath retries)) := placed.queue.insert own
      have replaced : Placed (state.enqueueReplace call serial content safePath retries) :=
        ⟨queue, queue, placed.slots⟩
      exact replaced.setSlot index trivial
  | submit _ | pickNothing _ _ _ | fire _ => exact placed.setSlot _ trivial
  | pick slot unlocked entry pending => exact placed.setSlot _ (placed.queue _ _ entry)
  | @checkExists index fileId job content slot file
  | @checkMissing index fileId job slot file
  | @read index fileId job content slot file
  | @readVanished index fileId job slot file
  | @replyRejected index fileId job content slot =>
      specialize own index
      rw [slot] at own
      exact placed.setSlot index own
  | @replyAccepted index fileId job content nodeId slot =>
      specialize own index
      rw [slot] at own
      have recorded : Placed (state.recordAccepted fileId nodeId job content) :=
        ⟨placed.queue, placed.saved, placed.slots⟩
      exact recorded.setSlot index own
  | @replyQuota index fileId job content slot =>
      specialize own index
      rw [slot] at own
      have tripped : Placed { state with quotaExceeded := true } :=
        ⟨placed.queue, placed.saved, placed.slots⟩
      exact tripped.setSlot index own
  | @forget index fileId job content slot unlocked =>
      specialize own index
      rw [slot] at own
      have removed : Placed
          { state with locked := true, files := state.files.erase job.path } :=
        ⟨placed.queue, placed.saved, placed.slots⟩
      exact removed.setSlot index own
  | popRemoved slot | popMissing slot _ => exact (placed.removeEntry _).setSlot _ trivial
  | failRetry slot unlocked handled | failOver slot unlocked handled =>
      exact (placed.handleFailure handled).setSlot _ trivial
  | crash => exact ⟨nofun, placed.saved, fun _ => trivial⟩
  | start off listed => exact ⟨placed.saved, placed.saved, placed.slots⟩
  | @recover index uuid second name names call content boot parsed slot temp unlocked =>
      have begun := placed.enqueueBegin index call second content
      exact ⟨begun.queue, begun.saved, begun.slots⟩
  | recoverSkip _ _ | recovered _ _ | resume _ _ | sweepDone _ =>
      exact ⟨placed.queue, placed.saved, placed.slots⟩
  | @sweep index fileId fileIds boot slot =>
      have queued : Placed (state.setSlot index (.queued fileId)) :=
        placed.setSlot index trivial
      exact ⟨queued.queue, queued.saved, queued.slots⟩

/-- Only the move of an `enqueue_file_for_upload` call gives a path another
content, namely that of its journal file. -/
theorem Stepped.files_lookup {label : Label} (stepped : Stepped maxRetries state label next)
    {path : LocalPath} {content : γ} (present : next.files.lookup path = some content) :
    state.files.lookup path = some content ∨
      ∃ index call serial own retries, label = .move index ∧
        state.slots index = .enqueue call serial own (.move path retries) ∧
        state.files.lookup (.journal call.tempName) = some content := by
  have erased {old : LocalPath}
      (found : (state.files.erase old).lookup path = some content) :
      state.files.lookup path = some content := by
    rw [Dict.lookup_erase_eq] at found
    split at found
    · cases found
    · exact found
  have begun {fileId : Str}
      (found : (state.removeOldFile fileId).files.lookup path = some content) :
      state.files.lookup path = some content := by
    rw [State.removeOldFile_lookup] at found
    split at found
    · cases found
    · exact found
  cases stepped with
  | begin _ _ _ _ | moveRaises _ _ | recover _ _ _ _ _ => exact Or.inl (begun present)
  | @move index call serial own safePath retries slot =>
      change (state.moveFile (.journal call.tempName) safePath).files.lookup path = _ at present
      cases source : state.files.lookup (.journal call.tempName) with
      | none =>
          rw [State.moveFile, source] at present
          exact Or.inl present
      | some moved =>
          rw [State.moveFile_lookup source] at present
          split at present
          · rename_i same
            subst same
            cases present
            exact Or.inr ⟨index, call, serial, own, retries, rfl, slot, source⟩
          · split at present
            · cases present
            · exact Or.inl present
  | forget _ _ => exact Or.inl (erased present)
  | failRetry slot unlocked handled | failOver slot unlocked handled =>
      rw [State.setSlot_files, State.handleFailure_eq handled] at present
      exact Or.inl present
  | replace _ | submit _ | pickNothing _ _ _ | pick _ _ _ _ | checkExists _ _
  | checkMissing _ _ | read _ _ | readVanished _ _ | replyAccepted _ | replyRejected _
  | replyQuota _ | popRemoved _ | popMissing _ _ | fire _ | crash | start _ _
  | recoverSkip _ _ | recovered _ _ | resume _ _ | sweepDone _ | sweep _ _ =>
      exact Or.inl present

/-- Nothing but `mkstemp` makes a journal file. -/
theorem Placed.journal_lookup (placed : Placed state) {label : Label}
    (stepped : Stepped maxRetries state label next) {name : Str} {content : γ}
    (present : next.files.lookup (.journal name) = some content) :
    state.files.lookup (.journal name) = some content := by
  rcases stepped.files_lookup present with old | ⟨index, call, _, _, _, -, slot, -⟩
  · exact old
  · have own := placed.slots index
    rw [slot] at own
    obtain ⟨second, isUpload⟩ := own
    cases isUpload

/-- A journal file stays where it is until it is moved. -/
theorem Placed.journal_kept (placed : Placed state) {label : Label}
    (stepped : Stepped maxRetries state label next) {name : Str} {content : γ}
    (present : state.files.lookup (.journal name) = some content) :
    next.files.lookup (.journal name) = some content ∨
      ∃ index call serial own path retries, label = .move index ∧
        state.slots index = .enqueue call serial own (.move path retries) ∧
        call.tempName = name := by
  have begun (fileId : Str) :
      (state.removeOldFile fileId).files.lookup (.journal name) = some content := by
    rw [State.removeOldFile_lookup]
    split
    · rename_i isOld
      obtain ⟨old, entry, isJournal⟩ := Option.map_eq_some_iff.mp isOld
      obtain ⟨second, isUpload⟩ := placed.queue fileId old entry
      rw [isUpload] at isJournal
      cases isJournal
    · exact present
  cases stepped with
  | begin _ _ _ _ | moveRaises _ _ | recover _ _ _ _ _ => exact Or.inl (begun _)
  | @move index call serial own safePath retries slot =>
      by_cases same : call.tempName = name
      · exact Or.inr ⟨index, call, serial, own, safePath, retries, rfl, slot, same⟩
      · left
        have isUpload := placed.slots index
        rw [slot] at isUpload
        obtain ⟨second, rfl⟩ := isUpload
        change (state.moveFile (.journal call.tempName) _).files.lookup _ = _
        cases source : state.files.lookup (.journal call.tempName) with
        | none => simpa [State.moveFile, source] using present
        | some moved =>
            have different : name ≠ call.tempName := Ne.symm same
            simpa [State.moveFile_lookup source, different] using present
  | @forget index fileId job own slot unlocked =>
      left
      have isUpload := placed.slots index
      rw [slot] at isUpload
      obtain ⟨second, isPath⟩ := isUpload
      change (state.files.erase job.path).lookup _ = _
      rw [Dict.lookup_erase_eq, isPath, if_neg (by simp)]
      exact present
  | failRetry slot unlocked handled | failOver slot unlocked handled =>
      left
      rw [State.setSlot_files, State.handleFailure_eq handled]
      exact present
  | replace _ | submit _ | pickNothing _ _ _ | pick _ _ _ _ | checkExists _ _
  | checkMissing _ _ | read _ _ | readVanished _ _ | replyAccepted _ | replyRejected _
  | replyQuota _ | popRemoved _ | popMissing _ _ | fire _ | crash | start _ _
  | recoverSkip _ _ | recovered _ _ | resume _ _ | sweepDone _ | sweep _ _ =>
      exact Or.inl present

end Placed

/-! ## Restart -/

/-- A restart: no caller but the recovery enqueues, and `uuid4` gives an id the
queue does not have. -/
def Restarting (state : State γ) : Label → Prop
  | .begin _ _ _ | .moveRaises _ | .crash => False
  | .recover _ uuid _ => state.queue.lookup (['r', 'e', 'c', '_'] ++ uuid) = none
  | _ => True

/-- `queue.json` had an entry for the id whose local file held this content. -/
def Queued (before : State γ) (fileId : Str) (content : γ) : Prop :=
  ∃ job, before.savedQueue.lookup fileId = some job ∧
    before.files.lookup job.path = some content

/-- A journal file held this content and its name reads as an edit of the id. -/
def Orphaned (before : State γ) (fileId : Str) (content : γ) : Prop :=
  ∃ name, before.files.lookup (.journal name) = some content ∧
    recoverJournalEntry name = .edit fileId

/-- What an `enqueue_file_for_upload` call of the recovery is about to put under
its id. -/
def CallRecovers (before state : State γ) (call : EnqueueCall) : EnqueuePoint → Prop
  | .move _ _ =>
      (∃ content, state.files.lookup (.journal call.tempName) = some content) ∧
        (call.isNew = false → recoverJournalEntry call.tempName = .edit call.fileId) ∧
        (call.isNew = true → state.queue.lookup call.fileId = none)
  | .replace safePath _ =>
      (call.isNew = false → ∀ content, state.files.lookup safePath = some content →
        Orphaned before call.fileId content) ∧
        (call.isNew = true → state.queue.lookup call.fileId = none)
  | .submit => True

structure Recovering (before state : State γ) : Prop where
  placed : Placed state
  started : state.boot ≠ .off
  journal : ∀ name content, state.files.lookup (.journal name) = some content →
    before.files.lookup (.journal name) = some content
  entries : ∀ fileId job, state.queue.lookup fileId = some job → job.jobType = .update →
    ∀ content, state.files.lookup job.path = some content →
      Queued before fileId content ∨ Orphaned before fileId content
  calls : ∀ index call serial content point,
    state.slots index = .enqueue call serial content point →
      (∃ names, state.boot = .recoveringIn index names) ∧
        CallRecovers before state call point

section Recovering

variable {maxRetries : Nat} {before state next : State γ}

/-- While no call is under way the queue and the local files only shrink. -/
theorem Recovering.shrink (recovering : Recovering before state) (placed : Placed next)
    (started : next.boot ≠ .off)
    (files : ∀ path content, next.files.lookup path = some content →
      state.files.lookup path = some content)
    (queue : ∀ fileId job, next.queue.lookup fileId = some job →
      ∃ old, state.queue.lookup fileId = some old ∧ old.path = job.path ∧
        old.jobType = job.jobType)
    (calls : ∀ index call serial content point,
      next.slots index = .enqueue call serial content point →
        (∃ names, next.boot = .recoveringIn index names) ∧
          CallRecovers before next call point) :
    Recovering before next := by
  refine ⟨placed, started, ?_, ?_, calls⟩
  · exact fun name content present => recovering.journal name content (files _ content present)
  · intro fileId job entry isUpdate content present
    obtain ⟨old, wasEntry, samePath, sameType⟩ := queue fileId job entry
    refine recovering.entries fileId old wasEntry (sameType.trans isUpdate) content ?_
    rw [samePath]
    exact files _ content present

theorem Recovering.call_kept (recovering : Recovering before state) {label : Label}
    (stepped : Stepped maxRetries state label next)
    (notMove : ∀ index, label ≠ .move index)
    (queue : ∀ fileId, state.queue.lookup fileId = none → next.queue.lookup fileId = none)
    {index serial : Nat} {call : EnqueueCall} {content : γ} {point : EnqueuePoint}
    (slot : state.slots index = .enqueue call serial content point)
    (boot : next.boot = state.boot) :
    (∃ names, next.boot = .recoveringIn index names) ∧
      CallRecovers before next call point := by
  obtain ⟨isBoot, recovers⟩ := recovering.calls index call serial content point slot
  refine ⟨boot ▸ isBoot, ?_⟩
  cases point with
  | move safePath retries =>
      obtain ⟨⟨own, present⟩, edit, new⟩ := recovers
      refine ⟨⟨own, ?_⟩, edit, fun isNew => queue _ (new isNew)⟩
      rcases recovering.placed.journal_kept stepped present with kept | ⟨other, _, _, _, _, _, isMove, _⟩
      · exact kept
      · exact absurd isMove (notMove other)
  | replace safePath retries =>
      obtain ⟨edit, new⟩ := recovers
      refine ⟨fun isEdit content present => ?_, fun isNew => queue _ (new isNew)⟩
      rcases stepped.files_lookup present with old | ⟨other, _, _, _, _, isMove, _, _⟩
      · exact edit isEdit content old
      · exact absurd isMove (notMove other)
  | submit => trivial

/-- A step that neither starts nor advances a call. -/
theorem Recovering.aside (recovering : Recovering before state) {label : Label}
    (stepped : Stepped maxRetries state label next)
    (notMove : ∀ index, label ≠ .move index) (started : next.boot ≠ .off)
    (queue : ∀ fileId job, next.queue.lookup fileId = some job →
      ∃ old, state.queue.lookup fileId = some old ∧ old.path = job.path ∧
        old.jobType = job.jobType)
    (calls : ∀ index call serial content point,
      next.slots index = .enqueue call serial content point →
        state.slots index = .enqueue call serial content point ∧ next.boot = state.boot) :
    Recovering before next := by
  refine recovering.shrink (recovering.placed.step stepped) started ?_ queue ?_
  · intro path content present
    rcases stepped.files_lookup present with old | ⟨index, _, _, _, _, isMove, _, _⟩
    · exact old
    · exact absurd isMove (notMove index)
  · intro index call serial content point slot
    obtain ⟨wasSlot, boot⟩ := calls index call serial content point slot
    refine recovering.call_kept stepped notMove (fun fileId absent => ?_) wasSlot boot
    cases entry : next.queue.lookup fileId with
    | none => rfl
    | some job =>
        obtain ⟨old, wasEntry, -⟩ := queue fileId job entry
        rw [absent] at wasEntry
        cases wasEntry

theorem State.setSlot_enqueue {index other : Nat} {slot : Slot γ} {call : EnqueueCall}
    {serial : Nat} {content : γ} {point : EnqueuePoint}
    (moved : ∀ call serial content point, slot ≠ .enqueue call serial content point)
    (isCall : (state.setSlot index slot).slots other = .enqueue call serial content point) :
    state.slots other = .enqueue call serial content point := by
  rw [State.setSlot_slots] at isCall
  split at isCall
  · exact absurd isCall (moved call serial content point)
  · exact isCall

theorem Recovering.noCalls (recovering : Recovering before state)
    (boot : ∀ index names, state.boot ≠ .recoveringIn index names) (index serial : Nat)
    (call : EnqueueCall) (content : γ) (point : EnqueuePoint) :
    state.slots index ≠ .enqueue call serial content point := by
  intro slot
  obtain ⟨⟨names, isBoot⟩, -⟩ := recovering.calls index call serial content point slot
  exact boot index names isBoot

theorem Recovering.recover (recovering : Recovering before state) {index second : Nat}
    {uuid name : Str} {names : List Str} {call : EnqueueCall} {content : γ}
    (boot : state.boot = .recovering (name :: names))
    (parsed : recoveryCall uuid name = some call)
    (temp : state.files.lookup (.journal call.tempName) = some content)
    (fresh : state.queue.lookup (['r', 'e', 'c', '_'] ++ uuid) = none)
    (stepped : Stepped maxRetries state (.recover index uuid second)
      { state.enqueueBegin index call second content with boot := .recoveringIn index names }) :
    Recovering before
      { state.enqueueBegin index call second content with
        boot := .recoveringIn index names } := by
  have slots (other : Nat) :
      ({ state.enqueueBegin index call second content with
        boot := .recoveringIn index names } : State γ).slots other =
        if other = index then .enqueue call state.nextSerial content
          (.move (.upload call.fileId second) (state.existingRetries call.fileId))
        else state.slots other := by
    rw [State.enqueueBegin_eq]
    exact Function.update_apply ..
  have queue : ({ state.enqueueBegin index call second content with
      boot := .recoveringIn index names } : State γ).queue = state.queue := by
    rw [State.enqueueBegin_eq]
  refine recovering.shrink (recovering.placed.step stepped) nofun ?_ ?_ ?_
  · intro path own present
    rcases stepped.files_lookup present with old | ⟨_, _, _, _, _, isMove, _, _⟩
    · exact old
    · cases isMove
  · intro fileId job entry
    rw [queue] at entry
    exact ⟨job, entry, rfl, rfl⟩
  · intro other otherCall serial own point slot
    rw [slots] at slot
    split at slot
    · rename_i same
      cases slot
      refine ⟨⟨names, by rw [same]⟩, ⟨content, ?_⟩, ?_, ?_⟩
      · rcases recovering.placed.journal_kept stepped temp with kept |
          ⟨_, _, _, _, _, _, isMove, _⟩
        · exact kept
        · cases isMove
      · intro isEdit
        unfold recoveryCall at parsed
        split at parsed <;> cases parsed
        · assumption
        · cases isEdit
      · intro isNew
        rw [queue]
        unfold recoveryCall at parsed
        split at parsed <;> cases parsed
        · cases isNew
        · exact fresh
    · exact absurd slot (recovering.noCalls (by simp [boot]) other serial otherCall own point)

theorem Recovering.move (recovering : Recovering before state) {index serial retries : Nat}
    {call : EnqueueCall} {content : γ} {safePath : LocalPath}
    (slot : state.slots index = .enqueue call serial content (.move safePath retries))
    (stepped : Stepped maxRetries state (.move index)
      ((state.moveFile (.journal call.tempName) safePath).setSlot index
        (.enqueue call serial content (.replace safePath retries)))) :
    Recovering before ((state.moveFile (.journal call.tempName) safePath).setSlot index
      (.enqueue call serial content (.replace safePath retries))) := by
  obtain ⟨⟨names, boot⟩, ⟨own, source⟩, edit, new⟩ :=
    recovering.calls index call serial content _ slot
  obtain ⟨second, rfl⟩ : ∃ second, safePath = .upload call.fileId second := by
    have placed := recovering.placed.slots index
    rwa [slot] at placed
  have orphaned (isEdit : call.isNew = false) : Orphaned before call.fileId own :=
    ⟨call.tempName, recovering.journal _ own source, edit isEdit⟩
  have queue : (state.moveFile (.journal call.tempName)
      (.upload call.fileId second)).queue = state.queue := by rw [State.moveFile_eq]
  have sameBoot : (state.moveFile (.journal call.tempName)
      (.upload call.fileId second)).boot = state.boot := by rw [State.moveFile_eq]
  refine ⟨recovering.placed.step stepped, ?_, ?_, ?_, ?_⟩
  · rw [State.setSlot_boot, sameBoot, boot]
    exact nofun
  · intro name found present
    exact recovering.journal name found (recovering.placed.journal_lookup stepped present)
  · intro fileId job entry isUpdate found present
    rw [State.setSlot_queue, queue] at entry
    rw [State.setSlot_files, State.moveFile_lookup source] at present
    split at present
    · rename_i isPath
      cases present
      obtain ⟨other, isOther⟩ := recovering.placed.queue fileId job entry
      rw [isPath, LocalPath.upload.injEq] at isOther
      obtain ⟨rfl, -⟩ := isOther
      cases isNew : call.isNew with
      | false => exact Or.inr (orphaned isNew)
      | true =>
          rw [new isNew] at entry
          cases entry
    · split at present
      · cases present
      · exact recovering.entries fileId job entry isUpdate found present
  · intro other otherCall otherSerial otherContent point isCall
    rw [State.setSlot_slots] at isCall
    split at isCall
    · rename_i same
      cases isCall
      refine ⟨⟨names, by rw [State.setSlot_boot, sameBoot, boot, same]⟩, ?_, ?_⟩
      · intro isEdit found present
        rw [State.setSlot_files, State.moveFile_lookup source, if_pos rfl] at present
        cases present
        exact orphaned isEdit
      · intro isNew
        rw [State.setSlot_queue, queue]
        exact new isNew
    · rename_i different
      have wasCall : state.slots other =
          .enqueue otherCall otherSerial otherContent point := by
        rw [State.moveFile_eq] at isCall
        exact isCall
      obtain ⟨⟨others, isBoot⟩, -⟩ := recovering.calls other _ _ _ _ wasCall
      rw [boot, Boot.recoveringIn.injEq] at isBoot
      exact absurd isBoot.1.symm different

theorem Recovering.replace (recovering : Recovering before state) {index serial retries : Nat}
    {call : EnqueueCall} {content : γ} {safePath : LocalPath}
    (slot : state.slots index = .enqueue call serial content (.replace safePath retries))
    (stepped : Stepped maxRetries state (.replace index)
      ((state.enqueueReplace call serial content safePath retries).setSlot index
        (.enqueue call serial content .submit))) :
    Recovering before ((state.enqueueReplace call serial content safePath retries).setSlot
      index (.enqueue call serial content .submit)) := by
  obtain ⟨⟨names, boot⟩, edit, new⟩ := recovering.calls index call serial content _ slot
  refine ⟨recovering.placed.step stepped, ?_, recovering.journal, ?_, ?_⟩
  · change state.boot ≠ .off
    exact recovering.started
  · intro fileId job entry isUpdate found present
    change (state.queue.insert call.fileId _).lookup fileId = _ at entry
    rw [Dict.lookup_insert_eq] at entry
    split at entry
    · rename_i same
      cases entry
      subst same
      refine Or.inr (edit ?_ found present)
      have isType : call.jobType = .update := isUpdate
      simpa [EnqueueCall.jobType] using isType
    · exact recovering.entries fileId job entry isUpdate found present
  · intro other otherCall otherSerial otherContent point isCall
    rw [State.setSlot_slots] at isCall
    split at isCall
    · rename_i same
      cases isCall
      exact ⟨⟨names, same ▸ boot⟩, trivial⟩
    · rename_i different
      obtain ⟨⟨others, isBoot⟩, -⟩ := recovering.calls other _ _ _ _ isCall
      rw [boot, Boot.recoveringIn.injEq] at isBoot
      exact absurd isBoot.1.symm different

theorem Recovering.step (recovering : Recovering before state) {label : Label}
    (restarting : Restarting state label) (stepped : Stepped maxRetries state label next) :
    Recovering before next := by
  have same (fileId : Str) (job : Job γ) (entry : state.queue.lookup fileId = some job) :
      ∃ old, state.queue.lookup fileId = some old ∧ old.path = job.path ∧
        old.jobType = job.jobType := ⟨job, entry, rfl, rfl⟩
  have removed (dropped : Str) (fileId : Str) (job : Job γ)
      (entry : (state.queue.erase dropped).lookup fileId = some job) :
      ∃ old, state.queue.lookup fileId = some old ∧ old.path = job.path ∧
        old.jobType = job.jobType := by
    rw [Dict.lookup_erase_eq] at entry
    split at entry
    · cases entry
    · exact same fileId job entry
  have failed {after : State γ} {failedId : Str} {isFatal armed : Bool}
      (handled : state.handleFailure maxRetries failedId isFatal = (after, armed))
      (fileId : Str) (job : Job γ) (entry : after.queue.lookup fileId = some job) :
      ∃ old, state.queue.lookup fileId = some old ∧ old.path = job.path ∧
        old.jobType = job.jobType := by
    rw [State.handleFailure_lookup handled] at entry
    split at entry
    · rename_i isFailed
      obtain ⟨old, wasEntry, rfl⟩ := Option.map_eq_some_iff.mp entry
      exact ⟨old, isFailed ▸ wasEntry, rfl, rfl⟩
    · exact same fileId job entry
  have started := recovering.started
  have taken := stepped
  cases stepped with
  | begin _ _ _ _ | moveRaises _ _ | crash => exact restarting.elim
  | start off _ => exact absurd off started
  | recover boot parsed slot temp unlocked =>
      exact recovering.recover boot parsed temp restarting taken
  | move slot => exact recovering.move slot taken
  | replace slot => exact recovering.replace slot taken
  | submit slot | pickNothing slot _ _ | pick slot _ _ _ | checkExists slot _
  | checkMissing slot _ | read slot _ | readVanished slot _ | replyAccepted slot
  | replyRejected slot | replyQuota slot | forget slot _ | fire slot =>
      exact recovering.aside taken nofun started same fun _ _ _ _ _ isCall =>
        ⟨State.setSlot_enqueue (by simp) isCall, rfl⟩
  | popRemoved slot | popMissing slot _ =>
      exact recovering.aside taken nofun started (removed _) fun _ _ _ _ _ isCall =>
        ⟨State.setSlot_enqueue (by simp) isCall, rfl⟩
  | failRetry slot unlocked handled | failOver slot unlocked handled =>
      refine recovering.aside taken nofun ?_ (fun _ _ entry => failed handled _ _ entry) ?_
      · rw [State.setSlot_boot, State.handleFailure_eq handled]
        exact started
      · intro _ _ _ _ _ isCall
        rw [State.setSlot_boot, State.handleFailure_eq handled]
        rw [State.handleFailure_eq handled] at isCall
        exact ⟨State.setSlot_enqueue (by simp) isCall, rfl⟩
  | recoverSkip boot _ | resume boot _ | sweepDone boot =>
      refine recovering.aside taken nofun nofun same
        fun index call serial content point isCall => ?_
      exact absurd isCall (recovering.noCalls (by simp [boot]) index serial call content point)
  | @recovered index names boot returned =>
      refine recovering.aside taken nofun nofun same
        fun other call serial content point isCall => ?_
      obtain ⟨⟨others, isBoot⟩, -⟩ := recovering.calls other call serial content point isCall
      rw [boot, Boot.recoveringIn.injEq] at isBoot
      exact absurd (isBoot.1 ▸ isCall) (returned call serial content point)
  | sweep boot slot =>
      refine recovering.aside taken nofun nofun same
        fun index call serial content point isCall => ?_
      exact absurd (State.setSlot_enqueue (by simp) isCall)
        (recovering.noCalls (by simp [boot]) index serial call content point)

theorem Placed.recovering (placed : Placed before) {label : Label}
    (restarting : Restarting before.crash label)
    (stepped : Stepped maxRetries before.crash label next) : Recovering before next := by
  have crashed : Placed before.crash := placed.step (.crash : Stepped maxRetries before .crash _)
  have isPlaced := crashed.step stepped
  cases stepped with
  | start off listed =>
      refine ⟨isPlaced, nofun, fun _ _ present => present, ?_, nofun⟩
      exact fun fileId job entry _ content present => Or.inl ⟨job, entry, present⟩
  | begin _ _ _ _ | moveRaises _ _ | crash => exact restarting.elim
  | move slot | replace slot | submit slot | pickNothing slot _ _ | pick slot _ _ _
  | checkExists slot _ | checkMissing slot _ | read slot _ | readVanished slot _
  | replyAccepted slot | replyRejected slot | replyQuota slot | forget slot _
  | popRemoved slot | popMissing slot _ | failRetry slot _ _ | failOver slot _ _
  | fire slot => cases slot
  | recover boot _ _ _ _ | recoverSkip boot _ | recovered boot _ | resume boot _
  | sweepDone boot | sweep boot _ => cases boot

end Recovering

/-- The process has crashed, or is loading and recovering since. -/
def Restarted (before state : State γ) : Prop :=
  state = before.crash ∨ Recovering before state

/-- Whatever the restart after a crash does, the local file of an update entry
holds what the saved queue had for the id, or a journal file that reads as an
edit of it. -/
theorem restart_entries {maxRetries : Nat} {before after : State γ} (placed : Placed before)
    (restart : Reaches (step maxRetries) Restarting before.crash after) {fileId : Str}
    {job : Job γ} (entry : after.queue.lookup fileId = some job)
    (isUpdate : job.jobType = .update) {content : γ}
    (file : after.files.lookup job.path = some content) :
    Queued before fileId content ∨ Orphaned before fileId content := by
  have initial : Restarted before before.crash := Or.inl rfl
  have restarted : Restarted before after := by
    refine restart.invariant (fun {state label next} restarted restarting taken => ?_) initial
    right
    rcases restarted with rfl | recovering
    · exact placed.recovering restarting (stepped_of_step taken)
    · exact recovering.step restarting (stepped_of_step taken)
  rcases restarted with rfl | recovering
  · cases entry
  · exact recovering.entries fileId job entry isUpdate content file

/-! ## Nothing to recover -/

/-- Over an empty journal directory a restart calls for nothing. -/
theorem Stepped.enqueued_of_empty {maxRetries : Nat} {state next : State γ} {label : Label}
    (stepped : Stepped maxRetries state label next) (restarting : Restarting state label)
    (empty : ∀ name, state.files.lookup (.journal name) = none) :
    next.enqueued = state.enqueued := by
  cases stepped with
  | begin _ _ _ _ | moveRaises _ _ | crash => exact restarting.elim
  | recover boot parsed slot temp unlocked =>
      rw [empty] at temp
      cases temp
  | move slot => rw [State.setSlot_enqueued, State.moveFile_eq]
  | failRetry slot unlocked handled | failOver slot unlocked handled =>
      rw [State.setSlot_enqueued, State.handleFailure_eq handled]
  | replace _ | submit _ | pickNothing _ _ _ | pick _ _ _ _ | checkExists _ _
  | checkMissing _ _ | read _ _ | readVanished _ _ | replyAccepted _ | replyRejected _
  | replyQuota _ | forget _ _ | popRemoved _ | popMissing _ _ | fire _ | start _ _
  | recoverSkip _ _ | recovered _ _ | resume _ _ | sweepDone _ | sweep _ _ => rfl

/-- The journal directory is empty and nothing was enqueued. -/
structure Unrecovered (before state : State γ) : Prop where
  placed : Placed state
  empty : ∀ name, state.files.lookup (.journal name) = none
  enqueued : state.enqueued = before.enqueued

theorem Unrecovered.step {maxRetries : Nat} {before state next : State γ} {label : Label}
    (unrecovered : Unrecovered before state) (restarting : Restarting state label)
    (stepped : Stepped maxRetries state label next) : Unrecovered before next where
  placed := unrecovered.placed.step stepped
  empty := by
    intro name
    cases file : next.files.lookup (.journal name) with
    | none => rfl
    | some content =>
        have present := unrecovered.placed.journal_lookup stepped file
        rw [unrecovered.empty] at present
        cases present
  enqueued := (stepped.enqueued_of_empty restarting unrecovered.empty).trans unrecovered.enqueued

/-- After a crash that leaves no journal file the recovery enqueues nothing. -/
theorem restart_enqueued {maxRetries : Nat} {before after : State γ} (placed : Placed before)
    (empty : ∀ name, before.files.lookup (.journal name) = none)
    (restart : Reaches (step maxRetries) Restarting before.crash after) :
    after.enqueued = before.enqueued := by
  have crashed : Placed before.crash := ⟨nofun, placed.saved, fun _ => trivial⟩
  have initial : Unrecovered before before.crash := ⟨crashed, empty, rfl⟩
  have unrecovered : Unrecovered before after :=
    restart.invariant (fun unrecovered restarting taken =>
      unrecovered.step restarting (stepped_of_step taken)) initial
  exact unrecovered.enqueued

end FuseDrive.Upload
