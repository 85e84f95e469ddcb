import FuseDrive.Fuse.Operations
import FuseDrive.Upload.Restart

/-!
# The journal files of the handles

Every writing handle has a file of its own in the journal directory, from
`mkstemp` until `enqueue_file_for_upload` has moved it away, and nobody else
touches it.  This holds in every run, with any number of crashes and restarts.
-/

namespace FuseDrive.Upload

variable {γ : Type}

/-- The journal file that an `enqueue_file_for_upload` call is about to move. -/
def Slot.moving : Slot γ → Option Str
  | .enqueue call _ _ (.move _ _) => some call.tempName
  | _ => none

section Moving

variable {maxRetries : Nat} {state next : State γ} {label : Label}

theorem State.setSlot_moving {index other : Nat} {slot : Slot γ} {name : Str}
    (rests : slot.moving = none)
    (moving : ((state.setSlot index slot).slots other).moving = some name) :
    (state.slots other).moving = some name := by
  rw [State.setSlot_slots] at moving
  split at moving
  · rw [rests] at moving
    cases moving
  · exact moving

theorem State.enqueueBegin_moving {index other second : Nat} {call : EnqueueCall}
    {content : γ} {name : Str}
    (moving : ((state.enqueueBegin index call second content).slots other).moving =
      some name) :
    (state.slots other).moving = some name ∨ other = index ∧ call.tempName = name := by
  rw [State.enqueueBegin_eq] at moving
  change (Function.update state.slots index _ other).moving = some name at moving
  rw [Function.update_apply] at moving
  split at moving
  · exact Or.inr ⟨‹_›, Option.some.inj moving⟩
  · exact Or.inl moving

theorem Stepped.moving_of_next (stepped : Stepped maxRetries state label next)
    {index : Nat} {name : Str} (moving : (next.slots index).moving = some name) :
    (state.slots index).moving = some name ∨
      (∃ call second, label = .begin index call second ∧ call.tempName = name) ∨
      (∃ uuid second listed names, label = .recover index uuid second ∧
        state.boot = .recovering listed ∧ next.boot = .recoveringIn index names) ∧
        ∃ content, state.files.lookup (.journal name) = some content := by
  cases stepped with
  | begin ready slot temp unlocked =>
      rcases State.enqueueBegin_moving moving with old | ⟨rfl, isName⟩
      · exact Or.inl old
      · exact Or.inr (Or.inl ⟨_, _, rfl, isName⟩)
  | recover boot parsed slot temp unlocked =>
      rcases State.enqueueBegin_moving moving with old | ⟨rfl, isName⟩
      · exact Or.inl old
      · exact Or.inr (Or.inr ⟨⟨_, _, _, _, rfl, boot, rfl⟩, _, isName ▸ temp⟩)
  | moveRaises _ _ =>
      rw [State.removeOldFile_eq] at moving
      exact Or.inl moving
  | move slot =>
      rw [State.moveFile_eq] at moving
      exact Or.inl (State.setSlot_moving rfl moving)
  | failRetry slot unlocked handled | failOver slot unlocked handled =>
      rw [State.handleFailure_eq handled] at moving
      exact Or.inl (State.setSlot_moving rfl moving)
  | replace slot | submit slot | pickNothing slot _ _ | pick slot _ _ _
  | checkExists slot _ | checkMissing slot _ | read slot _ | readVanished slot _
  | replyAccepted slot | replyRejected slot | replyQuota slot | forget slot _
  | popRemoved slot | popMissing slot _ | fire slot | sweep boot slot =>
      exact Or.inl (State.setSlot_moving rfl moving)
  | crash => cases moving
  | start _ _ | recoverSkip _ _ | recovered _ _ | resume _ _ | sweepDone _ =>
      exact Or.inl moving

theorem Stepped.not_moving_of_move {index : Nat}
    (stepped : Stepped maxRetries state (.move index) next) :
    (next.slots index).moving = none := by
  cases stepped with
  | move slot =>
      rw [State.setSlot_slots_self]
      rfl

/-- A started manager stays so. -/
theorem Stepped.boot_ready (stepped : Stepped maxRetries state label next)
    (ready : state.boot = .ready) (running : label ≠ .crash) : next.boot = .ready := by
  cases stepped with
  | begin _ _ _ _ =>
      rw [State.enqueueBegin_eq]
      exact ready
  | moveRaises _ _ =>
      rw [State.removeOldFile_eq]
      exact ready
  | move _ =>
      rw [State.setSlot_boot, State.moveFile_eq]
      exact ready
  | failRetry slot unlocked handled | failOver slot unlocked handled =>
      rw [State.setSlot_boot, State.handleFailure_eq handled]
      exact ready
  | replace _ | submit _ | pickNothing _ _ _ | pick _ _ _ _ | checkExists _ _
  | checkMissing _ _ | read _ _ | readVanished _ _ | replyAccepted _ | replyRejected _
  | replyQuota _ | forget _ _ | popRemoved _ | popMissing _ _ | fire _ => exact ready
  | crash => exact absurd rfl running
  | start boot _ | recover boot _ _ _ _ | recoverSkip boot _ | recovered boot _
  | resume boot _ | sweepDone boot | sweep boot _ => simp [ready] at boot

theorem Stepped.boot_recoveringIn (stepped : Stepped maxRetries state label next)
    {index : Nat} {names : List Str} {name : Str}
    (recovering : state.boot = .recoveringIn index names)
    (moving : (state.slots index).moving = some name) (running : label ≠ .crash) :
    next.boot = .recoveringIn index names := by
  cases stepped with
  | begin ready _ _ _ | moveRaises ready _ => simp [recovering] at ready
  | move _ =>
      rw [State.setSlot_boot, State.moveFile_eq]
      exact recovering
  | failRetry slot unlocked handled | failOver slot unlocked handled =>
      rw [State.setSlot_boot, State.handleFailure_eq handled]
      exact recovering
  | replace _ | submit _ | pickNothing _ _ _ | pick _ _ _ _ | checkExists _ _
  | checkMissing _ _ | read _ _ | readVanished _ _ | replyAccepted _ | replyRejected _
  | replyQuota _ | forget _ _ | popRemoved _ | popMissing _ _ | fire _ => exact recovering
  | crash => exact absurd rfl running
  | start boot _ | recover boot _ _ _ _ | recoverSkip boot _ | resume boot _
  | sweepDone boot | sweep boot _ => simp [recovering] at boot
  | recovered boot returned =>
      rw [recovering, Boot.recoveringIn.injEq] at boot
      obtain ⟨rfl, -⟩ := boot
      cases slot : state.slots index with
      | enqueue call serial content point => exact absurd slot (returned _ _ _ _)
      | free | queued _ | attempt _ _ _ | armed _ | done =>
          rw [slot] at moving
          cases moving

end Moving

end FuseDrive.Upload

namespace FuseDrive.Fuse

open Transition

/-- Who relies on a journal file: a handle until it hands the file over, or an
`enqueue_file_for_upload` call until it has moved it. -/
inductive Holder where
  | handle (fd : Nat)
  | mover (slot : Nat)

/-- `release` has not handed the temp file over yet. -/
def Closing.holdsFile (closing : Closing) : Bool :=
  match closing.point with
  | .record | .enqueue => true
  | .enqueueing _ | .invalidate => false

/-- The file somebody relies on. -/
def State.temp (state : State) : Holder → Option Str
  | .handle fd =>
      match state.writers fd, state.closing fd with
      | some writer, _ => some writer.tempName
      | none, some closing =>
          if closing.holdsFile then some closing.writer.tempName else none
      | none, none => none
  | .mover slot => (state.uploads.slots slot).moving

/-- The journal directory has the file of every handle, and no two rely on one
file. -/
structure Journaled (state : State) : Prop where
  placed : Upload.Placed state.uploads
  ready : ∀ fd name, state.temp (.handle fd) = some name → state.uploads.boot = .ready
  movers : ∀ slot name, state.temp (.mover slot) = some name →
    state.uploads.boot = .ready ∨ ∃ names, state.uploads.boot = .recoveringIn slot names
  apart : ∀ fd writer, state.writers fd = some writer → state.closing fd = none
  present : ∀ holder name, state.temp holder = some name →
    ∃ content, state.journal name = some content
  distinct : ∀ left right name, state.temp left = some name → state.temp right = some name →
    left = right
  closed : ∀ fd closing, state.closing fd = some closing → closing.holdsFile = true →
    state.journal closing.writer.tempName = some closing.content

/-- A mount over an empty journal directory and any saved queue. -/
structure Mounted (state : State) : Prop where
  queue : Upload.EntriesPlaced state.uploads.queue
  saved : Upload.EntriesPlaced state.uploads.savedQueue
  slots : ∀ index, state.uploads.slots index = .free
  journal : ∀ name, state.journal name = none
  writers : ∀ fd, state.writers fd = none
  closing : ∀ fd, state.closing fd = none

theorem Mounted.mount (content : Bytes) : Mounted (mount content) :=
  ⟨nofun, nofun, fun _ => rfl, fun _ => rfl, fun _ => rfl, fun _ => rfl⟩

section Journaled

variable {settings : Settings} {state next : State}

theorem State.temp_writer {fd : Nat} {writer : Writer}
    (opened : state.writers fd = some writer) :
    state.temp (.handle fd) = some writer.tempName := by
  simp [State.temp, opened]

theorem Journaled.temp_closing (journaled : Journaled state) {fd : Nat} {closing : Closing}
    (released : state.closing fd = some closing) (holds : closing.holdsFile = true) :
    state.temp (.handle fd) = some closing.writer.tempName := by
  cases opened : state.writers fd with
  | some writer =>
      rw [journaled.apart fd writer opened] at released
      cases released
  | none => simp [State.temp, opened, released, holds]

theorem State.temp_handle {fd : Nat} (writers : next.writers fd = state.writers fd)
    (closing : next.closing fd = state.closing fd) :
    next.temp (.handle fd) = state.temp (.handle fd) := by
  simp only [State.temp, writers, closing]

theorem State.temp_unused {fd : Nat} (unused : state.Unused fd) :
    state.temp (.handle fd) = none := by
  obtain ⟨writers, -, closing, -⟩ := unused
  rw [Option.isNone_iff_eq_none] at writers closing
  simp [State.temp, writers, closing]

theorem Mounted.temp (mounted : Mounted state) (holder : Holder) : state.temp holder = none := by
  cases holder with
  | handle fd => simp [State.temp, mounted.writers fd, mounted.closing fd]
  | mover slot => simp [State.temp, mounted.slots slot, Upload.Slot.moving]

theorem Mounted.journaled (mounted : Mounted state) : Journaled state where
  placed := by
    refine ⟨mounted.queue, mounted.saved, fun index => ?_⟩
    rw [mounted.slots index]
    trivial
  ready := by simp [mounted.temp]
  movers := by simp [mounted.temp]
  apart := by simp [mounted.writers]
  present := by simp [mounted.temp]
  distinct := by simp [mounted.temp]
  closed := by simp [mounted.closing]

/-- A step by which nobody comes to rely on a file. -/
theorem Journaled.keep (journaled : Journaled state) (placed : Upload.Placed next.uploads)
    (boot : next.uploads.boot = state.uploads.boot)
    (holders : ∀ holder name, next.temp holder = some name → state.temp holder = some name)
    (apart : ∀ fd writer, next.writers fd = some writer → next.closing fd = none)
    (present : ∀ holder name, next.temp holder = some name →
      ∃ content, next.journal name = some content)
    (closed : ∀ fd closing, next.closing fd = some closing → closing.holdsFile = true →
      next.journal closing.writer.tempName = some closing.content) :
    Journaled next where
  placed := placed
  ready := fun fd name isTemp => boot.trans (journaled.ready fd name (holders _ name isTemp))
  movers := by
    intro slot name isTemp
    rw [boot]
    exact journaled.movers slot name (holders _ name isTemp)
  apart := apart
  present := present
  distinct := fun left right name isLeft isRight =>
    journaled.distinct left right name (holders _ name isLeft) (holders _ name isRight)
  closed := closed

/-- The invariant does not speak of the caches, the reads, Drive and the
histories. -/
theorem Journaled.congr (journaled : Journaled state) (uploads : next.uploads = state.uploads)
    (writers : next.writers = state.writers) (closing : next.closing = state.closing) :
    Journaled next := by
  have temp : next.temp = state.temp := by
    funext holder
    cases holder with
    | handle fd => simp only [State.temp, writers, closing]
    | mover slot => simp only [State.temp, uploads]
  have journal : next.journal = state.journal := by
    funext name
    simp only [State.journal, uploads]
  refine journaled.keep (by rw [uploads]; exact journaled.placed) (by rw [uploads]) ?_ ?_ ?_ ?_
  · rw [temp]
    exact fun _ _ isTemp => isTemp
  · rw [writers, closing]
    exact journaled.apart
  · rw [temp, journal]
    exact journaled.present
  · rw [closing, journal]
    exact journaled.closed

theorem State.setWriter_writers (state : State) (fd other : Nat) (writer : Option Writer) :
    (state.setWriter fd writer).writers other =
      if other = fd then writer else state.writers other :=
  Function.update_apply ..

theorem State.setClosing_closing (state : State) (fd other : Nat) (closing : Option Closing) :
    (state.setClosing fd closing).closing other =
      if other = fd then closing else state.closing other :=
  Function.update_apply ..

theorem State.setFile_journal (state : State) (tempName name : Str) (bytes : Bytes) :
    (state.setFile tempName bytes).journal name =
      if name = tempName then some bytes else state.journal name := by
  simp only [State.journal, State.setFile, Dict.lookup_insert_eq,
    Upload.LocalPath.journal.injEq]

theorem State.removeFile_journal (state : State) (tempName name : Str) :
    (state.removeFile tempName).journal name =
      if name = tempName then none else state.journal name := by
  simp only [State.journal, State.removeFile, Dict.lookup_erase_eq,
    Upload.LocalPath.journal.injEq]

theorem Journaled.placed_files (journaled : Journaled state)
    (files : Dict Upload.LocalPath Bytes) :
    Upload.Placed { state.uploads with files := files } :=
  ⟨journaled.placed.queue, journaled.placed.saved, journaled.placed.slots⟩

theorem Journaled.setWriter (journaled : Journaled state) {fd : Nat} {writer later : Writer}
    (opened : state.writers fd = some writer) (same : later.tempName = writer.tempName) :
    Journaled (state.setWriter fd (some later)) := by
  have holders (holder : Holder) (name : Str)
      (isTemp : (state.setWriter fd (some later)).temp holder = some name) :
      state.temp holder = some name := by
    cases holder with
    | mover slot => exact isTemp
    | handle other =>
        by_cases isFd : other = fd
        · subst isFd
          rw [State.temp_writer ((state.setWriter_writers other other _).trans (if_pos rfl)),
            same] at isTemp
          rw [State.temp_writer opened]
          exact isTemp
        · rwa [State.temp_handle
            ((state.setWriter_writers fd other _).trans (if_neg isFd)) rfl] at isTemp
  refine journaled.keep journaled.placed rfl holders ?_ ?_ journaled.closed
  · intro other found isFound
    rw [State.setWriter_writers] at isFound
    split at isFound
    · rename_i isFd
      subst isFd
      exact journaled.apart other writer opened
    · exact journaled.apart other found isFound
  · intro holder name isTemp
    exact journaled.present holder name (holders holder name isTemp)

theorem Journaled.putFile (journaled : Journaled state) {tempName : Str} (bytes : Bytes)
    (unclosed : ∀ fd closing, state.closing fd = some closing → closing.holdsFile = true →
      state.temp (.handle fd) = some closing.writer.tempName →
        closing.writer.tempName ≠ tempName) : Journaled (state.setFile tempName bytes) := by
  refine journaled.keep (journaled.placed_files _) rfl (fun _ _ isTemp => isTemp)
    journaled.apart ?_ ?_
  · intro holder name isTemp
    rw [State.setFile_journal]
    split
    · exact ⟨bytes, rfl⟩
    · exact journaled.present holder name isTemp
  · intro fd closing released holds
    rw [State.setFile_journal, if_neg]
    · exact journaled.closed fd closing released holds
    · exact unclosed fd closing released holds (journaled.temp_closing released holds)

theorem Journaled.setFile (journaled : Journaled state) {fd : Nat} {writer : Writer}
    (opened : state.writers fd = some writer) (bytes : Bytes) :
    Journaled (state.setFile writer.tempName bytes) := by
  apply journaled.putFile bytes
  intro other closing released holds isTemp same
  have isFd := journaled.distinct _ _ _ isTemp (same ▸ State.temp_writer opened)
  rw [Holder.handle.injEq] at isFd
  subst isFd
  rw [journaled.apart other writer opened] at released
  cases released

theorem Journaled.mkstemp (journaled : Journaled state) {fd : Nat} {writer : Writer}
    (origin : Origin) (ready : state.uploads.boot = .ready)
    (noClosing : state.closing fd = none) (fresh : state.journal writer.tempName = none) :
    Journaled (state.mkstemp fd writer origin) := by
  have notOld (holder : Holder) : state.temp holder ≠ some writer.tempName := by
    intro isTemp
    obtain ⟨content, present⟩ := journaled.present holder _ isTemp
    rw [fresh] at present
    cases present
  have writers (other : Nat) : (state.mkstemp fd writer origin).writers other =
      if other = fd then some writer else state.writers other :=
    Function.update_apply ..
  have journal (name : Str) : (state.mkstemp fd writer origin).journal name =
      if name = writer.tempName then some [] else state.journal name :=
    state.setFile_journal writer.tempName name []
  have holders (holder : Holder) (name : Str)
      (isTemp : (state.mkstemp fd writer origin).temp holder = some name) :
      state.temp holder = some name ∨ holder = .handle fd ∧ name = writer.tempName := by
    cases holder with
    | mover slot => exact Or.inl isTemp
    | handle other =>
        by_cases isFd : other = fd
        · subst isFd
          rw [State.temp_writer ((writers other).trans (if_pos rfl)), Option.some.injEq]
            at isTemp
          exact Or.inr ⟨rfl, isTemp.symm⟩
        · left
          rwa [State.temp_handle ((writers other).trans (if_neg isFd)) rfl] at isTemp
  refine ⟨journaled.placed_files _, ?_, ?_, ?_, ?_, ?_, ?_⟩
  · exact fun other name _ => ready
  · intro slot name isTemp
    rcases holders _ _ isTemp with old | ⟨isHandle, -⟩
    · exact journaled.movers slot name old
    · cases isHandle
  · intro other found isFound
    rw [writers] at isFound
    split at isFound
    · rename_i isFd
      subst isFd
      exact noClosing
    · exact journaled.apart other found isFound
  · intro holder name isTemp
    rw [journal]
    split
    · exact ⟨[], rfl⟩
    · rcases holders _ _ isTemp with old | ⟨-, isName⟩
      · exact journaled.present holder name old
      · exact absurd isName ‹_›
  · intro left right name isLeft isRight
    rcases holders _ _ isLeft with oldLeft | ⟨rfl, rfl⟩
    · rcases holders _ _ isRight with oldRight | ⟨rfl, rfl⟩
      · exact journaled.distinct left right name oldLeft oldRight
      · exact absurd oldLeft (notOld left)
    · rcases holders _ _ isRight with oldRight | ⟨rfl, -⟩
      · exact absurd oldRight (notOld right)
      · rfl
  · intro other closing released holds
    rw [journal, if_neg]
    · exact journaled.closed other closing released holds
    · intro same
      exact notOld _ (same ▸ journaled.temp_closing released holds)

theorem Journaled.release (journaled : Journaled state) {fd : Nat} {writer : Writer}
    {content : Bytes} (opened : state.writers fd = some writer)
    (file : state.journal writer.tempName = some content) (point : ClosingPoint) :
    Journaled ((state.setWriter fd none).setClosing fd (some ⟨writer, content, point⟩)) := by
  have writers (other : Nat) : ((state.setWriter fd none).setClosing fd
      (some ⟨writer, content, point⟩)).writers other =
        if other = fd then none else state.writers other :=
    Function.update_apply ..
  have holders (holder : Holder) (name : Str) (isTemp : ((state.setWriter fd none).setClosing
      fd (some ⟨writer, content, point⟩)).temp holder = some name) :
      state.temp holder = some name := by
    cases holder with
    | mover slot => exact isTemp
    | handle other =>
        by_cases isFd : other = fd
        · subst isFd
          rw [State.temp_writer opened]
          simp only [State.temp, writers, State.setClosing_closing, if_pos] at isTemp
          split at isTemp
          · exact isTemp
          · cases isTemp
        · rwa [State.temp_handle ((writers other).trans (if_neg isFd))
            ((State.setClosing_closing _ fd other _).trans (if_neg isFd))] at isTemp
  refine journaled.keep journaled.placed rfl holders ?_ ?_ ?_
  · intro other found isFound
    rw [writers] at isFound
    split at isFound
    · cases isFound
    · rename_i isFd
      rw [State.setClosing_closing, if_neg isFd]
      exact journaled.apart other found isFound
  · intro holder name isTemp
    exact journaled.present holder name (holders holder name isTemp)
  · intro other closing released holds
    rw [State.setClosing_closing] at released
    split at released
    · cases released
      exact file
    · exact journaled.closed other closing released holds

theorem Journaled.discard (journaled : Journaled state) {fd : Nat} {writer : Writer}
    (opened : state.writers fd = some writer) :
    Journaled ((state.setWriter fd none).removeFile writer.tempName) := by
  have writers (other : Nat) : ((state.setWriter fd none).removeFile writer.tempName).writers
      other = if other = fd then none else state.writers other :=
    Function.update_apply ..
  have holders (holder : Holder) (name : Str) (isTemp : ((state.setWriter fd none).removeFile
      writer.tempName).temp holder = some name) :
      state.temp holder = some name ∧ holder ≠ .handle fd := by
    cases holder with
    | mover slot => exact ⟨isTemp, nofun⟩
    | handle other =>
        by_cases isFd : other = fd
        · subst isFd
          have closing : ((state.setWriter other none).removeFile writer.tempName).closing
              other = none := journaled.apart other writer opened
          simp [State.temp, writers, closing] at isTemp
        · refine ⟨?_, fun same => isFd (Holder.handle.inj same)⟩
          rwa [State.temp_handle ((writers other).trans (if_neg isFd)) rfl] at isTemp
  have different (holder : Holder) (name : Str) (isTemp : state.temp holder = some name)
      (notFd : holder ≠ .handle fd) : name ≠ writer.tempName := by
    rintro rfl
    exact notFd (journaled.distinct _ _ _ isTemp (State.temp_writer opened))
  refine journaled.keep (journaled.placed_files _) rfl
    (fun holder name isTemp => (holders holder name isTemp).1) ?_ ?_ ?_
  · intro other found isFound
    rw [writers] at isFound
    split at isFound
    · cases isFound
    · exact journaled.apart other found isFound
  · intro holder name isTemp
    obtain ⟨old, notFd⟩ := holders holder name isTemp
    rw [State.removeFile_journal, if_neg (different holder name old notFd)]
    exact journaled.present holder name old
  · intro other closing released holds
    have old : state.closing other = some closing := released
    have notFd : Holder.handle other ≠ .handle fd := by
      intro same
      rw [Holder.handle.injEq] at same
      subst same
      rw [journaled.apart _ writer opened] at old
      cases old
    rw [State.removeFile_journal,
      if_neg (different _ _ (journaled.temp_closing old holds) notFd)]
    exact journaled.closed other closing old holds

theorem Journaled.upload (journaled : Journaled state) {maxRetries : Nat}
    {label : Upload.Label} {uploads : Upload.State Bytes}
    (stepped : Upload.Stepped maxRetries state.uploads label uploads)
    (notBegin : ∀ index call second, label ≠ .begin index call second)
    (running : label ≠ .crash) (isUploads : next.uploads = uploads)
    (writers : next.writers = state.writers) (closing : next.closing = state.closing) :
    Journaled next := by
  subst isUploads
  have handles (fd : Nat) : next.temp (.handle fd) = state.temp (.handle fd) :=
    State.temp_handle (congrFun writers fd) (congrFun closing fd)
  -- a new mover is the recovery, which finds no holder of any file
  have holders (holder : Holder) (name : Str) (isTemp : next.temp holder = some name) :
      state.temp holder = some name ∨
        (∃ slot names, holder = .mover slot ∧ next.uploads.boot = .recoveringIn slot names ∧
          ∃ uuid second, label = .recover slot uuid second) ∧
          (∀ other otherName, state.temp other ≠ some otherName) ∧
          ∃ content, state.journal name = some content := by
    cases holder with
    | handle fd =>
        rw [handles] at isTemp
        exact Or.inl isTemp
    | mover slot =>
        rcases stepped.moving_of_next isTemp with old | ⟨call, second, isBegin, -⟩ |
          ⟨⟨uuid, second, listed, names, isRecover, boot, later⟩, present⟩
        · exact Or.inl old
        · exact absurd isBegin (notBegin _ _ _)
        · refine Or.inr ⟨⟨slot, names, rfl, later, uuid, second, isRecover⟩, ?_, present⟩
          intro other otherName otherTemp
          cases other with
          | handle fd => simp [journaled.ready fd _ otherTemp] at boot
          | mover otherSlot =>
              rcases journaled.movers otherSlot _ otherTemp with isReady | ⟨others, isBoot⟩
              · simp [isReady] at boot
              · simp [isBoot] at boot
  have kept (holder : Holder) (name : Str) (isTemp : next.temp holder = some name)
      (old : state.temp holder = some name) {content : Bytes}
      (present : state.journal name = some content) : next.journal name = some content := by
    rcases journaled.placed.journal_kept stepped present with still |
      ⟨index, call, serial, own, path, retries, rfl, slot, isName⟩
    · exact still
    · -- the file is moved, so its mover has moved it
      have moving : state.temp (.mover index) = some name := by
        rw [← isName]
        simp [State.temp, slot, Upload.Slot.moving]
      have same := journaled.distinct _ _ _ old moving
      subst same
      rw [State.temp, stepped.not_moving_of_move] at isTemp
      cases isTemp
  refine ⟨journaled.placed.step stepped, ?_, ?_, ?_, ?_, ?_, ?_⟩
  · intro fd name isTemp
    rw [handles] at isTemp
    exact stepped.boot_ready (journaled.ready fd name isTemp) running
  · intro slot name isTemp
    rcases holders _ _ isTemp with old | ⟨⟨other, names, isMover, later, -⟩, -⟩
    · rcases journaled.movers slot name old with isReady | ⟨names, isBoot⟩
      · exact Or.inl (stepped.boot_ready isReady running)
      · exact Or.inr ⟨names, stepped.boot_recoveringIn isBoot old running⟩
    · cases isMover
      exact Or.inr ⟨names, later⟩
  · rw [writers, closing]
    exact journaled.apart
  · intro holder name isTemp
    rcases holders _ _ isTemp with old | ⟨⟨slot, names, -, -, uuid, second, isRecover⟩, -,
      content, present⟩
    · obtain ⟨content, present⟩ := journaled.present holder name old
      exact ⟨content, kept holder name isTemp old present⟩
    · rcases journaled.placed.journal_kept stepped present with still |
        ⟨_, _, _, _, _, _, isMove, -⟩
      · exact ⟨content, still⟩
      · simp [isRecover] at isMove
  · intro left right name isLeft isRight
    rcases holders _ _ isLeft with oldLeft | ⟨⟨slot, names, rfl, boot, -⟩, none, -⟩
    · rcases holders _ _ isRight with oldRight | ⟨-, none, -⟩
      · exact journaled.distinct left right name oldLeft oldRight
      · exact absurd oldLeft (none _ _)
    · rcases holders _ _ isRight with oldRight | ⟨⟨other, otherNames, rfl, otherBoot, -⟩, -, -⟩
      · exact absurd oldRight (none _ _)
      · rw [boot, Upload.Boot.recoveringIn.injEq] at otherBoot
        rw [otherBoot.1]
  · intro fd found released holds
    rw [closing] at released
    have old := journaled.temp_closing released holds
    exact kept (.handle fd) _ (by rw [handles, old]) old (journaled.closed fd found released holds)

theorem Journaled.writers_closing (journaled : Journaled state) {fd : Nat} {closing : Closing}
    (released : state.closing fd = some closing) : state.writers fd = none := by
  cases opened : state.writers fd with
  | none => rfl
  | some writer =>
      rw [journaled.apart fd writer opened] at released
      cases released

theorem State.temp_setClosing {fd : Nat} {later : Option Closing}
    (noWriter : state.writers fd = none)
    (hands : ∀ found, later = some found → found.holdsFile = false) {holder : Holder}
    {name : Str} (isTemp : (state.setClosing fd later).temp holder = some name) :
    state.temp holder = some name ∧ holder ≠ .handle fd := by
  cases holder with
  | mover slot => exact ⟨isTemp, nofun⟩
  | handle other =>
      by_cases isFd : other = fd
      · subst isFd
        cases isLater : later with
        | none => simp [State.temp, State.setClosing, noWriter, isLater] at isTemp
        | some found =>
            simp [State.temp, State.setClosing, noWriter, isLater, hands found isLater]
              at isTemp
      · have same : (state.setClosing fd later).closing other = state.closing other :=
          (state.setClosing_closing fd other later).trans (if_neg isFd)
        have sameTemp : (state.setClosing fd later).temp (.handle other) =
            state.temp (.handle other) := State.temp_handle rfl same
        rw [sameTemp] at isTemp
        exact ⟨isTemp, fun isHandle => isFd (Holder.handle.inj isHandle)⟩

theorem Journaled.setClosing (journaled : Journaled state) {fd : Nat} {closing : Closing}
    (released : state.closing fd = some closing) {later : Option Closing}
    (hands : ∀ found, later = some found → found.holdsFile = false) :
    Journaled (state.setClosing fd later) := by
  have noWriter := journaled.writers_closing released
  have holders (holder : Holder) (name : Str)
      (isTemp : (state.setClosing fd later).temp holder = some name) :
      state.temp holder = some name := (State.temp_setClosing noWriter hands isTemp).1
  refine journaled.keep journaled.placed rfl holders ?_ ?_ ?_
  · intro other writer opened
    rw [State.setClosing_closing]
    split
    · rename_i isFd
      subst isFd
      rw [show state.writers other = some writer from opened] at noWriter
      cases noWriter
    · exact journaled.apart other writer opened
  · exact fun holder name isTemp => journaled.present holder name (holders holder name isTemp)
  · intro other found isFound stillHolds
    rw [State.setClosing_closing] at isFound
    split at isFound
    · rw [hands found isFound] at stillHolds
      cases stillHolds
    · exact journaled.closed other found isFound stillHolds

/-- An `enqueue_file_for_upload` call for a file nobody relies on begins. -/
theorem Journaled.begin (journaled : Journaled state) {maxRetries slot second : Nat}
    {call : Upload.EnqueueCall} {uploads : Upload.State Bytes}
    (unheld : ∀ holder, state.temp holder ≠ some call.tempName)
    (begun : Upload.Stepped maxRetries state.uploads (.begin slot call second) uploads) :
    Journaled { state with uploads := uploads } := by
  obtain ⟨content, ready, free, temp, unlocked, isBegun⟩ := begun.of_begin
  have boot : uploads.boot = .ready := begun.boot_ready ready nofun
  generalize isNext : ({ state with uploads := uploads } : State) = next
  have sameUploads : next.uploads = uploads := by rw [← isNext]
  have writers : next.writers = state.writers := by rw [← isNext]
  have closings : next.closing = state.closing := by rw [← isNext]
  have holders (holder : Holder) (name : Str) (held : next.temp holder = some name) :
      state.temp holder = some name ∨ holder = .mover slot ∧ call.tempName = name := by
    cases holder with
    | handle fd =>
        rw [State.temp_handle (congrFun writers fd) (congrFun closings fd)] at held
        exact Or.inl held
    | mover other =>
        rw [State.temp, sameUploads, isBegun] at held
        rcases Upload.State.enqueueBegin_moving held with old | ⟨rfl, isName⟩
        · exact Or.inl old
        · exact Or.inr ⟨rfl, isName⟩
  have kept {name : Str} {bytes : Bytes} (file : state.journal name = some bytes) :
      next.journal name = some bytes := by
    rw [State.journal, sameUploads]
    rcases journaled.placed.journal_kept begun file with still | ⟨_, _, _, _, _, _, isMove, -⟩
    · exact still
    · cases isMove
  refine ⟨?_, ?_, ?_, ?_, ?_, ?_, ?_⟩
  · rw [sameUploads]
    exact journaled.placed.step begun
  · rw [sameUploads]
    exact fun _ _ _ => boot
  · rw [sameUploads]
    exact fun _ _ _ => Or.inl boot
  · rw [writers, closings]
    exact journaled.apart
  · intro holder name held
    rcases holders _ _ held with old | ⟨-, rfl⟩
    · obtain ⟨bytes, file⟩ := journaled.present holder name old
      exact ⟨bytes, kept file⟩
    · exact ⟨content, kept temp⟩
  · intro left right name isLeft isRight
    rcases holders _ _ isLeft with oldLeft | ⟨rfl, rfl⟩
    · rcases holders _ _ isRight with oldRight | ⟨rfl, rfl⟩
      · exact journaled.distinct left right name oldLeft oldRight
      · exact absurd oldLeft (unheld left)
    · rcases holders _ _ isRight with oldRight | ⟨rfl, -⟩
      · exact absurd oldRight (unheld right)
      · rfl
  · intro fd closing released holds
    rw [closings] at released
    exact kept (journaled.closed fd closing released holds)

theorem Journaled.enqueue (journaled : Journaled state) {maxRetries fd slot second : Nat}
    {closing : Closing} {uploads : Upload.State Bytes}
    (released : state.closing fd = some closing) (holds : closing.holdsFile = true)
    (begun : Upload.Stepped maxRetries state.uploads
      (.begin slot closing.writer.enqueueCall second) uploads) :
    Journaled ({ state with uploads := uploads }.setClosing fd
      (some { closing with point := .enqueueing slot })) := by
  have hands (found : Closing) (isFound : some { closing with point := .enqueueing slot } =
      some found) : found.holdsFile = false := by
    cases isFound
    rfl
  have handed := journaled.setClosing released hands
  refine handed.begin (fun holder isTemp => ?_) begun
  obtain ⟨old, notFd⟩ := State.temp_setClosing (journaled.writers_closing released) hands isTemp
  exact notFd (journaled.distinct _ _ _ old (journaled.temp_closing released holds))

theorem Journaled.crash (journaled : Journaled state) : Journaled state.crash := by
  have temp (holder : Holder) : state.crash.temp holder = none := by
    cases holder <;> rfl
  have crashed : Upload.Stepped 0 state.uploads .crash state.uploads.crash := .crash
  have placed : Upload.Placed state.uploads.crash := journaled.placed.step crashed
  have writers (fd : Nat) : state.crash.writers fd = none := rfl
  have closing (fd : Nat) : state.crash.closing fd = none := rfl
  refine ⟨placed, ?_, ?_, ?_, ?_, ?_, ?_⟩ <;> simp [temp, writers, closing]

theorem holdsFile_of_readyToEnqueue {fd : Nat} {closing : Closing}
    (ready : state.readyToEnqueue fd closing = true) : closing.holdsFile = true := by
  unfold State.readyToEnqueue at ready
  unfold Closing.holdsFile
  split at ready <;> simp_all

theorem Advanced.tempName {writer later : Writer} {bytes content : Bytes} {noted : Noted}
    (advanced : Advanced state writer bytes later content noted) :
    later.tempName = writer.tempName := by
  cases advanced <;> rfl

theorem Journaled.step (journaled : Journaled state) {label : Label}
    (stepped : Stepped settings state label next) : Journaled next := by
  cases stepped with
  | openWrite serves unused found fresh =>
      exact journaled.mkstemp _ serves.1 (Option.isNone_iff_eq_none.mp unused.2.2.1) fresh
  | @create fd path uuid suffix now index parentId store serves unused parent fresh recorded =>
      have loaded : Journaled
          { state with store := store, paths := state.paths.insert path (localPrefix ++ uuid) } :=
        journaled.congr rfl rfl rfl
      exact loaded.mkstemp _ serves.1 (Option.isNone_iff_eq_none.mp unused.2.2.1) fresh
  | call opened idle => exact journaled.setWriter opened rfl
  | @advance fd storageFails writer bytes later content noted opened file advanced =>
      have written := (journaled.setFile opened content).setWriter opened advanced.tempName
      rw [← advanced.tempName] at written
      exact written.congr rfl rfl rfl
  | releaseNew opened idle file new => exact journaled.release opened file _
  | releaseModified opened idle file old modified => exact journaled.release opened file _
  | releaseUnmodified opened idle file old unmodified => exact journaled.discard opened
  | enqueue released ready begun =>
      exact journaled.enqueue released (holdsFile_of_readyToEnqueue ready) begun
  | enqueuedNew released point returned new =>
      exact (journaled.setClosing released (by simp)).congr rfl rfl rfl
  | enqueuedEdit released point returned old =>
      refine journaled.setClosing released fun found isFound => ?_
      cases isFound
      rfl
  | editReleased released point moved =>
      exact (journaled.setClosing released (by simp)).congr rfl rfl rfl
  | accept sent issues replied changed => exact journaled.upload replied nofun nofun rfl rfl rfl
  | upload background moved =>
      refine journaled.upload moved ?_ ?_ rfl rfl rfl
      · rintro _ _ _ rfl
        cases background
      · rintro rfl
        cases background
  | crash => exact journaled.crash
  | openRead _ _ _ | releaseReader _ | edit _ _ _ _ | beginRead _ _ | advanceRead _ _
  | store _ _ | map _ _ _ | unmap => exact journaled.congr rfl rfl rfl

end Journaled

end FuseDrive.Fuse
