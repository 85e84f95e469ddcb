import FuseDrive.Fuse.FileSystem

/-!
# The journal holds the open handles

`open` and `create` make a file in the journal directory, `rename` copies one
there, and `enqueue_file_for_upload` moves files away.  Without a crash every
file of the directory is that of an open handle or of a `release` or `rename`
call that has yet to hand it over, so between the calls the directory is what
the open handles have, and a restart after the last `release` recovers nothing.
-/

namespace FuseDrive.Upload

variable {γ : Type} {maxRetries : Nat} {state next : State γ} {label : Label}

theorem State.setSlot_moving_kept {index other : Nat} {old slot : Slot γ} {name : Str}
    (was : state.slots index = old) (rests : old.moving = none)
    (moving : (state.slots other).moving = some name) :
    ((state.setSlot index slot).slots other).moving = some name := by
  rw [State.setSlot_slots, if_neg]
  · exact moving
  · rintro rfl
    rw [was, rests] at moving
    cases moving

theorem Slot.moving_of_returned {slot : Slot γ}
    (returned : ∀ call serial content point, slot ≠ .enqueue call serial content point) :
    slot.moving = none := by
  cases slot with
  | enqueue call serial content point => exact absurd rfl (returned call serial content point)
  | free | queued _ | attempt _ _ _ | armed _ | done => rfl

theorem State.enqueueBegin_moving_kept {index other second : Nat} {call : EnqueueCall}
    {content : γ} {name : Str} (free : state.slots index = .free)
    (moving : (state.slots other).moving = some name) :
    ((state.enqueueBegin index call second content).slots other).moving = some name := by
  rw [State.enqueueBegin_eq]
  exact State.setSlot_moving_kept free rfl moving

/-- A call that moves a file stays at it until the file is gone. -/
theorem Placed.moving_kept (placed : Placed state)
    (stepped : Stepped maxRetries state label next) (running : label ≠ .crash) {other : Nat}
    {name : Str} (moving : (state.slots other).moving = some name) :
    (next.slots other).moving = some name ∨ next.files.lookup (.journal name) = none := by
  cases stepped with
  | begin ready slot temp unlocked => exact Or.inl (State.enqueueBegin_moving_kept slot moving)
  | recover boot parsed slot temp unlocked =>
      exact Or.inl (State.enqueueBegin_moving_kept slot moving)
  | moveRaises _ _ =>
      rw [State.removeOldFile_eq]
      exact Or.inl moving
  | @move index call serial content safePath retries slot =>
      by_cases same : other = index
      · right
        subst same
        rw [slot] at moving
        cases moving
        have own := placed.slots other
        rw [slot] at own
        obtain ⟨second, rfl⟩ := own
        change (state.moveFile (.journal call.tempName) _).files.lookup _ = _
        cases source : state.files.lookup (.journal call.tempName) with
        | none => simp [State.moveFile, source]
        | some moved => simp [State.moveFile_lookup source]
      · left
        rw [State.setSlot_slots, if_neg same, State.moveFile_eq]
        exact moving
  | failRetry slot unlocked handled | failOver slot unlocked handled =>
      left
      rw [State.handleFailure_eq handled]
      exact State.setSlot_moving_kept slot rfl moving
  | replace slot | submit slot | pickNothing slot _ _ | pick slot _ _ _
  | checkExists slot _ | checkMissing slot _ | read slot _ | readVanished slot _
  | replyAccepted slot | replyRejected slot | replyQuota slot | forget slot _
  | popRemoved slot | popMissing slot _ | fire slot | sweep boot slot =>
      exact Or.inl (State.setSlot_moving_kept slot rfl moving)
  | crash => exact absurd rfl running
  | start _ _ | recoverSkip _ _ | recovered _ _ | resume _ _ | sweepDone _ =>
      exact Or.inl moving

end FuseDrive.Upload

namespace FuseDrive.Fuse

open Transition

/-! ## The steps of the handles -/

/-- A `release` call waits for the `enqueue_file_for_upload` call of a slot. -/
def State.Called (state : State) (slot : Nat) : Prop :=
  ∃ fd closing, state.closing fd = some closing ∧ closing.point = .enqueueing slot

/-- A name that no `rename` gives. -/
def NotAtomic (name : Str) : Prop :=
  name.head? ≠ some 'f'

/-- What a step leaves of the holders of journal files: nobody loses a file
that is still there, and who takes one has it from a handle or from
`mkstemp`. -/
structure Succession (state next : State) : Prop where
  ready : state.uploads.boot = .ready → next.uploads.boot = .ready
  taken : ∀ holder name, next.temp holder = some name →
    state.temp holder = some name ∨ (∃ fd, state.temp (.handle fd) = some name) ∨
      NotAtomic name
  owned : ∀ name content, next.journal name = some content →
    (∃ holder, next.temp holder = some name) ∨
      state.journal name = some content ∧ ∀ holder, state.temp holder ≠ some name
  called : ∀ slot name, next.temp (.mover slot) = some name → next.Called slot ∨
    state.temp (.mover slot) = some name ∧ ¬ state.Called slot

namespace Succession

variable {state middle next : State}

theorem trans (first : Succession state middle) (second : Succession middle next) :
    Succession state next where
  ready := fun ready => second.ready (first.ready ready)
  taken := by
    intro holder name isTemp
    rcases second.taken holder name isTemp with same | ⟨fd, isHandle⟩ | notAtomic
    · exact first.taken holder name same
    · rcases first.taken _ _ isHandle with before | earlier | notAtomic
      · exact Or.inr (Or.inl ⟨fd, before⟩)
      · exact Or.inr (Or.inl earlier)
      · exact Or.inr (Or.inr notAtomic)
    · exact Or.inr (Or.inr notAtomic)
  owned := by
    intro name content present
    rcases second.owned name content present with held | ⟨was, unheld⟩
    · exact Or.inl held
    · rcases first.owned name content was with ⟨holder, held⟩ | before
      · exact absurd held (unheld holder)
      · exact Or.inr before
  called := by
    intro slot name moving
    rcases second.called slot name moving with called | ⟨was, uncalled⟩
    · exact Or.inl called
    · rcases first.called slot name was with called | before
      · exact absurd called uncalled
      · exact Or.inr before

/-- It is enough to see who keeps a file that is still there, and which waiting
calls go on. -/
theorem of_kept (ready : state.uploads.boot = .ready → next.uploads.boot = .ready)
    (taken : ∀ holder name, next.temp holder = some name →
      state.temp holder = some name ∨ (∃ fd, state.temp (.handle fd) = some name) ∨
        NotAtomic name)
    (journal : ∀ name content, next.journal name = some content →
      (∃ holder, next.temp holder = some name) ∨ state.journal name = some content)
    (kept : ∀ holder name content, state.temp holder = some name →
      next.journal name = some content → ∃ later, next.temp later = some name)
    (called : ∀ slot name, next.temp (.mover slot) = some name → next.Called slot ∨
      state.temp (.mover slot) = some name ∧ (state.Called slot → next.Called slot)) :
    Succession state next where
  ready := ready
  taken := taken
  owned := by
    intro name content present
    rcases journal name content present with held | was
    · exact Or.inl held
    · by_cases wasHeld : ∃ holder, state.temp holder = some name
      · obtain ⟨holder, isTemp⟩ := wasHeld
        exact Or.inl (kept holder name content isTemp present)
      · exact Or.inr ⟨was, fun holder isTemp => wasHeld ⟨holder, isTemp⟩⟩
  called := by
    intro slot name moving
    rcases called slot name moving with isCalled | ⟨was, goesOn⟩
    · exact Or.inl isCalled
    · by_cases wasCalled : state.Called slot
      · exact Or.inl (goesOn wasCalled)
      · exact Or.inr ⟨was, wasCalled⟩

/-- A step that changes neither the holders nor the directory. -/
theorem of_temp (boot : next.uploads.boot = state.uploads.boot) (temp : next.temp = state.temp)
    (journal : next.journal = state.journal)
    (called : ∀ slot name, state.temp (.mover slot) = some name → state.Called slot →
      next.Called slot) : Succession state next := by
  apply of_kept
  · rw [boot]
    exact id
  · rw [temp]
    exact fun holder name isTemp => Or.inl isTemp
  · rw [journal]
    exact fun name content present => Or.inr present
  · rw [temp]
    exact fun holder name content isTemp present => ⟨holder, isTemp⟩
  · rw [temp]
    exact fun slot name moving => Or.inr ⟨moving, called slot name moving⟩

theorem of_same (uploads : next.uploads = state.uploads)
    (writers : next.writers = state.writers) (closing : next.closing = state.closing) :
    Succession state next := by
  refine of_temp (by rw [uploads]) ?_ ?_ ?_
  · funext holder
    cases holder with
    | handle fd => simp only [State.temp, writers, closing]
    | mover slot => simp only [State.temp, uploads]
  · funext name
    simp only [State.journal, uploads]
  · rintro slot name - ⟨fd, found, released, point⟩
    exact ⟨fd, found, by rw [closing, released], point⟩

theorem setWriter (state : State) {fd : Nat} {writer : Writer}
    (own : state.temp (.handle fd) = some writer.tempName ∨
      state.temp (.handle fd) = none ∧ NotAtomic writer.tempName) :
    Succession state (state.setWriter fd (some writer)) := by
  have isFd : (state.setWriter fd (some writer)).temp (.handle fd) = some writer.tempName :=
    State.temp_writer ((state.setWriter_writers fd fd _).trans (if_pos rfl))
  have others (holder : Holder) (notFd : holder ≠ .handle fd) :
      (state.setWriter fd (some writer)).temp holder = state.temp holder := by
    cases holder with
    | mover slot => rfl
    | handle other =>
        have different : other ≠ fd := fun same => notFd (same ▸ rfl)
        exact State.temp_handle ((state.setWriter_writers fd other _).trans (if_neg different))
          rfl
  refine of_kept id ?_ (fun name content present => Or.inr present) ?_
    (fun slot name moving => Or.inr ⟨moving, id⟩)
  · intro holder name isTemp
    by_cases same : holder = .handle fd
    · subst same
      rw [isFd, Option.some.injEq] at isTemp
      subst isTemp
      rcases own with kept | ⟨-, notAtomic⟩
      · exact Or.inl kept
      · exact Or.inr (Or.inr notAtomic)
    · rw [others holder same] at isTemp
      exact Or.inl isTemp
  · intro holder name content isTemp present
    by_cases same : holder = .handle fd
    · subst same
      rcases own with kept | ⟨none, -⟩
      · rw [kept] at isTemp
        exact ⟨_, isFd.trans isTemp⟩
      · rw [none] at isTemp
        cases isTemp
    · exact ⟨holder, (others holder same).trans isTemp⟩

theorem setFile (state : State) {tempName : Str} (bytes : Bytes) {owner : Holder}
    (held : state.temp owner = some tempName) :
    Succession state (state.setFile tempName bytes) := by
  refine of_kept id (fun holder name isTemp => Or.inl isTemp) ?_
    (fun holder name content isTemp _ => ⟨holder, isTemp⟩)
    (fun slot name moving => Or.inr ⟨moving, id⟩)
  intro name content present
  rw [State.setFile_journal] at present
  split at present
  · rename_i same
    exact Or.inl ⟨owner, same ▸ held⟩
  · exact Or.inr present

theorem mkstemp (state : State) {fd : Nat} {writer : Writer} (origin : Origin)
    (unheld : state.temp (.handle fd) = none) (notAtomic : NotAtomic writer.tempName) :
    Succession state (state.mkstemp fd writer origin) := by
  have opened : Succession state (state.setWriter fd (some writer)) :=
    setWriter state (Or.inr ⟨unheld, notAtomic⟩)
  have held : (state.setWriter fd (some writer)).temp (.handle fd) = some writer.tempName :=
    State.temp_writer ((state.setWriter_writers fd fd _).trans (if_pos rfl))
  exact (opened.trans (setFile _ [] held)).trans (of_same rfl rfl rfl)

theorem setHandle (state : State) {fd : Nat} {writer later : Writer} (bytes : Bytes)
    (noted : Noted) (opened : state.writers fd = some writer)
    (same : later.tempName = writer.tempName) :
    Succession state (state.setHandle fd later bytes noted) := by
  have held : state.temp (.handle fd) = some later.tempName := by
    rw [same]
    exact State.temp_writer opened
  have kept : Succession state (state.setWriter fd (some later)) :=
    setWriter state (Or.inl held)
  have stillHeld : (state.setWriter fd (some later)).temp (.handle fd) = some later.tempName :=
    State.temp_writer ((state.setWriter_writers fd fd _).trans (if_pos rfl))
  exact (kept.trans (setFile _ bytes stillHeld)).trans (of_same rfl rfl rfl)

theorem release (journaled : Journaled state) {fd : Nat} (closing : Closing)
    (opened : state.writers fd = some closing.writer) (holds : closing.holdsFile = true) :
    Succession state ((state.setWriter fd none).setClosing fd (some closing)) := by
  have writers (other : Nat) : ((state.setWriter fd none).setClosing fd
      (some closing)).writers other = if other = fd then none else state.writers other :=
    Function.update_apply ..
  refine of_temp rfl ?_ rfl ?_
  · funext holder
    cases holder with
    | mover slot => rfl
    | handle other =>
        by_cases isFd : other = fd
        · subst isFd
          simp only [State.temp, writers, State.setClosing_closing, if_pos, opened, holds]
        · exact State.temp_handle ((writers other).trans (if_neg isFd))
            ((State.setClosing_closing _ fd other _).trans (if_neg isFd))
  · rintro slot name - ⟨other, found, released, point⟩
    refine ⟨other, found, ?_, point⟩
    rw [State.setClosing_closing, if_neg]
    · exact released
    · rintro rfl
      rw [journaled.apart other _ opened] at released
      cases released

theorem discard (journaled : Journaled state) {fd : Nat} {writer : Writer}
    (opened : state.writers fd = some writer) :
    Succession state ((state.setWriter fd none).removeFile writer.tempName) := by
  have writers (other : Nat) : ((state.setWriter fd none).removeFile writer.tempName).writers
      other = if other = fd then none else state.writers other :=
    Function.update_apply ..
  have others (holder : Holder) (notFd : holder ≠ .handle fd) :
      ((state.setWriter fd none).removeFile writer.tempName).temp holder =
        state.temp holder := by
    cases holder with
    | mover slot => rfl
    | handle other =>
        have different : other ≠ fd := fun same => notFd (same ▸ rfl)
        exact State.temp_handle ((writers other).trans (if_neg different)) rfl
  refine of_kept id ?_ ?_ ?_ (fun slot name moving => Or.inr ⟨moving, id⟩)
  · intro holder name isTemp
    by_cases same : holder = .handle fd
    · subst same
      have closing : ((state.setWriter fd none).removeFile writer.tempName).closing fd = none :=
        journaled.apart fd writer opened
      simp [State.temp, writers, closing] at isTemp
    · rw [others holder same] at isTemp
      exact Or.inl isTemp
  · intro name content present
    rw [State.removeFile_journal] at present
    split at present
    · cases present
    · exact Or.inr present
  · intro holder name content isTemp present
    refine ⟨holder, (others holder ?_).trans isTemp⟩
    rintro rfl
    rw [State.temp_writer opened, Option.some.injEq] at isTemp
    rw [State.removeFile_journal, if_pos isTemp.symm] at present
    cases present

theorem enqueue (journaled : Journaled state) {maxRetries fd slot second : Nat}
    {closing : Closing} {uploads : Upload.State Bytes}
    (released : state.closing fd = some closing) (holds : closing.holdsFile = true)
    (begun : Upload.Stepped maxRetries state.uploads
      (.begin slot closing.writer.enqueueCall second) uploads) :
    Succession state ({ state with uploads := uploads }.setClosing fd
      (some { closing with point := .enqueueing slot })) := by
  have hands (found : Closing) (isFound : some { closing with point := .enqueueing slot } =
      some found) : found.holdsFile = false := by
    cases isFound
    rfl
  have wasHeld := journaled.temp_closing released holds
  have noWriter := journaled.writers_closing released
  obtain ⟨content, ready, free, temp, unlocked, isBegun⟩ := begun.of_begin
  have moves : (uploads.slots slot).moving = some closing.writer.tempName := by
    rw [isBegun, Upload.State.enqueueBegin_eq]
    simp only [Function.update_self]
    rfl
  have moved {other : Nat} {name : Str} (moving : (uploads.slots other).moving = some name) :
      (state.uploads.slots other).moving = some name ∨
        other = slot ∧ closing.writer.tempName = name := by
    rw [isBegun] at moving
    exact Upload.State.enqueueBegin_moving moving
  generalize isNext : ({ state with uploads := uploads }.setClosing fd
    (some { closing with point := .enqueueing slot })) = next
  have closings (other : Nat) : next.closing other =
      if other = fd then some { closing with point := .enqueueing slot }
      else state.closing other := by
    rw [← isNext, State.setClosing_closing]
  have movers (other : Nat) : next.temp (.mover other) = (uploads.slots other).moving := by
    rw [← isNext]
    rfl
  have handles (other : Nat) (different : other ≠ fd) :
      next.temp (.handle other) = state.temp (.handle other) :=
    State.temp_handle (by rw [← isNext]; rfl) ((closings other).trans (if_neg different))
  refine of_kept (fun _ => ?_) ?_ ?_ ?_ ?_
  · rw [← isNext]
    exact begun.boot_ready ready nofun
  · intro holder name isTemp
    cases holder with
    | mover other =>
        rw [movers] at isTemp
        rcases moved isTemp with old | ⟨-, rfl⟩
        · exact Or.inl old
        · exact Or.inr (Or.inl ⟨fd, wasHeld⟩)
    | handle other =>
        have closed : ({ state with uploads := uploads } : State).writers fd = none := noWriter
        rw [← isNext] at isTemp
        exact Or.inl (State.temp_setClosing closed hands isTemp).1
  · intro name bytes present
    rw [← isNext] at present
    exact Or.inr (journaled.placed.journal_lookup begun present)
  · intro holder name bytes isTemp present
    cases holder with
    | mover other =>
        refine ⟨.mover other, ?_⟩
        rw [movers, isBegun]
        exact Upload.State.enqueueBegin_moving_kept free isTemp
    | handle other =>
        by_cases isFd : other = fd
        · subst isFd
          rw [wasHeld] at isTemp
          exact ⟨.mover slot, (movers slot).trans (moves.trans isTemp)⟩
        · exact ⟨.handle other, (handles other isFd).trans isTemp⟩
  · intro other name moving
    rw [movers] at moving
    rcases moved moving with old | ⟨rfl, -⟩
    · refine Or.inr ⟨old, ?_⟩
      rintro ⟨caller, found, isFound, point⟩
      refine ⟨caller, found, ?_, point⟩
      rw [closings, if_neg]
      · exact isFound
      · rintro rfl
        rw [released, Option.some.injEq] at isFound
        subst isFound
        simp [Closing.holdsFile, point] at holds
    · exact Or.inl ⟨fd, _, (closings fd).trans (if_pos rfl), rfl⟩

theorem setClosing (journaled : Journaled state) {fd : Nat} {closing : Closing}
    (released : state.closing fd = some closing) (later : Option Closing)
    (past : closing.holdsFile = false) (hands : ∀ found, later = some found → found.holdsFile = false)
    (rests : ∀ slot, closing.point = .enqueueing slot → state.temp (.mover slot) = none) :
    Succession state (state.setClosing fd later) := by
  have noWriter := journaled.writers_closing released
  refine of_temp rfl ?_ rfl ?_
  · funext holder
    cases holder with
    | mover slot => rfl
    | handle other =>
        by_cases isFd : other = fd
        · subst isFd
          cases isLater : later with
          | none => simp [State.temp, State.setClosing, noWriter, released, past]
          | some found =>
              simp [State.temp, State.setClosing, noWriter, released, past,
                hands found isLater]
        · exact State.temp_handle rfl
            ((State.setClosing_closing _ fd other _).trans (if_neg isFd))
  · rintro slot name moving ⟨other, found, isFound, point⟩
    refine ⟨other, found, ?_, point⟩
    rw [State.setClosing_closing, if_neg]
    · exact isFound
    · rintro rfl
      rw [released, Option.some.injEq] at isFound
      subst isFound
      rw [rests slot point] at moving
      cases moving

theorem upload (journaled : Journaled state) {maxRetries : Nat} {label : Upload.Label}
    {uploads : Upload.State Bytes}
    (stepped : Upload.Stepped maxRetries state.uploads label uploads)
    (notBegin : ∀ index call second, label ≠ .begin index call second)
    (running : label ≠ .crash)
    (empty : ∀ listed, state.uploads.boot = .recovering listed →
      ∀ name, state.journal name = none) :
    Succession state { state with uploads := uploads } := by
  have movers {slot : Nat} {name : Str} (moving : (uploads.slots slot).moving = some name) :
      state.temp (.mover slot) = some name := by
    rcases stepped.moving_of_next moving with old | ⟨call, second, isBegin, -⟩ |
      ⟨⟨uuid, second, listed, names, isRecover, boot, later⟩, content, present⟩
    · exact old
    · exact absurd isBegin (notBegin _ _ _)
    · rw [show state.uploads.files.lookup (.journal name) = none from empty listed boot name]
        at present
      cases present
  refine of_kept (fun ready => stepped.boot_ready ready running) ?_ ?_ ?_
    (fun slot name moving => Or.inr ⟨movers moving, id⟩)
  · intro holder name isTemp
    cases holder with
    | handle fd => exact Or.inl isTemp
    | mover slot => exact Or.inl (movers isTemp)
  · exact fun name content present => Or.inr (journaled.placed.journal_lookup stepped present)
  · intro holder name content isTemp present
    cases holder with
    | handle fd => exact ⟨.handle fd, isTemp⟩
    | mover slot =>
        rcases journaled.placed.moving_kept stepped running isTemp with still | gone
        · exact ⟨.mover slot, still⟩
        · change uploads.files.lookup (.journal name) = some content at present
          rw [gone] at present
          cases present

end Succession

/-- Every step of the handles hands on the journal files. -/
theorem Stepped.succession {settings : Settings} {state next : State} {label : Fuse.Label}
    (journaled : Journaled state) (stepped : Stepped settings state label next)
    (running : label ≠ .crash)
    (empty : ∀ listed, state.uploads.boot = .recovering listed →
      ∀ name, state.journal name = none) : Succession state next := by
  cases stepped with
  | openWrite serves unused found fresh =>
      refine .mkstemp state _ (State.temp_unused unused) ?_
      simp [NotAtomic, editJournalName, editPrefix]
  | @create fd path uuid suffix now index parentId store serves unused parent fresh recorded =>
      have loaded : Succession state
          { state with store := store, paths := state.paths.insert path (localPrefix ++ uuid) } :=
        .of_same rfl rfl rfl
      have unheld : state.temp (.handle fd) = none := State.temp_unused unused
      refine loaded.trans (.mkstemp _ _ unheld ?_)
      simp [NotAtomic, createJournalName, createPrefix]
  | @call fd call writer opened idle =>
      have held : state.temp (.handle fd) = some writer.tempName := State.temp_writer opened
      exact .setWriter state (Or.inl held)
  | advance opened file advanced => exact .setHandle state _ _ opened advanced.tempName
  | @releaseNew fd writer content opened idle file new =>
      exact .release journaled ⟨writer, content, .enqueue⟩ opened rfl
  | @releaseModified fd writer content opened idle file old modified =>
      exact .release journaled ⟨writer, content, .record⟩ opened rfl
  | releaseUnmodified opened idle file old unmodified => exact .discard journaled opened
  | enqueue released ready begun =>
      exact .enqueue journaled released (holdsFile_of_readyToEnqueue ready) begun
  | @enqueuedNew fd slot closing released point returned new =>
      have ended : Succession state (state.setClosing fd none) := by
        refine .setClosing journaled released none (by simp [Closing.holdsFile, point])
          (by simp) ?_
        intro other isOther
        rw [point, ClosingPoint.enqueueing.injEq] at isOther
        exact isOther ▸ Upload.Slot.moving_of_returned returned
      exact ended.trans (.of_same rfl rfl rfl)
  | @enqueuedEdit fd slot closing released point returned old =>
      refine .setClosing journaled released _ (by simp [Closing.holdsFile, point]) ?_ ?_
      · intro found isFound
        cases isFound
        rfl
      · intro other isOther
        rw [point, ClosingPoint.enqueueing.injEq] at isOther
        exact isOther ▸ Upload.Slot.moving_of_returned returned
  | @editReleased fd closing store released point moved =>
      have ended : Succession state (state.setClosing fd none) := by
        refine .setClosing journaled released none (by simp [Closing.holdsFile, point])
          (by simp) ?_
        simp [point]
      exact ended.trans (.of_same rfl rfl rfl)
  | accept sent issues replied changed =>
      exact (Succession.upload journaled replied (by simp) (by simp) empty).trans (.of_same rfl rfl rfl)
  | upload background moved =>
      refine .upload journaled moved ?_ ?_ empty
      · rintro _ _ _ rfl
        cases background
      · rintro rfl
        cases background
  | crash => exact absurd rfl running
  | openRead _ _ _ | releaseReader _ | edit _ _ _ _ | beginRead _ _ | advanceRead _ _
  | store _ _ | map _ _ _ | unmap => exact .of_same rfl rfl rfl

/-! ## The whole file system -/

theorem Journaled.addFile {state : State} (journaled : Journaled state) {tempName : Str}
    (bytes : Bytes) (unheld : ∀ holder, state.temp holder ≠ some tempName) :
    Journaled (state.setFile tempName bytes) := by
  apply journaled.putFile bytes
  intro fd closing released holds isTemp same
  exact unheld (.handle fd) (same ▸ isTemp)

namespace FileSystem

/-- A `rename` is about to hand over the copy it has made. -/
def Copies (system : FileSystem) (name : Str) : Prop :=
  ∃ replacing, system.replacing = some replacing ∧ replacing.point = .copied ∧
    replacing.tempName = name

/-- A `rename` waits for the `enqueue_file_for_upload` call of a slot. -/
def Waits (system : FileSystem) (slot : Nat) : Prop :=
  ∃ replacing, system.replacing = some replacing ∧ replacing.point = .enqueueing slot

/-- Every journal file is that of a handle or a call. -/
structure Owned (system : FileSystem) : Prop where
  journaled : Journaled system.ops
  owner : ∀ name content, system.ops.journal name = some content →
    (∃ holder, system.ops.temp holder = some name) ∨ system.Copies name
  called : ∀ slot name, system.ops.temp (.mover slot) = some name →
    system.ops.Called slot ∨ system.Waits slot
  named : ∀ holder name, system.ops.temp holder = some name →
    NotAtomic name ∨ ∃ slot, holder = .mover slot ∧ system.Waits slot
  copied : ∀ name, system.Copies name →
    system.ops.uploads.boot = .ready ∧ ¬ NotAtomic name

/-- A run of the calls without a crash. -/
def FaultFree (_ : FileSystem) : Label → Prop
  | .crash => False
  | _ => True

instance (system : FileSystem) (label : Label) : Decidable (FaultFree system label) := by
  cases label <;> unfold FaultFree <;> infer_instance

/-- No `release` or `rename` call is under way. -/
def Quiet (system : FileSystem) : Prop :=
  (∀ fd, system.ops.closing fd = none) ∧ system.replacing = none

/-- The journal directory has the files of the open handles, one each, and a
restart without open handles enqueues nothing. -/
structure JournalMatches (maxRetries : Nat) (system : FileSystem) : Prop where
  files : system.Quiet → ∀ name, name ∈ system.ops.uploads.journalNames ↔
    ∃ fd writer, system.ops.writers fd = some writer ∧ writer.tempName = name
  oneEach : ∀ left right leftWriter rightWriter, system.ops.writers left = some leftWriter →
    system.ops.writers right = some rightWriter →
    leftWriter.tempName = rightWriter.tempName → left = right
  restart : system.Quiet → (∀ fd, system.ops.writers fd = none) →
    ∀ after, Reaches (Upload.step maxRetries) Upload.Restarting system.ops.uploads.crash after →
      after.enqueued = system.ops.uploads.enqueued

section Owned

variable {settings : Settings} {system next : FileSystem}

/-- Nothing is there to recover once the recovery reads the directory. -/
theorem Owned.empty (owned : Owned system) {listed : List Str}
    (boot : system.ops.uploads.boot = .recovering listed) (name : Str) :
    system.ops.journal name = none := by
  cases present : system.ops.journal name with
  | none => rfl
  | some content =>
      rcases owned.owner name content present with ⟨holder, isTemp⟩ | copies
      · cases holder with
        | handle fd => simp [owned.journaled.ready fd name isTemp] at boot
        | mover slot =>
            rcases owned.journaled.movers slot name isTemp with ready | ⟨names, recovering⟩
            · simp [ready] at boot
            · simp [recovering] at boot
      · simp [(owned.copied name copies).1] at boot

/-- A step that hands the journal files on and leaves `rename` alone. -/
theorem Owned.of_succession (owned : Owned system) (journaled : Journaled next.ops)
    (succession : Succession system.ops next.ops)
    (copies : ∀ name, next.Copies name ↔ system.Copies name)
    (waits : ∀ slot name, system.ops.temp (.mover slot) = some name → system.Waits slot →
      next.Waits slot) : Owned next where
  journaled := journaled
  owner := by
    intro name content present
    rcases succession.owned name content present with held | ⟨was, unheld⟩
    · exact Or.inl held
    · rcases owned.owner name content was with ⟨holder, isTemp⟩ | copied
      · exact absurd isTemp (unheld holder)
      · exact Or.inr ((copies name).mpr copied)
  called := by
    intro slot name moving
    rcases succession.called slot name moving with called | ⟨was, uncalled⟩
    · exact Or.inl called
    · rcases owned.called slot name was with called | waiting
      · exact absurd called uncalled
      · exact Or.inr (waits slot name was waiting)
  named := by
    intro holder name isTemp
    rcases succession.taken holder name isTemp with same | ⟨fd, isHandle⟩ | notAtomic
    · rcases owned.named holder name same with notAtomic | ⟨slot, rfl, waiting⟩
      · exact Or.inl notAtomic
      · exact Or.inr ⟨slot, rfl, waits slot name same waiting⟩
    · rcases owned.named _ name isHandle with notAtomic | ⟨slot, isMover, -⟩
      · exact Or.inl notAtomic
      · cases isMover
    · exact Or.inl notAtomic
  copied := by
    intro name isCopied
    obtain ⟨ready, atomic⟩ := owned.copied name ((copies name).mp isCopied)
    exact ⟨succession.ready ready, atomic⟩

theorem Owned.of_same (owned : Owned system) (uploads : next.ops.uploads = system.ops.uploads)
    (writers : next.ops.writers = system.ops.writers)
    (closing : next.ops.closing = system.ops.closing)
    (copies : ∀ name, next.Copies name ↔ system.Copies name)
    (waits : ∀ slot name, system.ops.temp (.mover slot) = some name → system.Waits slot →
      next.Waits slot) : Owned next :=
  owned.of_succession (owned.journaled.congr uploads writers closing)
    (.of_same uploads writers closing) copies waits

/-- A step that does not touch the `rename` under way either. -/
theorem Owned.congr (owned : Owned system) (uploads : next.ops.uploads = system.ops.uploads)
    (writers : next.ops.writers = system.ops.writers)
    (closing : next.ops.closing = system.ops.closing)
    (replacing : next.replacing = system.replacing) : Owned next := by
  refine owned.of_same uploads writers closing ?_ ?_
  · intro name
    simp only [Copies, replacing]
  · intro slot name _ waiting
    simpa only [Waits, replacing] using waiting

theorem not_notAtomic_atomicName (second : Nat) : ¬ NotAtomic (atomicName second) := by
  simp [NotAtomic, atomicName]

theorem Owned.replace (owned : Owned system) {second : Nat} {bytes : Bytes}
    {replacing : Replacing} (ready : system.ops.uploads.boot = .ready)
    (alone : system.replacing = none) (tempName : replacing.tempName = atomicName second)
    (point : replacing.point = .copied) :
    Owned { system with
      ops := system.ops.setFile (atomicName second) bytes
      replacing := some replacing } := by
  have noWait (slot : Nat) : ¬ system.Waits slot := by
    rintro ⟨found, present, -⟩
    rw [alone] at present
    cases present
  have notAtomic {holder : Holder} {name : Str}
      (isTemp : system.ops.temp holder = some name) : NotAtomic name := by
    rcases owned.named holder name isTemp with notAtomic | ⟨slot, -, waiting⟩
    · exact notAtomic
    · exact absurd waiting (noWait slot)
  constructor
  · refine owned.journaled.addFile bytes fun holder isTemp => ?_
    exact not_notAtomic_atomicName second (notAtomic isTemp)
  · intro name content present
    by_cases isCopy : name = atomicName second
    · exact Or.inr ⟨replacing, rfl, point, tempName.trans isCopy.symm⟩
    · rw [State.setFile_journal, if_neg isCopy] at present
      rcases owned.owner name content present with held | ⟨found, isFound, -⟩
      · exact Or.inl held
      · rw [alone] at isFound
        cases isFound
  · intro slot name moving
    rcases owned.called slot name moving with called | waiting
    · exact Or.inl called
    · exact absurd waiting (noWait slot)
  · exact fun holder name isTemp => Or.inl (notAtomic isTemp)
  · rintro name ⟨found, isFound, -, rfl⟩
    cases isFound
    rw [tempName]
    exact ⟨ready, not_notAtomic_atomicName second⟩

theorem Owned.replaceEnqueue (owned : Owned system) {maxRetries slot second : Nat}
    {replacing : Replacing} {uploads : Upload.State Bytes}
    (present : system.replacing = some replacing) (point : replacing.point = .copied)
    (begun : Upload.Stepped maxRetries system.ops.uploads
      (.begin slot replacing.enqueueCall second) uploads) :
    Owned { system with
      ops := { system.ops with uploads := uploads }
      replacing := some { replacing with point := .enqueueing slot } } := by
  have noWait (other : Nat) : ¬ system.Waits other := by
    rintro ⟨found, isFound, waits⟩
    rw [present, Option.some.injEq] at isFound
    rw [← isFound, point] at waits
    cases waits
  have notAtomic {holder : Holder} {name : Str}
      (isTemp : system.ops.temp holder = some name) : NotAtomic name := by
    rcases owned.named holder name isTemp with notAtomic | ⟨other, -, waiting⟩
    · exact notAtomic
    · exact absurd waiting (noWait other)
  have atomic : ¬ NotAtomic replacing.tempName :=
    (owned.copied _ ⟨replacing, present, point, rfl⟩).2
  have unheld (holder : Holder) : system.ops.temp holder ≠ some replacing.tempName :=
    fun isTemp => atomic (notAtomic isTemp)
  have journaled := owned.journaled.begin unheld begun
  obtain ⟨content, ready, free, temp, unlocked, isBegun⟩ := begun.of_begin
  have moves : (uploads.slots slot).moving = some replacing.tempName := by
    rw [isBegun, Upload.State.enqueueBegin_eq]
    simp only [Function.update_self]
    rfl
  have moved {other : Nat} {name : Str} (moving : (uploads.slots other).moving = some name) :
      system.ops.temp (.mover other) = some name ∨ other = slot := by
    rw [isBegun] at moving
    rcases Upload.State.enqueueBegin_moving moving with old | ⟨isSlot, -⟩
    · exact Or.inl old
    · exact Or.inr isSlot
  constructor
  · exact journaled
  · intro name bytes isPresent
    have before : system.ops.journal name = some bytes :=
      owned.journaled.placed.journal_lookup begun isPresent
    rcases owned.owner name bytes before with ⟨holder, isTemp⟩ | ⟨found, isFound, -, isName⟩
    · left
      cases holder with
      | handle fd => exact ⟨.handle fd, isTemp⟩
      | mover other =>
          refine ⟨.mover other, ?_⟩
          change (uploads.slots other).moving = some name
          rw [isBegun]
          exact Upload.State.enqueueBegin_moving_kept free isTemp
    · rw [present, Option.some.injEq] at isFound
      subst isFound
      exact Or.inl ⟨.mover slot, isName ▸ moves⟩
  · intro other name moving
    rcases moved moving with old | rfl
    · rcases owned.called other name old with called | waiting
      · exact Or.inl called
      · exact absurd waiting (noWait other)
    · exact Or.inr ⟨_, rfl, rfl⟩
  · intro holder name isTemp
    cases holder with
    | handle fd => exact Or.inl (notAtomic (show system.ops.temp (.handle fd) = _ from isTemp))
    | mover other =>
        rcases moved isTemp with old | rfl
        · exact Or.inl (notAtomic old)
        · exact Or.inr ⟨other, rfl, _, rfl, rfl⟩
  · rintro name ⟨found, isFound, copied, -⟩
    cases isFound
    cases copied

/-- Past the `enqueue_file_for_upload` call `rename` needs no file. -/
theorem Owned.pass (owned : Owned system) {replacing : Replacing}
    (present : system.replacing = some replacing) (past : replacing.point ≠ .copied)
    (rests : ∀ slot, replacing.point = .enqueueing slot →
      system.ops.temp (.mover slot) = none)
    (uploads : next.ops.uploads = system.ops.uploads)
    (writers : next.ops.writers = system.ops.writers)
    (closing : next.ops.closing = system.ops.closing)
    (later : ∀ found, next.replacing = some found → found.point ≠ .copied) : Owned next := by
  refine owned.of_same uploads writers closing ?_ ?_
  · intro name
    constructor
    · rintro ⟨found, isFound, copied, -⟩
      exact absurd copied (later found isFound)
    · rintro ⟨found, isFound, copied, -⟩
      rw [present, Option.some.injEq] at isFound
      exact absurd (isFound ▸ copied) past
  · rintro slot name moving ⟨found, isFound, waits⟩
    rw [present, Option.some.injEq] at isFound
    rw [rests slot (isFound ▸ waits)] at moving
    cases moving

theorem Owned.deleteNode (owned : Owned system) {rootId path : Str} {gone : List Str}
    (removed : system.deleteNode rootId path gone = .ok next) : Owned next := by
  obtain ⟨fileId, -, -, rfl⟩ := deleteNode_eq_ok removed
  exact owned.congr rfl rfl rfl rfl

theorem Owned.unlink (owned : Owned system) {rootId path : Str} {gone : List Str}
    (removed : system.unlink rootId path gone = .ok next) : Owned next := by
  rcases unlink_eq_ok removed with ⟨tempPath, -, rfl⟩ | ⟨-, deleted⟩
  · exact owned.congr rfl rfl rfl rfl
  · exact owned.deleteNode deleted

/-- An opening that uses what it was told is one from another path cache. -/
theorem Owned.openResolved (owned : Owned system) {fd : Nat} {path fileId suffix : Str}
    {isTruncate : Bool} {ops : State}
    (moved : Fuse.Stepped settings (system.told path fileId)
      (.openWrite fd path isTruncate suffix) ops) :
    Owned { system with
      ops := { ops with paths := system.ops.paths }
      resolved := system.resolved.erase (path, fileId) } := by
  have told : Owned { system with ops := system.told path fileId } :=
    owned.congr rfl rfl rfl rfl
  have opened : Owned { system with ops := ops } :=
    told.of_succession (told.journaled.step moved)
      (moved.succession told.journaled (by simp) fun listed => told.empty)
      (fun _ => Iff.rfl) (fun _ _ _ waiting => waiting)
  exact opened.congr rfl rfl rfl rfl

theorem Owned.step (owned : Owned system) {label : Label} (faultFree : FaultFree system label)
    (stepped : Stepped settings system label next) : Owned next := by
  cases stepped with
  | @base label ops permitted moved =>
      have running : label ≠ .crash := by
        rintro rfl
        exact permitted
      exact owned.of_succession (owned.journaled.step moved)
        (moved.succession owned.journaled running fun listed => owned.empty)
        (fun _ => Iff.rfl) (fun _ _ _ waiting => waiting)
  | writeLocal opened | truncateLocal opened =>
      unfold changeTemp
      split
      · exact owned.congr rfl rfl rfl rfl
      · exact owned
  | openResolved told moved => exact owned.openResolved moved
  | replace serves notSwap found isNew alone file => exact owned.replace serves.1 alone rfl rfl
  | replaceResolved serves notSwap found told alone file =>
      exact (owned.replace serves.1 alone rfl rfl).congr rfl rfl rfl rfl
  | replaceEnqueue present point begun => exact owned.replaceEnqueue present point begun
  | @replaceEnqueued edit slot replacing present point returned unused =>
      refine owned.pass present (by simp [point]) ?_ rfl rfl rfl ?_
      · intro other isOther
        rw [point, ReplacingPoint.enqueueing.injEq] at isOther
        exact isOther ▸ Upload.Slot.moving_of_returned returned
      · intro found isFound
        cases isFound
        nofun
  | @replaceEnd edit replacing gone present point taken =>
      obtain ⟨uploads, writers, closing⟩ :=
        finishReplacing_ops system settings.rootId replacing gone
      refine owned.pass present (by simp [point]) (by simp [point]) uploads writers closing ?_
      simp [finishReplacing_replacing]
  | unlink serves taken removed => exact owned.unlink removed
  | rmdir serves taken removed => exact owned.deleteNode removed
  | crash => exact faultFree.elim
  | createLocal _ _ _ _ | openLocal _ _ | releaseLocal _ | renameLocal _ _
  | replaceEdit _ _ _ | rename _ _ _ _ _ | mkdir _ _ _ _ _ | invalidated _ _
  | look _ _ | list _ _ _ | mapListed _ _ | looked _ =>
      exact owned.congr rfl rfl rfl rfl

theorem Started.owned (started : Started system) : Owned system where
  journaled := started.mounted.journaled
  owner := by simp [started.mounted.journal]
  called := by simp [started.mounted.temp]
  named := by simp [started.mounted.temp]
  copied := by simp [Copies, started.replacing]

theorem Owned.quiet_owner (owned : Owned system) (quiet : system.Quiet) {name : Str}
    {content : Bytes} (present : system.ops.journal name = some content) :
    ∃ fd writer, system.ops.writers fd = some writer ∧ writer.tempName = name := by
  obtain ⟨closing, replacing⟩ := quiet
  rcases owned.owner name content present with ⟨holder, isTemp⟩ | ⟨found, isFound, -⟩
  · cases holder with
    | handle fd =>
        cases opened : system.ops.writers fd with
        | some writer =>
            rw [State.temp_writer opened, Option.some.injEq] at isTemp
            exact ⟨fd, writer, opened, isTemp⟩
        | none => simp [State.temp, opened, closing fd] at isTemp
    | mover slot =>
        rcases owned.called slot name isTemp with ⟨fd, found, isFound, -⟩ | ⟨found, isFound, -⟩
        · rw [closing fd] at isFound
          cases isFound
        · rw [replacing] at isFound
          cases isFound
  · rw [replacing] at isFound
    cases isFound

theorem Owned.matches (owned : Owned system) (maxRetries : Nat) :
    JournalMatches maxRetries system where
  files := by
    intro quiet name
    rw [Upload.State.mem_journalNames, Option.isSome_iff_exists]
    constructor
    · rintro ⟨content, present⟩
      exact owned.quiet_owner quiet present
    · rintro ⟨fd, writer, opened, rfl⟩
      exact owned.journaled.present (.handle fd) _ (State.temp_writer opened)
  oneEach := by
    intro left right leftWriter rightWriter isLeft isRight same
    have held : system.ops.temp (.handle right) = some leftWriter.tempName :=
      same ▸ State.temp_writer isRight
    exact Holder.handle.inj
      (owned.journaled.distinct _ _ _ (State.temp_writer isLeft) held)
  restart := by
    intro quiet noWriter after restart
    refine Upload.restart_enqueued owned.journaled.placed (fun name => ?_) restart
    cases present : system.ops.uploads.files.lookup (.journal name) with
    | none => rfl
    | some content =>
        obtain ⟨fd, writer, opened, -⟩ := owned.quiet_owner quiet present
        rw [noWriter fd] at opened
        cases opened

/-- In every run without a crash the journal directory has the files of the
open handles, and nothing else once the calls have returned. -/
theorem journal_matches {start finish : FileSystem} (started : Started start)
    (reached : Reaches (FileSystem.step settings) FaultFree start finish) :
    JournalMatches settings.maxRetries finish := by
  have owned : Owned finish :=
    reached.invariant (fun owned faultFree taken =>
      owned.step faultFree (stepped_of_step taken)) started.owned
  exact owned.matches settings.maxRetries

end Owned

/-! ## A save by way of a swap file -/

/-- An editor saves `f`; then `f` is opened twice and closed once. -/
def saveAndOpen : List Label :=
  [.createLocal 5 ['/', 'f', '.', 's', 'w', 'p'] ['a'], .writeLocal 5 [7] 0, .releaseLocal 5,
    .replace ['/', 'f', '.', 's', 'w', 'p'] ['/', 'f'] 9, .replaceEnqueue 0 9,
    .base (.upload (.move 0)), .base (.upload (.replace 0)), .base (.upload (.submit 0)),
    .replaceEnqueued 3, .replaceEdit (.invalidate 3 0),
    .base (.store (.chunks (.remove 0))), .base (.store (.chunks (.remove 0))),
    .replaceEdit (.released 3), .replaceEnd [], .base (.map ['/'] ['f']),
    .base (.openWrite 0 ['/', 'f'] false ['x']), .base (.openWrite 1 ['/', 'f'] false ['y']),
    .base (.release 0)]

theorem journal_matches_saveAndOpen :
    ∃ finish, runAllowed (FileSystem.step defaults) FaultFree (mounted (Fuse.mount [1]))
        saveAndOpen = some finish ∧
      finish.ops.uploads.journalNames = [editJournalName ['f'] ['y']] ∧
      JournalMatches 5 finish := by
  have names : (runAllowed (FileSystem.step defaults) FaultFree (mounted (Fuse.mount [1]))
      saveAndOpen).map (·.ops.uploads.journalNames) =
        some [editJournalName ['f'] ['y']] := rfl
  obtain ⟨finish, executed, isNames⟩ := Option.map_eq_some_iff.mp names
  exact ⟨finish, executed, isNames,
    journal_matches (started_mounted [1]) (Reaches.of_runAllowed executed)⟩

end FileSystem

end FuseDrive.Fuse
