import FuseDrive.Fuse.AtomicSaves
import FuseDrive.Upload.OwnFate
import FuseDrive.Upload.Restart

/-!
# The contents of atomic saves

Calls of `rename` for different files at the same time enqueue each what its
local-only file had, as long as none opens its copy while another has one under
that name.  The size `rename` measures is that of the file that has the name
after the copy was moved, which is none or the copy of another call, so the
metadata is right only if it was so before.
-/

namespace FuseDrive.Fuse

open Transition

/-! ## The statement -/

/-- `enqueue_file_for_upload` has put the copy into the queue. -/
def SavePoint.enqueued : SavePoint → Bool
  | .submitting _ | .measuring | .recording _ | .unlinking | .invalidating | .returned => true
  | .named | .copying _ | .copied | .moving _ | .replacing _ | .raised => false

/-- The `try` block is left. -/
def SavePoint.measured : SavePoint → Bool
  | .unlinking | .invalidating | .returned => true
  | .named | .copying _ | .copied | .moving _ | .replacing _ | .submitting _ | .measuring
  | .recording _ | .raised => false

namespace AtomicSaves

/-- The calls are for different local-only files and different files on Drive. -/
def Different (system : AtomicSaves) : Label → Prop
  | .call _ old new _ => ∀ entry ∈ system.saves.entries,
      entry.2.old ≠ old ∧ system.driveIds.lookup new ≠ some entry.2.newId
  | _ => True

/-- What the call enqueues is the content its local file had, and the size in
the metadata is the size of that. -/
structure Unmixed (system : AtomicSaves) (save : AtomicSave) : Prop where
  unraised : save.point ≠ .raised
  enqueued : save.point.enqueued → ∃ last,
    system.uploads.lastEnqueued save.newId = some last ∧ system.bytes last.content = save.content
  queued : save.point.enqueued → ∀ job file,
    system.uploads.queue.lookup save.newId = some job →
      system.uploads.files.lookup job.path = some file → system.bytes file = save.content
  recorded : save.point.measured → ∀ size, save.recorded = some size →
    size = save.content.length

/-- What `os.path.getsize` finds is a file of the same size, or it finds none and
the size in the metadata is right already. -/
def SizeRight (system : AtomicSaves) (save : AtomicSave) : Prop :=
  (∀ file ∈ system.named save.safeName,
      (system.bytes file).length = save.content.length) ∧
    (system.named save.safeName = none →
      ∀ node ∈ system.cache.getMetadata save.newId, node.size = save.content.length)

/-- No call opens a copy while another has its copy under that name, and none
measures a size that is not right. -/
def Undisturbed (system : AtomicSaves) : Label → Prop
  | .save index .openCopy => ∀ save ∈ system.saves.lookup index,
      ∀ entry ∈ system.saves.entries, entry.1 ≠ index → entry.2.point.holdsCopy →
        entry.2.safeName ≠ save.safeName
  | .save index .measure => ∀ save ∈ system.saves.lookup index, system.SizeRight save
  | _ => True

/-- A file has one name, and a temporary file is for one local-only file. -/
structure Tidy (system : AtomicSaves) : Prop where
  placed : Upload.Placed system.uploads
  files : ∀ left right file, system.uploads.files.lookup left = some file →
    system.uploads.files.lookup right = some file → left = right
  below : ∀ path file, system.uploads.files.lookup path = some file → file < system.nextFile
  temps : ∀ left right tempPath, system.localOnlyFiles.lookup left = some tempPath →
    system.localOnlyFiles.lookup right = some tempPath → left = right

/-- No call has begun. -/
structure Unstarted (system : AtomicSaves) : Prop extends Tidy system where
  saves : system.saves = ∅

/-! ## The facts about one call -/

/-- The copy is written, and has its name. -/
structure Held (system : AtomicSaves) (save : AtomicSave) : Prop where
  named : system.named save.safeName = some save.copy
  intact : system.bytes save.copy = save.content

/-- `shutil.move` has taken the copy out of the journal directory. -/
structure Taken (system : AtomicSaves) (save : AtomicSave) : Prop where
  intact : system.bytes save.copy = save.content
  below : save.copy < system.nextFile
  loose : ∀ name, system.named name ≠ some save.copy
  enqueued : ∃ serial, system.uploads.lastEnqueued save.newId =
    some (save.enqueueCall.enqueued serial save.copy)

/-- The queue has no other file for the id. -/
structure Queued (system : AtomicSaves) (save : AtomicSave) : Prop extends
    Taken system save where
  entry : ∀ job file, system.uploads.queue.lookup save.newId = some job →
    system.uploads.files.lookup job.path = some file → file = save.copy

/-- Two calls are for different files, and so are their copies while they have
their names. -/
structure Apart (left right : AtomicSave) : Prop where
  old : left.old ≠ right.old
  newId : left.newId ≠ right.newId
  safeName : left.point.holdsCopy → right.point.holdsCopy → left.safeName ≠ right.safeName

/-- What is known of a call at each of its points. -/
def PointKept (system : AtomicSaves) (save : AtomicSave) : SavePoint → Prop
  | .named => True
  | .copying written =>
      system.named save.safeName = some save.copy ∧
        system.bytes save.copy = save.content.take written
  | .copied => Held system save
  | .moving slot => Held system save ∧ ∃ serial path retries,
      system.uploads.slots slot =
        .enqueue save.enqueueCall serial save.copy (.move path retries) ∧
      system.uploads.lastEnqueued save.newId =
        some (save.enqueueCall.enqueued serial save.copy)
  | .replacing slot => Taken system save ∧ ∃ serial path retries,
      system.uploads.slots slot =
        .enqueue save.enqueueCall serial save.copy (.replace path retries) ∧
      ∀ file, system.uploads.files.lookup path = some file → file = save.copy
  | .submitting slot => Queued system save ∧ ∃ serial,
      system.uploads.slots slot = .enqueue save.enqueueCall serial save.copy .submit
  | .measuring => Queued system save
  | .recording newSize => Queued system save ∧ newSize = save.content.length
  | .unlinking | .invalidating | .returned => Queued system save ∧
      ∀ size, save.recorded = some size → size = save.content.length
  | .raised => False

structure SaveKept (system : AtomicSaves) (save : AtomicSave) : Prop where
  source : save.point ≠ .invalidating → save.point ≠ .returned →
    system.localOnlyFiles.lookup save.old = some save.tempPath ∧
      system.temps.lookup save.tempPath = some save.content
  point : PointKept system save save.point

/-- A step leaves alone what the facts about a call depend on. -/
structure Spares (system next : AtomicSaves) (save : AtomicSave) : Prop where
  source : system.localOnlyFiles.lookup save.old = some save.tempPath →
    next.localOnlyFiles.lookup save.old = some save.tempPath ∧
      next.temps.lookup save.tempPath = system.temps.lookup save.tempPath
  bytes : save.point ≠ .named → next.bytes save.copy = system.bytes save.copy
  numbers : system.nextFile ≤ next.nextFile
  named : save.point.holdsCopy → next.named save.safeName = system.named save.safeName
  journal : save.copy < system.nextFile → ∀ name, next.named name = some save.copy →
    system.named name = some save.copy
  slots : ∀ slot serial file point, system.uploads.slots slot =
    .enqueue save.enqueueCall serial file point →
      next.uploads.slots slot = .enqueue save.enqueueCall serial file point
  files : ∀ second file, next.uploads.files.lookup (.upload save.newId second) = some file →
    system.uploads.files.lookup (.upload save.newId second) = some file
  queue : ∀ job, next.uploads.queue.lookup save.newId = some job →
    ∃ earlier, system.uploads.queue.lookup save.newId = some earlier ∧ earlier.path = job.path
  enqueued : next.uploads.lastEnqueued save.newId = system.uploads.lastEnqueued save.newId

section Spares

variable {system next : AtomicSaves} {save : AtomicSave}

theorem Spares.of_uploads (uploads : next.uploads = system.uploads)
    (source : system.localOnlyFiles.lookup save.old = some save.tempPath →
      next.localOnlyFiles.lookup save.old = some save.tempPath ∧
        next.temps.lookup save.tempPath = system.temps.lookup save.tempPath)
    (bytes : save.point ≠ .named → next.bytes save.copy = system.bytes save.copy)
    (numbers : system.nextFile ≤ next.nextFile) : Spares system next save := by
  constructor
  · exact source
  · exact bytes
  · exact numbers
  · intro _
    rw [AtomicSaves.named, AtomicSaves.named, uploads]
  · intro _ name isNamed
    rw [AtomicSaves.named, uploads] at isNamed
    exact isNamed
  · intro slot serial file point isSlot
    rw [uploads]
    exact isSlot
  · intro second file present
    rw [uploads] at present
    exact present
  · intro job entry
    rw [uploads] at entry
    exact ⟨job, entry, rfl⟩
  · rw [uploads]

theorem Spares.beside (system : AtomicSaves) (cache : MemoryMetadataCache)
    (saves : Dict Nat AtomicSave) (save : AtomicSave) :
    Spares system { system with cache := cache, saves := saves } save :=
  .of_uploads rfl (fun isLocal => ⟨isLocal, rfl⟩) (fun _ => rfl) (le_refl _)

theorem Held.spared (held : Held system save) (spares : Spares system next save)
    (opened : save.point ≠ .named) (holds : save.point.holdsCopy) : Held next save where
  named := (spares.named holds).trans held.named
  intact := (spares.bytes opened).trans held.intact

theorem Taken.spared (taken : Taken system save) (spares : Spares system next save)
    (opened : save.point ≠ .named) : Taken next save where
  intact := (spares.bytes opened).trans taken.intact
  below := lt_of_lt_of_le taken.below spares.numbers
  loose := fun name isNamed => taken.loose name (spares.journal taken.below name isNamed)
  enqueued := by
    rw [spares.enqueued]
    exact taken.enqueued

theorem Queued.spared (queued : Queued system save) (placed : Upload.Placed system.uploads)
    (spares : Spares system next save) (opened : save.point ≠ .named) : Queued next save := by
  refine ⟨queued.toTaken.spared spares opened, ?_⟩
  intro job file entry present
  obtain ⟨earlier, wasEntry, samePath⟩ := spares.queue job entry
  obtain ⟨second, isPath⟩ := placed.queue _ _ wasEntry
  rw [samePath] at isPath
  rw [isPath] at present
  apply queued.entry earlier file wasEntry
  rw [samePath, isPath]
  exact spares.files second file present

theorem Queued.again (queued : Queued system save) {point : SavePoint} {recorded : Option Nat}
    (uploads : next.uploads = system.uploads) (bytes : next.bytes = system.bytes)
    (nextFile : next.nextFile = system.nextFile) :
    Queued next { save with point := point, recorded := recorded } := by
  constructor
  · constructor
    · rw [bytes]
      exact queued.intact
    · rw [nextFile]
      exact queued.below
    · intro name
      rw [AtomicSaves.named, uploads]
      exact queued.loose name
    · rw [uploads]
      exact queued.enqueued
  · rw [uploads]
    exact queued.entry

theorem PointKept.spared (placed : Upload.Placed system.uploads)
    (spares : Spares system next save) (kept : PointKept system save save.point) :
    PointKept next save save.point := by
  have opened {point : SavePoint} (isPoint : save.point = point) (notNamed : point ≠ .named) :
      save.point ≠ .named := isPoint ▸ notNamed
  have holds {point : SavePoint} (isPoint : save.point = point) (isHolder : point.holdsCopy) :
      save.point.holdsCopy := isPoint ▸ isHolder
  generalize isPoint : save.point = point at kept ⊢
  cases point with
  | named => trivial
  | copying written =>
      obtain ⟨isNamed, written⟩ := kept
      exact ⟨(spares.named (holds isPoint rfl)).trans isNamed,
        (spares.bytes (opened isPoint (by simp))).trans written⟩
  | copied => exact Held.spared kept spares (opened isPoint (by simp)) (holds isPoint rfl)
  | moving slot =>
      obtain ⟨held, serial, path, retries, isSlot, last⟩ := kept
      refine ⟨held.spared spares (opened isPoint (by simp)) (holds isPoint rfl),
        serial, path, retries, spares.slots _ _ _ _ isSlot, ?_⟩
      rw [spares.enqueued]
      exact last
  | replacing slot =>
      obtain ⟨taken, serial, path, retries, isSlot, file⟩ := kept
      refine ⟨taken.spared spares (opened isPoint (by simp)), serial, path, retries,
        spares.slots _ _ _ _ isSlot, ?_⟩
      have own := placed.slots slot
      rw [isSlot] at own
      obtain ⟨second, rfl⟩ := own
      exact fun found present => file found (spares.files second found present)
  | submitting slot =>
      obtain ⟨queued, serial, isSlot⟩ := kept
      exact ⟨queued.spared placed spares (opened isPoint (by simp)), serial,
        spares.slots _ _ _ _ isSlot⟩
  | measuring => exact Queued.spared kept placed spares (opened isPoint (by simp))
  | recording _ | unlinking | invalidating | returned =>
      exact ⟨kept.1.spared placed spares (opened isPoint (by simp)), kept.2⟩
  | raised => exact kept

theorem SaveKept.spared (kept : SaveKept system save) (placed : Upload.Placed system.uploads)
    (spares : Spares system next save) : SaveKept next save := by
  refine ⟨?_, kept.point.spared placed spares⟩
  intro notInvalidating notReturned
  obtain ⟨isLocal, content⟩ := kept.source notInvalidating notReturned
  obtain ⟨stillLocal, sameTemp⟩ := spares.source isLocal
  exact ⟨stillLocal, sameTemp.trans content⟩

end Spares

/-! ## Steps of the upload manager -/

/-- A step that is neither for the id of the call nor takes its copy. -/
def Foreign (system : AtomicSaves) (save : AtomicSave) : Upload.Label → Prop
  | .begin _ call _ => call.fileId ≠ save.newId
  | .move slot => ∀ call serial file point,
      system.uploads.slots slot = .enqueue call serial file point →
        call.fileId ≠ save.newId ∧ (save.point.holdsCopy → call.tempName ≠ save.safeName)
  | .replace slot | .submit slot => ∀ call serial file point,
      system.uploads.slots slot = .enqueue call serial file point → call.fileId ≠ save.newId
  | label => isWork label

section Uploads

variable {maxRetries : Nat} {system : AtomicSaves} {save : AtomicSave}
  {uploads : Upload.State Nat} {label : Upload.Label}

theorem Tidy.beside (tidy : Tidy system) (bytes : Nat → Bytes) (cache : MemoryMetadataCache)
    (saves : Dict Nat AtomicSave) :
    Tidy { system with bytes := bytes, cache := cache, saves := saves } :=
  ⟨tidy.placed, tidy.files, tidy.below, tidy.temps⟩

theorem Tidy.uploadsStep (tidy : Tidy system)
    (stepped : Upload.Stepped maxRetries system.uploads label uploads) :
    Tidy { system with uploads := uploads } := by
  have below (path : Upload.LocalPath) (file : Nat)
      (present : uploads.files.lookup path = some file) : file < system.nextFile := by
    rcases stepped.files_lookup present with old | ⟨_, _, _, _, _, -, -, source⟩
    · exact tidy.below path file old
    · exact tidy.below _ file source
  have moved {left right : Upload.LocalPath} {file index : Nat} {call : Upload.EnqueueCall}
      {serial own retries : Nat} (old : system.uploads.files.lookup left = some file)
      (still : uploads.files.lookup left = some file) (isMove : label = .move index)
      (isSlot : system.uploads.slots index = .enqueue call serial own (.move right retries))
      (source : system.uploads.files.lookup (.journal call.tempName) = some file) :
      left = right := by
    subst isMove
    have isSource := tidy.files _ _ file old source
    subst isSource
    cases stepped with
    | move slot =>
        rw [isSlot] at slot
        cases slot
        rw [Upload.State.setSlot_files, Upload.State.moveFile_lookup source] at still
        split at still
        · assumption
        · rw [if_pos rfl] at still
          cases still
  refine ⟨tidy.placed.step stepped, ?_, below, tidy.temps⟩
  intro left right file isLeft isRight
  rcases stepped.files_lookup isLeft with
    oldLeft | ⟨index, call, serial, own, retries, isMove, slot, source⟩
  · rcases stepped.files_lookup isRight with
      oldRight | ⟨index, call, serial, own, retries, isMove, slot, source⟩
    · exact tidy.files left right file oldLeft oldRight
    · exact moved oldLeft isLeft isMove slot source
  · rcases stepped.files_lookup isRight with
      oldRight | ⟨other, otherCall, _, _, _, isOther, otherSlot, -⟩
    · exact (moved oldRight isRight isMove slot source).symm
    · subst isMove
      cases isOther
      rw [slot] at otherSlot
      cases otherSlot
      rfl

theorem Foreign.named (foreign : Foreign system save label)
    (placed : Upload.Placed system.uploads)
    (stepped : Upload.Stepped maxRetries system.uploads label uploads)
    (holds : save.point.holdsCopy) :
    uploads.files.lookup (.journal save.safeName) =
      system.uploads.files.lookup (.journal save.safeName) := by
  cases isNamed : system.uploads.files.lookup (.journal save.safeName) with
  | none =>
      rw [Option.eq_none_iff_forall_ne_some]
      intro file isNext
      rw [placed.journal_lookup stepped isNext] at isNamed
      cases isNamed
  | some file =>
      rcases placed.journal_kept stepped isNamed with
        kept | ⟨index, call, serial, own, path, retries, rfl, isSlot, sameName⟩
      · exact kept
      · exact absurd sameName ((foreign call serial own _ isSlot).2 holds)

theorem Foreign.files (foreign : Foreign system save label)
    (placed : Upload.Placed system.uploads)
    (stepped : Upload.Stepped maxRetries system.uploads label uploads) {second file : Nat}
    (present : uploads.files.lookup (.upload save.newId second) = some file) :
    system.uploads.files.lookup (.upload save.newId second) = some file := by
  rcases stepped.files_lookup present with
    old | ⟨index, call, serial, own, retries, rfl, isSlot, -⟩
  · exact old
  · have isOwn := placed.slots index
    rw [isSlot] at isOwn
    obtain ⟨other, isPath⟩ := isOwn
    rw [Upload.LocalPath.upload.injEq] at isPath
    exact absurd isPath.1.symm (foreign _ _ _ _ isSlot).1

theorem Foreign.rest (foreign : Foreign system save label)
    (stepped : Upload.Stepped maxRetries system.uploads label uploads) :
    (∀ slot serial file point,
        system.uploads.slots slot = .enqueue save.enqueueCall serial file point →
          uploads.slots slot = .enqueue save.enqueueCall serial file point) ∧
      (∀ job, uploads.queue.lookup save.newId = some job →
        ∃ earlier, system.uploads.queue.lookup save.newId = some earlier ∧
          earlier.path = job.path) ∧
      uploads.lastEnqueued save.newId = system.uploads.lastEnqueued save.newId := by
  have same (job : Upload.Job Nat) (entry : system.uploads.queue.lookup save.newId = some job) :
      ∃ earlier, system.uploads.queue.lookup save.newId = some earlier ∧
        earlier.path = job.path := ⟨job, entry, rfl⟩
  have elsewhere {index : Nat} {was now : Upload.Slot Nat}
      (isSlot : system.uploads.slots index = was)
      (differs : ∀ serial file point, was ≠ .enqueue save.enqueueCall serial file point)
      (slot serial file : Nat) (point : Upload.EnqueuePoint)
      (isOwn : system.uploads.slots slot = .enqueue save.enqueueCall serial file point) :
      (if slot = index then now else system.uploads.slots slot) =
        .enqueue save.enqueueCall serial file point := by
    split
    · rename_i isIndex
      rw [isIndex, isSlot] at isOwn
      exact absurd isOwn (differs _ _ _)
    · exact isOwn
  have notOwn {call : Upload.EnqueueCall} {serial file : Nat} {point : Upload.EnqueuePoint}
      (otherId : call.fileId ≠ save.newId) (ownSerial own : Nat)
      (ownPoint : Upload.EnqueuePoint) : Upload.Slot.enqueue call serial file point ≠
        .enqueue save.enqueueCall ownSerial own ownPoint := by
    intro isOwn
    cases isOwn
    exact otherId rfl
  cases stepped with
  | @begin index call second file ready slot temp unlocked =>
      have otherId : ¬ call.fileId = save.newId := foreign
      refine ⟨?_, ?_, ?_⟩
      · intro other serial own point isOwn
        rw [Upload.State.enqueueBegin_slots]
        exact elsewhere slot (by simp) _ _ _ _ isOwn
      · rw [Upload.State.enqueueBegin_eq]
        exact same
      · rw [Upload.lastEnqueued_cons system.uploads (Upload.enqueueBegin_enqueued ..)]
        exact if_neg otherId
  | @move index call serial file safePath retries slot =>
      have otherId := (foreign _ _ _ _ slot).1
      refine ⟨?_, ?_, ?_⟩
      · intro other ownSerial own point isOwn
        rw [Upload.State.setSlot_slots, Upload.State.moveFile_eq]
        exact elsewhere slot (notOwn otherId) _ _ _ _ isOwn
      · rw [Upload.State.moveFile_eq]
        exact same
      · rw [Upload.State.moveFile_eq]
        rfl
  | @replace index call serial file safePath retries slot =>
      have otherId := foreign _ _ _ _ slot
      refine ⟨?_, ?_, rfl⟩
      · intro other ownSerial own point isOwn
        rw [Upload.State.setSlot_slots]
        exact elsewhere slot (notOwn otherId) _ _ _ _ isOwn
      · intro job entry
        change (system.uploads.queue.insert call.fileId _).lookup save.newId = _ at entry
        rw [Dict.lookup_insert_eq, if_neg otherId.symm] at entry
        exact same job entry
  | @submit index call serial file slot =>
      have otherId := foreign _ _ _ _ slot
      refine ⟨?_, same, rfl⟩
      intro other ownSerial own point isOwn
      rw [Upload.State.setSlot_slots]
      exact elsewhere slot (notOwn otherId) _ _ _ _ isOwn
  | popRemoved slot | popMissing slot _ =>
      refine ⟨?_, ?_, rfl⟩
      · intro other serial own point isOwn
        rw [Upload.State.setSlot_slots]
        exact elsewhere slot (by simp) _ _ _ _ isOwn
      · intro job entry
        change (system.uploads.queue.erase _).lookup save.newId = _ at entry
        rw [Dict.lookup_erase_eq] at entry
        split at entry
        · cases entry
        · exact same job entry
  | failRetry slot unlocked handled | failOver slot unlocked handled =>
      refine ⟨?_, ?_, ?_⟩
      · intro other serial own point isOwn
        rw [Upload.State.setSlot_slots, Upload.State.handleFailure_eq handled]
        exact elsewhere slot (by simp) _ _ _ _ isOwn
      · intro job entry
        rw [Upload.State.setSlot_queue, Upload.State.handleFailure_lookup handled] at entry
        split at entry
        · rename_i isId
          obtain ⟨earlier, wasEntry, rfl⟩ := Option.map_eq_some_iff.mp entry
          exact ⟨earlier, isId ▸ wasEntry, rfl⟩
        · exact same job entry
      · rw [Upload.State.handleFailure_eq handled]
        rfl
  | pickNothing slot _ _ | pick slot _ _ _ | checkExists slot _ | checkMissing slot _
  | read slot _ | readVanished slot _ | replyAccepted slot | replyRejected slot
  | replyQuota slot | forget slot _ | fire slot =>
      refine ⟨?_, same, rfl⟩
      intro other serial own point isOwn
      rw [Upload.State.setSlot_slots]
      exact elsewhere slot (by simp) _ _ _ _ isOwn
  | moveRaises _ _ | crash | start _ _ | recover _ _ _ _ _ | recoverSkip _ _ | recovered _ _
  | resume _ _ | sweepDone _ | sweep _ _ => cases foreign

theorem Spares.uploadsStep (tidy : Tidy system) (foreign : Foreign system save label)
    (stepped : Upload.Stepped maxRetries system.uploads label uploads) :
    Spares system { system with uploads := uploads } save := by
  obtain ⟨slots, queue, enqueued⟩ := foreign.rest stepped
  constructor
  · exact fun isLocal => ⟨isLocal, rfl⟩
  · exact fun _ => rfl
  · exact le_refl _
  · exact foreign.named tidy.placed stepped
  · exact fun _ name isNamed => tidy.placed.journal_lookup stepped isNamed
  · exact slots
  · exact fun second file present => foreign.files tidy.placed stepped present
  · exact queue
  · exact enqueued

theorem Held.begun (held : Held system save) (tidy : Tidy system) {slot second : Nat}
    (stepped : Upload.Stepped maxRetries system.uploads (.begin slot save.enqueueCall second)
      uploads) :
    PointKept { system with uploads := uploads } (save.goTo (.moving slot)) (.moving slot) := by
  obtain ⟨file, ready, free, temp, unlocked, rfl⟩ := stepped.of_begin
  have isCopy : some save.copy = some file := held.named.symm.trans temp
  cases isCopy
  constructor
  · constructor
    · rcases tidy.placed.journal_kept stepped temp with
        kept | ⟨_, _, _, _, _, _, isMove, -⟩
      · exact kept
      · cases isMove
    · exact held.intact
  · refine ⟨_, _, _, (Upload.State.enqueueBegin_slots ..).trans (if_pos rfl), ?_⟩
    exact (Upload.lastEnqueued_cons system.uploads (Upload.enqueueBegin_enqueued ..) _).trans
      (if_pos rfl)

theorem Held.moved (held : Held system save) (tidy : Tidy system)
    {slot serial retries : Nat} {path : Upload.LocalPath}
    (isSlot : system.uploads.slots slot =
      .enqueue save.enqueueCall serial save.copy (.move path retries))
    (last : system.uploads.lastEnqueued save.newId =
      some (save.enqueueCall.enqueued serial save.copy))
    (stepped : Upload.Stepped maxRetries system.uploads (.move slot) uploads) :
    PointKept { system with uploads := uploads } (save.goTo (.replacing slot))
      (.replacing slot) := by
  have own := tidy.placed.slots slot
  rw [isSlot] at own
  obtain ⟨second, rfl⟩ := own
  have source : system.uploads.files.lookup (.journal save.enqueueCall.tempName) =
      some save.copy := held.named
  cases stepped with
  | move slot =>
      rw [isSlot] at slot
      cases slot
      have files := Upload.State.moveFile_lookup source
        (.upload save.enqueueCall.fileId second)
      constructor
      · constructor
        · exact held.intact
        · exact tidy.below _ _ source
        · intro name isNamed
          have found := (files (.journal name)).symm.trans isNamed
          rw [if_neg (by simp)] at found
          split at found
          · cases found
          · rename_i different
            exact different (tidy.files _ _ _ found source)
        · refine ⟨serial, ?_⟩
          change ((system.uploads.moveFile _ _).setSlot _ _).lastEnqueued _ = _
          rw [Upload.State.moveFile_eq]
          exact last
      · refine ⟨serial, _, _, Upload.State.setSlot_slots_self .., fun file present => ?_⟩
        have found := (files _).symm.trans present
        rw [if_pos rfl] at found
        exact (Option.some.inj found).symm

theorem Taken.replaced (taken : Taken system save) {slot serial retries : Nat}
    {path : Upload.LocalPath} (isSlot : system.uploads.slots slot =
      .enqueue save.enqueueCall serial save.copy (.replace path retries))
    (only : ∀ file, system.uploads.files.lookup path = some file → file = save.copy)
    (stepped : Upload.Stepped maxRetries system.uploads (.replace slot) uploads) :
    PointKept { system with uploads := uploads } (save.goTo (.submitting slot))
      (.submitting slot) := by
  cases stepped with
  | replace slot =>
      rw [isSlot] at slot
      cases slot
      refine ⟨⟨⟨taken.intact, taken.below, taken.loose, taken.enqueued⟩, ?_⟩, serial,
        Upload.State.setSlot_slots_self ..⟩
      intro job file entry present
      change (system.uploads.queue.insert save.newId _).lookup save.newId = _ at entry
      rw [AList.lookup_insert] at entry
      cases entry
      exact only file present

theorem Queued.submitted (queued : Queued system save) {slot : Nat}
    (stepped : Upload.Stepped maxRetries system.uploads (.submit slot) uploads) :
    PointKept { system with uploads := uploads } (save.goTo .measuring) .measuring := by
  cases stepped with
  | submit slot =>
      exact ⟨⟨queued.intact, queued.below, queued.loose, queued.enqueued⟩, queued.entry⟩

end Uploads

/-! ## Opening, writing and unlinking -/

section Files

variable {system : AtomicSaves} {save : AtomicSave} {name : Str}

theorem Tidy.openForWriting (tidy : Tidy system) (name : Str) :
    Tidy (system.openForWriting name).1 := by
  rcases openForWriting_cases system name with ⟨file, -, opened⟩ | ⟨absent, opened⟩
  · rw [opened]
    exact tidy.beside ..
  · rw [opened]
    have lookup (path : Upload.LocalPath) :=
      Dict.lookup_insert_eq system.uploads.files (.journal name) path system.nextFile
    constructor
    · exact ⟨tidy.placed.queue, tidy.placed.saved, tidy.placed.slots⟩
    · intro left right file isLeft isRight
      change (system.uploads.files.insert _ _).lookup left = _ at isLeft
      change (system.uploads.files.insert _ _).lookup right = _ at isRight
      rw [lookup] at isLeft isRight
      split at isLeft <;> split at isRight
      · simp [*]
      · cases isLeft
        exact absurd (tidy.below _ _ isRight) (lt_irrefl _)
      · cases isRight
        exact absurd (tidy.below _ _ isLeft) (lt_irrefl _)
      · exact tidy.files left right file isLeft isRight
    · intro path file present
      change (system.uploads.files.insert _ _).lookup path = _ at present
      rw [lookup] at present
      split at present
      · cases present
        exact Nat.lt_succ_self _
      · exact Nat.lt_succ_of_lt (tidy.below path file present)
    · exact tidy.temps

/-- Once it has opened its copy, a call has it under its name, or `shutil.move`
has taken it. -/
theorem PointKept.named_or_taken (kept : PointKept system save save.point)
    (opened : save.point ≠ .named) :
    save.point.holdsCopy ∧ system.named save.safeName = some save.copy ∨
      Taken system save := by
  generalize isPoint : save.point = point at kept opened ⊢
  cases point with
  | named => exact absurd rfl opened
  | copying written => exact .inl ⟨rfl, kept.1⟩
  | copied => exact .inl ⟨rfl, kept.named⟩
  | moving slot => exact .inl ⟨rfl, kept.1.named⟩
  | replacing slot => exact .inr kept.1
  | measuring => exact .inr kept.toTaken
  | submitting _ | recording _ | unlinking | invalidating | returned =>
      exact .inr kept.1.toTaken
  | raised => cases kept

/-- The file of another name is not the copy of the call. -/
theorem PointKept.copy_ne (kept : PointKept system save save.point) (tidy : Tidy system)
    (opened : save.point ≠ .named) {file : Nat} (isNamed : system.named name = some file)
    (apart : save.point.holdsCopy → save.safeName ≠ name) : save.copy ≠ file := by
  intro same
  subst same
  rcases kept.named_or_taken opened with ⟨holds, isCopy⟩ | taken
  · have samePath := tidy.files _ _ _ isCopy isNamed
    rw [Upload.LocalPath.journal.injEq] at samePath
    exact apart holds samePath
  · exact taken.loose name isNamed

theorem PointKept.copy_lt (kept : PointKept system save save.point) (tidy : Tidy system)
    (opened : save.point ≠ .named) : save.copy < system.nextFile := by
  rcases kept.named_or_taken opened with ⟨-, isCopy⟩ | taken
  · exact tidy.below _ _ isCopy
  · exact taken.below

theorem Spares.openForWriting (kept : PointKept system save save.point) (tidy : Tidy system)
    (apart : save.point.holdsCopy → save.safeName ≠ name) :
    Spares system (system.openForWriting name).1 save := by
  rcases openForWriting_cases system name with ⟨file, isNamed, opened⟩ | ⟨absent, opened⟩
  · rw [opened]
    refine Spares.of_uploads rfl (fun isLocal => ⟨isLocal, rfl⟩) ?_ (le_refl _)
    exact fun isOpen => Function.update_of_ne (kept.copy_ne tidy isOpen isNamed apart) ..
  · rw [opened]
    constructor
    · exact fun isLocal => ⟨isLocal, rfl⟩
    · exact fun isOpen => Function.update_of_ne (kept.copy_lt tidy isOpen).ne ..
    · exact Nat.le_succ _
    · exact fun holds => AList.lookup_insert_ne (by simpa using apart holds)
    · intro below other isNamed
      change (system.uploads.files.insert _ _).lookup _ = _ at isNamed
      rw [Dict.lookup_insert_eq] at isNamed
      split at isNamed
      · rw [Option.some.injEq] at isNamed
        exact absurd isNamed.symm below.ne
      · exact isNamed
    · exact fun _ _ _ _ isSlot => isSlot
    · intro second file present
      change (system.uploads.files.insert _ _).lookup _ = _ at present
      rw [Dict.lookup_insert_eq, if_neg (by simp)] at present
      exact present
    · exact fun job entry => ⟨job, entry, rfl⟩
    · rfl

theorem Spares.write {file : Nat} (different : save.point ≠ .named → save.copy ≠ file)
    (offset : Nat) (data : Bytes) : Spares system (system.write file offset data) save := by
  refine Spares.of_uploads rfl (fun isLocal => ⟨isLocal, rfl⟩) ?_ (le_refl _)
  exact fun isOpen => Function.update_of_ne (different isOpen) ..

theorem Spares.unlink (tidy : Tidy system) {old tempPath : Str}
    (present : system.localOnlyFiles.lookup old = some tempPath) (different : save.old ≠ old) :
    Spares system { system with
      localOnlyFiles := system.localOnlyFiles.erase old
      temps := system.temps.erase tempPath } save := by
  refine Spares.of_uploads rfl ?_ (fun _ => rfl) (le_refl _)
  intro isLocal
  constructor
  · exact (AList.lookup_erase_ne different).trans isLocal
  · apply AList.lookup_erase_ne
    intro sameTemp
    rw [sameTemp] at isLocal
    exact different (tidy.temps _ _ _ isLocal present)

end Files

/-! ## The step of a call -/

section Moves

variable {maxRetries : Nat} {system next : AtomicSaves} {save later other : AtomicSave}
  {action : Action}

theorem SaveKept.unraised (kept : SaveKept system save)
    (moved : SaveMoved maxRetries system save action next later) : later.point ≠ .raised := by
  have atPoint := kept.point
  cases moved with
  | tempGone point absent =>
      obtain ⟨-, content⟩ := kept.source (by simp [point]) (by simp [point])
      rw [absent] at content
      cases content
  | copyGone point absent =>
      rw [point] at atPoint
      rw [atPoint.1] at absent
      cases absent
  | enqueueRaises point absent =>
      rw [point] at atPoint
      rw [Held.named atPoint] at absent
      cases absent
  | unlinkRaises point absent =>
      obtain ⟨isLocal, -⟩ := kept.source (by simp [point]) (by simp [point])
      rw [absent] at isLocal
      cases isLocal
  | openCopy _ | writeCopy _ | closeCopy _ _ | enqueue _ _ | move _ _ | replace _ _
  | submit _ _ | measure _ _ | measureFails _ _ | record _ | unlink _ _ | invalidate _ =>
      intro raised
      cases raised

theorem SaveMoved.tidy (moved : SaveMoved maxRetries system save action next later)
    (kept : SaveKept system save) (tidy : Tidy system) : Tidy next := by
  have unraised := kept.unraised moved
  cases moved with
  | openCopy _ => exact tidy.openForWriting _
  | enqueue _ stepped | move _ stepped | replace _ stepped | submit _ stepped =>
      exact tidy.uploadsStep stepped
  | record _ =>
      rw [recordSize_eq]
      exact tidy.beside ..
  | unlink _ _ =>
      refine ⟨tidy.placed, tidy.files, tidy.below, ?_⟩
      intro left right tempPath isLeft isRight
      simp only [Dict.lookup_erase_eq] at isLeft isRight
      split at isLeft <;> split at isRight
      · cases isLeft
      · cases isLeft
      · cases isRight
      · exact tidy.temps left right tempPath isLeft isRight
  | writeCopy _ | invalidate _ => exact tidy.beside ..
  | closeCopy _ _ | measure _ _ | measureFails _ _ => exact tidy
  | tempGone _ _ | copyGone _ _ | enqueueRaises _ _ | unlinkRaises _ _ =>
      exact absurd rfl unraised

theorem source_eq (content : system.temps.lookup save.tempPath = some save.content) :
    system.source save = save.content := by
  rw [AtomicSaves.source, content]
  rfl

/-- A call keeps what is known of it. -/
theorem SaveMoved.kept (moved : SaveMoved maxRetries system save action next later)
    (kept : SaveKept system save) (tidy : Tidy system)
    (right : action = .measure → SizeRight system save) : SaveKept next later := by
  have unraised := kept.unraised moved
  have source (early : save.point ≠ .invalidating ∧ save.point ≠ .returned) :=
    kept.source early.1 early.2
  have atPoint := kept.point
  cases moved with
  | openCopy point =>
      obtain ⟨sameLocal, sameTemps, -⟩ := openForWriting_rest system save.safeName
      constructor
      · intro _ _
        rw [sameLocal, sameTemps]
        exact source (by simp [point])
      · exact ⟨openForWriting_named .., openForWriting_bytes ..⟩
  | @writeCopy amount written point =>
      rw [point] at atPoint
      have isLocal := source (by simp [point])
      refine ⟨fun _ _ => isLocal, atPoint.1, ?_⟩
      rw [source_eq isLocal.2]
      calc (system.write save.copy written (slice save.content written amount)).bytes save.copy
          = (system.bytes save.copy).overwrite written (slice save.content written amount) :=
            Function.update_self ..
        _ = Bytes.overwrite (save.content.take written) written
              (slice save.content written amount) := by rw [atPoint.2]
        _ = save.content.take (written + (slice save.content written amount).length) :=
            Bytes.overwrite_take_slice ..
  | @closeCopy written point finished =>
      rw [point] at atPoint
      have isLocal := source (by simp [point])
      rw [source_eq isLocal.2] at finished
      refine ⟨fun _ _ => isLocal, atPoint.1, ?_⟩
      exact atPoint.2.trans (List.take_of_length_le finished)
  | enqueue point stepped =>
      rw [point] at atPoint
      exact ⟨fun _ _ => source (by simp [point]),
        Held.begun atPoint tidy stepped⟩
  | move point stepped =>
      rw [point] at atPoint
      obtain ⟨held, serial, path, retries, isSlot, last⟩ := atPoint
      exact ⟨fun _ _ => source (by simp [point]),
        held.moved tidy isSlot last stepped⟩
  | replace point stepped =>
      rw [point] at atPoint
      obtain ⟨taken, serial, path, retries, isSlot, only⟩ := atPoint
      exact ⟨fun _ _ => source (by simp [point]),
        taken.replaced isSlot only stepped⟩
  | submit point stepped =>
      rw [point] at atPoint
      exact ⟨fun _ _ => source (by simp [point]),
        atPoint.1.submitted stepped⟩
  | measure point present =>
      rw [point] at atPoint
      exact ⟨fun _ _ => source (by simp [point]),
        Queued.again atPoint rfl rfl rfl, (right rfl).1 _ present⟩
  | measureFails point absent =>
      rw [point] at atPoint
      refine ⟨fun _ _ => source (by simp [point]),
        Queued.again atPoint rfl rfl rfl, ?_⟩
      intro size isSize
      obtain ⟨node, isRecord, rfl⟩ := Option.map_eq_some_iff.mp isSize
      exact (right rfl).2 absent node isRecord
  | @record now newSize point =>
      rw [point] at atPoint
      have same := recordSize_eq system save.newId newSize now
      refine ⟨?_, Queued.again atPoint.1 ?_ ?_ ?_, ?_⟩
      · intro _ _
        rw [same]
        exact source (by simp [point])
      · rw [same]
      · rw [same]
      · rw [same]
      · intro size isSize
        obtain ⟨node, isRecord, rfl⟩ := Option.map_eq_some_iff.mp isSize
        exact (recordSize_size isRecord).trans atPoint.2
  | unlink point present =>
      rw [point] at atPoint
      exact ⟨fun notInvalidating => absurd rfl notInvalidating,
        Queued.again atPoint.1 rfl rfl rfl, atPoint.2⟩
  | invalidate point =>
      rw [point] at atPoint
      exact ⟨fun _ notReturned => absurd rfl notReturned,
        Queued.again atPoint.1 rfl rfl rfl, atPoint.2⟩
  | tempGone _ _ | copyGone _ _ | enqueueRaises _ _ | unlinkRaises _ _ =>
      exact absurd rfl unraised

theorem SaveMoved.spares (moved : SaveMoved maxRetries system save action next later)
    (kept : SaveKept system save) (tidy : Tidy system) (otherKept : SaveKept system other)
    (apart : Apart save other)
    (clear : action = .openCopy → other.point.holdsCopy → other.safeName ≠ save.safeName) :
    Spares system next other := by
  have unraised := kept.unraised moved
  have atPoint := kept.point
  have ownCall {slot serial file : Nat} {point : Upload.EnqueuePoint}
      (isSlot : system.uploads.slots slot = .enqueue save.enqueueCall serial file point)
      {call : Upload.EnqueueCall} {found foundFile : Nat} {foundPoint : Upload.EnqueuePoint}
      (isFound : system.uploads.slots slot = .enqueue call found foundFile foundPoint) :
      call = save.enqueueCall := by
    rw [isSlot] at isFound
    cases isFound
    rfl
  cases moved with
  | openCopy point =>
      exact Spares.openForWriting otherKept.point tidy fun holds => clear rfl holds
  | writeCopy point =>
      rw [point] at atPoint
      have holds : save.point.holdsCopy := by
        rw [point]
        rfl
      exact Spares.write (fun isOpen => otherKept.point.copy_ne tidy isOpen atPoint.1
        fun otherHolds => (apart.safeName holds otherHolds).symm) _ _
  | enqueue point stepped =>
      refine Spares.uploadsStep tidy ?_ stepped
      exact apart.newId
  | move point stepped =>
      rw [point] at atPoint
      have holds : save.point.holdsCopy := by
        rw [point]
        rfl
      obtain ⟨-, serial, path, retries, isSlot, -⟩ := atPoint
      refine Spares.uploadsStep tidy ?_ stepped
      intro call found file foundPoint isFound
      rw [ownCall isSlot isFound]
      exact ⟨apart.newId, apart.safeName holds⟩
  | replace point stepped =>
      rw [point] at atPoint
      obtain ⟨-, serial, path, retries, isSlot, -⟩ := atPoint
      refine Spares.uploadsStep tidy ?_ stepped
      intro call found file foundPoint isFound
      rw [ownCall isSlot isFound]
      exact apart.newId
  | submit point stepped =>
      rw [point] at atPoint
      obtain ⟨-, serial, isSlot⟩ := atPoint
      refine Spares.uploadsStep tidy ?_ stepped
      intro call found file foundPoint isFound
      rw [ownCall isSlot isFound]
      exact apart.newId
  | record point =>
      rw [recordSize_eq]
      exact Spares.beside ..
  | unlink point present => exact Spares.unlink tidy present apart.old.symm
  | closeCopy _ _ | measure _ _ | measureFails _ _ | invalidate _ => exact Spares.beside ..
  | tempGone _ _ | copyGone _ _ | enqueueRaises _ _ | unlinkRaises _ _ =>
      exact absurd rfl unraised

end Moves

/-! ## Runs -/

/-- The calls are for different files and each keeps what is known of it. -/
structure Separate (system : AtomicSaves) : Prop extends Tidy system where
  apart : ∀ index other save otherSave, index ≠ other →
    system.saves.lookup index = some save → system.saves.lookup other = some otherSave →
      Apart save otherSave
  kept : ∀ index save, system.saves.lookup index = some save → SaveKept system save

section Runs

variable {maxRetries : Nat} {start system next finish : AtomicSaves} {label : Label}

theorem Apart.symm {left right : AtomicSave} (apart : Apart left right) : Apart right left where
  old := apart.old.symm
  newId := apart.newId.symm
  safeName := fun isRight isLeft => (apart.safeName isLeft isRight).symm

theorem Unstarted.separate (unstarted : Unstarted start) : Separate start where
  toTidy := unstarted.toTidy
  apart := by
    intro index other save otherSave _ isSave
    rw [unstarted.saves] at isSave
    cases isSave
  kept := by
    intro index save isSave
    rw [unstarted.saves] at isSave
    cases isSave

theorem Separate.spared (separate : Separate system) (tidy : Tidy next)
    (saves : next.saves = system.saves)
    (spares : ∀ save, Spares system next save) : Separate next where
  toTidy := tidy
  apart := by
    rw [saves]
    exact separate.apart
  kept := by
    rw [saves]
    exact fun index save isSave =>
      (separate.kept index save isSave).spared separate.placed (spares save)

theorem Separate.setSave (separate : Separate system) {index : Nat} {later : AtomicSave}
    (tidy : Tidy next) (saves : next.saves = system.saves) (kept : SaveKept next later)
    (others : ∀ other save, other ≠ index → system.saves.lookup other = some save →
      Apart later save ∧ SaveKept next save) : Separate (next.setSave index later) := by
  have lookup (other : Nat) : (next.setSave index later).saves.lookup other =
      if other = index then some later else system.saves.lookup other := by
    rw [← saves]
    exact Dict.lookup_insert_eq ..
  have still (save : AtomicSave) (isKept : SaveKept next save) :
      SaveKept (next.setSave index later) save :=
    isKept.spared tidy.placed (Spares.beside ..)
  constructor
  · exact tidy.beside ..
  · intro left right save rightSave different isLeft isRight
    rw [lookup] at isLeft isRight
    split at isLeft <;> split at isRight
    · rename_i leftIndex rightIndex
      exact absurd (leftIndex.trans rightIndex.symm) different
    · cases isLeft
      exact (others right rightSave ‹_› isRight).1
    · cases isRight
      exact (others left save ‹_› isLeft).1.symm
    · exact separate.apart left right save rightSave different isLeft isRight
  · intro other save isSave
    rw [lookup] at isSave
    split at isSave
    · cases isSave
      exact still later kept
    · exact still save (others other save ‹_› isSave).2

theorem Separate.call (separate : Separate system) {index second : Nat} {old new : Str}
    (different : Different system (.call index old new second))
    (taken : system.callStep index old new second = some next) : Separate next := by
  unfold callStep at taken
  split at taken
  · rename_i tempPath newId absent isLocal isDrive
    split at taken
    · cases taken
    · obtain ⟨content, isContent, rfl⟩ := Option.map_eq_some_iff.mp taken
      refine separate.setSave separate.toTidy rfl ⟨fun _ _ => ⟨isLocal, isContent⟩, trivial⟩ ?_
      intro other save _ isSave
      obtain ⟨otherOld, otherId⟩ := different ⟨other, save⟩ (AList.mem_lookup_iff.mp isSave)
      refine ⟨⟨otherOld.symm, ?_, fun holds => by cases holds⟩, separate.kept other save isSave⟩
      intro same
      exact otherId (isDrive.trans (congrArg some same))
  · cases taken

theorem Separate.save (separate : Separate system) {index : Nat} {action : Action}
    (undisturbed : Undisturbed system (.save index action)) {save later : AtomicSave}
    (isSave : system.saves.lookup index = some save)
    (moved : SaveMoved maxRetries system save action next later) :
    Separate (next.setSave index later) := by
  have kept := separate.kept index save isSave
  have right (measures : action = .measure) : SizeRight system save := by
    subst measures
    exact undisturbed save isSave
  have clear (other : Nat) (otherSave : AtomicSave) (different : other ≠ index)
      (isOther : system.saves.lookup other = some otherSave) (opens : action = .openCopy) :
      otherSave.point.holdsCopy → otherSave.safeName ≠ save.safeName := by
    subst opens
    exact undisturbed save isSave ⟨other, otherSave⟩ (AList.mem_lookup_iff.mp isOther) different
  obtain ⟨sameOld, sameId, sameName, holder⟩ := moved.same
  refine separate.setSave (moved.tidy kept separate.toTidy) moved.saves
    (moved.kept kept separate.toTidy right) ?_
  intro other otherSave different isOther
  have apart := separate.apart index other save otherSave different.symm isSave isOther
  have otherKept := separate.kept other otherSave isOther
  constructor
  · constructor
    · rw [sameOld]
      exact apart.old
    · rw [sameId]
      exact apart.newId
    · intro holds otherHolds
      rw [sameName]
      rcases holder holds with held | opens
      · exact apart.safeName held otherHolds
      · exact (clear other otherSave different isOther opens otherHolds).symm
  · exact otherKept.spared separate.placed (moved.spares kept separate.toTidy otherKept apart
      (clear other otherSave different isOther))

theorem foreign_of_isWork {uploadLabel : Upload.Label} (works : isWork uploadLabel)
    (save : AtomicSave) : Foreign system save uploadLabel := by
  cases uploadLabel with
  | pick _ | check _ | read _ | reply _ _ | forget _ | pop _ | fail _ | fire _ => rfl
  | begin _ _ _ | moveRaises _ | move _ | replace _ | submit _ | crash | start _
  | recover _ _ _ | recovered | resume | sweep _ => cases works

theorem Separate.step (separate : Separate system) (different : Different system label)
    (undisturbed : Undisturbed system label)
    (taken : step maxRetries system label = some next) : Separate next := by
  cases label with
  | call index old new second => exact separate.call different taken
  | save index action =>
      obtain ⟨save, isSave, goesOn⟩ := Option.bind_eq_some_iff.mp taken
      obtain ⟨⟨moved, later⟩, isMoved, rfl⟩ := Option.map_eq_some_iff.mp goesOn
      exact separate.save undisturbed isSave (saveMoved_of_saveStep isMoved)
  | worker uploadLabel =>
      simp only [AtomicSaves.step] at taken
      split at taken
      · rename_i works
        obtain ⟨uploads, isStep, rfl⟩ := Option.map_eq_some_iff.mp taken
        have stepped := Upload.stepped_of_step isStep
        exact separate.spared (separate.uploadsStep stepped) rfl fun save =>
          Spares.uploadsStep separate.toTidy (foreign_of_isWork works save) stepped
      · cases taken
  | expire fileId =>
      cases taken
      exact separate.spared (separate.toTidy.beside ..) rfl fun save => Spares.beside ..
  | load node =>
      cases taken
      exact separate.spared (separate.toTidy.beside ..) rfl fun save => Spares.beside ..

/-- What is known of a call makes it enqueue its own content. -/
theorem SaveKept.unmixed {save : AtomicSave} (kept : SaveKept system save) :
    Unmixed system save := by
  have atPoint := kept.point
  have isQueued (enqueued : save.point.enqueued) : Queued system save := by
    generalize save.point = point at atPoint enqueued
    cases point with
    | measuring => exact atPoint
    | submitting _ | recording _ | unlinking | invalidating | returned => exact atPoint.1
    | named | copying _ | copied | moving _ | replacing _ | raised => cases enqueued
  constructor
  · intro raised
    rw [raised] at atPoint
    exact atPoint
  · intro enqueued
    obtain ⟨serial, last⟩ := (isQueued enqueued).enqueued
    exact ⟨_, last, (isQueued enqueued).intact⟩
  · intro enqueued job file entry present
    rw [(isQueued enqueued).entry job file entry present]
    exact (isQueued enqueued).intact
  · intro measured
    generalize save.point = point at atPoint measured
    cases point with
    | unlinking | invalidating | returned => exact atPoint.2
    | named | copying _ | copied | moving _ | replacing _ | submitting _ | measuring
    | recording _ | raised => cases measured

/-- Any number of calls, in any order of their steps: as long as none opens a
copy under the name another has, and none measures a size that is not right,
each enqueues the content its local file had. -/
theorem unmixed_of_reaches (unstarted : Unstarted start)
    (reached : Reaches (step maxRetries)
      (fun system label => Different system label ∧ Undisturbed system label) start finish)
    {index : Nat} {save : AtomicSave} (isSave : finish.saves.lookup index = some save) :
    Unmixed finish save := by
  have separate : Separate finish :=
    reached.invariant (fun separate allowed taken => separate.step allowed.1 allowed.2 taken)
      unstarted.separate
  exact (separate.kept index save isSave).unmixed

end Runs

/-! ## Two saves -/

instance (system : AtomicSaves) (save : AtomicSave) : Decidable (SizeRight system save) :=
  inferInstanceAs (Decidable (_ ∧ _))

instance (system : AtomicSaves) : (label : Label) → Decidable (Different system label)
  | .call _ old new _ => inferInstanceAs (Decidable (∀ entry ∈ system.saves.entries,
      entry.2.old ≠ old ∧ system.driveIds.lookup new ≠ some entry.2.newId))
  | .save _ _ | .worker _ | .expire _ | .load _ => .isTrue trivial

instance (system : AtomicSaves) : (label : Label) → Decidable (Undisturbed system label)
  | .save index .openCopy => inferInstanceAs (Decidable (∀ save ∈ system.saves.lookup index,
      ∀ entry ∈ system.saves.entries, entry.1 ≠ index → entry.2.point.holdsCopy →
        entry.2.safeName ≠ save.safeName))
  | .save index .measure => inferInstanceAs (Decidable
      (∀ save ∈ system.saves.lookup index, system.SizeRight save))
  | .save _ (.writeCopy _) | .save _ .closeCopy | .save _ (.enqueue _ _) | .save _ .move
  | .save _ .replace | .save _ .submit | .save _ (.record _) | .save _ .unlink
  | .save _ (.invalidate _) | .call _ _ _ _ | .worker _ | .expire _ | .load _ => .isTrue trivial

/-- Two local-only files of different contents, and two files on Drive. -/
def twoFiles : AtomicSaves where
  uploads := .ready ∅
  bytes := fun _ => []
  nextFile := 0
  localOnlyFiles := (AList.singleton ['a'] ['s']).insert ['b'] ['t']
  temps := (AList.singleton ['s'] [1]).insert ['t'] [2, 3]
  driveIds := (AList.singleton ['f'] ['F']).insert ['g'] ['G']
  cache := ⟨∅, fun _ => ⟨[], [], false, 0, 0⟩, 0⟩
  saves := ∅

theorem twoFiles_unstarted : Unstarted twoFiles where
  saves := rfl
  placed := by
    constructor
    · intro fileId job present
      cases present
    · intro fileId job present
      cases present
    · exact fun _ => trivial
  files := by
    intro left right file isLeft
    cases isLeft
  below := by
    intro path file present
    cases present
  temps := by
    have lookup (old : Str) : twoFiles.localOnlyFiles.lookup old =
        if old = ['b'] then some ['t'] else if old = ['a'] then some ['s'] else none := by
      refine (Dict.lookup_insert_eq ..).trans ?_
      congr 1
      exact Dict.lookup_insert_eq ∅ ['a'] old ['s']
    intro left right tempPath isLeft isRight
    rw [lookup] at isLeft isRight
    grind

def copySteps (index : Nat) : List Label :=
  [.save index .openCopy, .save index (.writeCopy 8), .save index .closeCopy]

def enqueueSteps (index : Nat) : List Label :=
  [.save index (.enqueue index 7), .save index .move, .save index .replace, .save index .submit]

def endSteps (index : Nat) : List Label :=
  [.save index .measure, .save index .unlink, .save index (.invalidate true)]

/-- Both calls fall in one second. -/
def bothCalls : List Label :=
  [.load ⟨['F'], ['f'], false, 1, 0⟩, .load ⟨['G'], ['g'], false, 2, 0⟩,
    .call 0 ['a'] ['f'] 7, .call 1 ['b'] ['g'] 7]

def inTurn : List Label :=
  bothCalls ++ copySteps 0 ++ enqueueSteps 0 ++ [.save 0 .measure] ++ copySteps 1 ++
    enqueueSteps 1 ++ [.worker (.pick 0), .worker (.check 0), .worker (.read 0)] ++
    endSteps 1 ++ [.save 0 .unlink, .save 0 (.invalidate false)]

/-- A second call opens its copy after the first one's was moved. -/
theorem unmixed_of_reaches_inTurn :
    ∃ finish first second, runAllowed (step 3)
        (fun system label => Different system label ∧ Undisturbed system label) twoFiles inTurn =
        some finish ∧
      finish.saves.lookup 0 = some first ∧ finish.saves.lookup 1 = some second ∧
      first.point = .returned ∧ first.content = [1] ∧ first.recorded = some 1 ∧
      second.point = .returned ∧ second.content = [2, 3] ∧ second.recorded = some 2 ∧
      Unmixed finish first ∧ Unmixed finish second := by
  have executes : (runAllowed (step 3)
      (fun system label => Different system label ∧ Undisturbed system label) twoFiles
      inTurn).isSome := rfl
  obtain ⟨finish, executed⟩ := Option.isSome_iff_exists.mp executes
  have first : finish.saves.lookup 0 =
      some ⟨['a'], ['f'], ['F'], ['s'], atomicName 7, 0, .returned, [1], some 1⟩ :=
    look_of_run executed (·.saves.lookup 0) rfl
  have second : finish.saves.lookup 1 =
      some ⟨['b'], ['g'], ['G'], ['t'], atomicName 7, 1, .returned, [2, 3], some 2⟩ :=
    look_of_run executed (·.saves.lookup 1) rfl
  have reached := Reaches.of_runAllowed executed
  exact ⟨finish, _, _, executed, first, second, rfl, rfl, rfl, rfl, rfl, rfl,
    unmixed_of_reaches twoFiles_unstarted reached first,
    unmixed_of_reaches twoFiles_unstarted reached second⟩

/-- The second call opens its copy before the first one's is moved. -/
def inOneSecond : List Label :=
  bothCalls ++ copySteps 0 ++ copySteps 1 ++ enqueueSteps 0

/-- Then the first file on Drive gets the content of the second local file. -/
theorem unmixed_fails_inOneSecond :
    ¬ ∀ start finish : AtomicSaves, Unstarted start → Reaches (step 3) Different start finish →
      ∀ index save, finish.saves.lookup index = some save → Unmixed finish save := by
  intro holds
  have executes : (runAllowed (step 3) Different twoFiles inOneSecond).isSome := rfl
  obtain ⟨finish, executed⟩ := Option.isSome_iff_exists.mp executes
  have first : finish.saves.lookup 0 =
      some ⟨['a'], ['f'], ['F'], ['s'], atomicName 7, 0, .measuring, [1], none⟩ :=
    look_of_run executed (·.saves.lookup 0) rfl
  have enqueued : (finish.uploads.lastEnqueued ['F']).map (finish.bytes ·.content) =
      some [2, 3] :=
    look_of_run executed (fun finish =>
      (finish.uploads.lastEnqueued ['F']).map (finish.bytes ·.content)) rfl
  have unmixed := holds twoFiles finish twoFiles_unstarted (Reaches.of_runAllowed executed)
    0 _ first
  obtain ⟨last, isLast, isContent⟩ := unmixed.enqueued rfl
  rw [isLast, Option.map_some, isContent] at enqueued
  cases enqueued

end AtomicSaves

end FuseDrive.Fuse
