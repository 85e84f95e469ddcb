import FuseDrive.Cache.MetadataCache
import FuseDrive.Fuse.FileSystem

/-!
# Atomic saves at the same time

An editor saves by renaming a local-only file onto the file on Drive.  `rename`
copies it into the journal directory, under a name made of the second only,
enqueues the copy, measures it, records the size and unlinks the local-only
file.  Here several calls take these steps in any order.

A descriptor reaches its file also after the name was moved, so the names below
the cache directory are for numbered files, and the uploads are those of the
numbers.
-/

namespace FuseDrive.Fuse

/-- Program points of `rename` for a local-only file and a file on Drive. -/
inductive SavePoint where
  /-- `safe_path` is chosen, and `shutil.copy` about to open it. -/
  | named
  /-- In the loop of `shutil.copyfile`, with so many bytes written. -/
  | copying (written : Nat)
  /-- About to call `enqueue_file_for_upload`. -/
  | copied
  | moving (slot : Nat)
  | replacing (slot : Nat)
  | submitting (slot : Nat)
  /-- About to call `os.path.getsize`. -/
  | measuring
  | recording (newSize : Nat)
  | unlinking
  | invalidating
  | returned
  | raised
deriving DecidableEq

/-- The copy has its name in the journal directory. -/
def SavePoint.holdsCopy : SavePoint → Bool
  | .copying _ | .copied | .moving _ => true
  | .named | .replacing _ | .submitting _ | .measuring | .recording _ | .unlinking
  | .invalidating | .returned | .raised => false

/-- A call of `rename`.  `safeName` is the name of `safe_path` and `copy` the
file its descriptor is open on.  No step reads `content`, the bytes of the local
file at the time of the call, and `recorded`, the size in the metadata when the
`try` block is left. -/
structure AtomicSave where
  old : Str
  new : Str
  newId : Str
  tempPath : Str
  safeName : Str
  copy : Nat
  point : SavePoint
  content : Bytes
  recorded : Option Nat
deriving DecidableEq

/-- The arguments `rename` passes to `enqueue_file_for_upload`. -/
def AtomicSave.enqueueCall (save : AtomicSave) : Upload.EnqueueCall :=
  ⟨save.newId, save.safeName, false, none, none⟩

def AtomicSave.goTo (save : AtomicSave) (point : SavePoint) : AtomicSave :=
  { save with point := point }

/-- `bytes` has the bytes of every file and `nextFile` the first unused number;
`driveIds` are the ids `resolve_path_to_drive_node_id` finds. -/
structure AtomicSaves where
  uploads : Upload.State Nat
  bytes : Nat → Bytes
  nextFile : Nat
  localOnlyFiles : Dict Str Str
  temps : Dict Str Bytes
  driveIds : Dict Str Str
  cache : MemoryMetadataCache
  saves : Dict Nat AtomicSave

namespace AtomicSaves

/-- What a thread inside `rename` does next; `isMapped` tells whether
`invalidate_path` finds the id of the path. -/
inductive Action where
  | openCopy
  | writeCopy (amount : Nat)
  | closeCopy
  | enqueue (slot second : Nat)
  | move
  | replace
  | submit
  | measure
  | record (now : Nat)
  | unlink
  | invalidate (isMapped : Bool)

/-- The steps: of a call, of a worker or timer of the upload manager, and of
the cache. -/
inductive Label where
  | call (index : Nat) (old new : Str) (second : Nat)
  | save (index : Nat) (action : Action)
  | worker (label : Upload.Label)
  | expire (fileId : Str)
  | load (node : DriveNodeMetadata)

/-- A step of `execute_pending_upload_job` or of a retry timer. -/
def isWork : Upload.Label → Bool
  | .pick _ | .check _ | .read _ | .reply _ _ | .forget _ | .pop _ | .fail _ | .fire _ => true
  | .begin _ _ _ | .moveRaises _ | .move _ | .replace _ | .submit _ | .crash | .start _
  | .recover _ _ _ | .recovered | .resume | .sweep _ => false

def named (system : AtomicSaves) (name : Str) : Option Nat :=
  system.uploads.files.lookup (.journal name)

/-- `open(safe_path, "wb")`; the second component is the file. -/
def openForWriting (system : AtomicSaves) (name : Str) : AtomicSaves × Nat :=
  match system.named name with
  | some file => ({ system with bytes := Function.update system.bytes file [] }, file)
  | none =>
      ({ system with
          uploads := { system.uploads with
            files := system.uploads.files.insert (.journal name) system.nextFile }
          bytes := Function.update system.bytes system.nextFile []
          nextFile := system.nextFile + 1 }, system.nextFile)

/-- The bytes of the local-only file. -/
def source (system : AtomicSaves) (save : AtomicSave) : Bytes :=
  (system.temps.lookup save.tempPath).getD []

def write (system : AtomicSaves) (file offset : Nat) (data : Bytes) : AtomicSaves :=
  { system with
    bytes := Function.update system.bytes file ((system.bytes file).overwrite offset data) }

/-- A step of the upload manager on behalf of a call, which goes on to the
point. -/
def enqueueStep (maxRetries : Nat) (system : AtomicSaves) (save : AtomicSave)
    (label : Upload.Label) (point : SavePoint) : Option (AtomicSaves × AtomicSave) :=
  (Upload.step maxRetries system.uploads label).map fun uploads =>
    ({ system with uploads := uploads }, save.goTo point)

/-- The `try` block is left. -/
def leaveTry (system : AtomicSaves) (save : AtomicSave) : AtomicSave :=
  { save with
    point := .unlinking
    recorded := (system.cache.getMetadata save.newId).map (·.size) }

/-- The assignments to the record of the file, and `set_metadata`. -/
def recordSize (system : AtomicSaves) (fileId : Str) (newSize now : Nat) : AtomicSaves :=
  match system.cache.nodeIdToMetadata.lookup fileId with
  | some object =>
      { system with
        cache := (system.cache.assign object newSize now).setMetadata fileId object }
  | none => system

/-- The steps of a call. -/
def saveStep (maxRetries : Nat) (system : AtomicSaves) (save : AtomicSave) :
    Action → Option (AtomicSaves × AtomicSave)
  | .openCopy =>
      match save.point, system.temps.lookup save.tempPath with
      | .named, some _ =>
          let opened := system.openForWriting save.safeName
          some (opened.1, { save with copy := opened.2, point := .copying 0 })
      | .named, none => some (system, save.goTo .raised)
      | _, _ => none
  | .writeCopy amount =>
      match save.point with
      | .copying written =>
          let data := slice (system.source save) written amount
          if data = [] then none
          else
            some (system.write save.copy written data,
              save.goTo (.copying (written + data.length)))
      | _ => none
  | .closeCopy =>
      match save.point with
      | .copying written =>
          if written < (system.source save).length then none
          -- `shutil.copymode` looks for the file under its name
          else if (system.named save.safeName).isSome then some (system, save.goTo .copied)
          else some (system, save.goTo .raised)
      | _ => none
  | .enqueue slot second =>
      match save.point, system.named save.safeName with
      | .copied, some _ =>
          system.enqueueStep maxRetries save (.begin slot save.enqueueCall second)
            (.moving slot)
      | .copied, none =>
          -- `shutil.move` raises, and `with` gives the lock back
          if system.uploads.locked then none
          else
            some ({ system with uploads := system.uploads.removeOldFile save.newId },
              save.goTo .raised)
      | _, _ => none
  | .move =>
      match save.point with
      | .moving slot => system.enqueueStep maxRetries save (.move slot) (.replacing slot)
      | _ => none
  | .replace =>
      match save.point with
      | .replacing slot => system.enqueueStep maxRetries save (.replace slot) (.submitting slot)
      | _ => none
  | .submit =>
      match save.point with
      | .submitting slot => system.enqueueStep maxRetries save (.submit slot) .measuring
      | _ => none
  | .measure =>
      match save.point with
      | .measuring =>
          match system.named save.safeName with
          | some file => some (system, save.goTo (.recording (system.bytes file).length))
          -- `os.path.getsize` raises, and the handler passes
          | none => some (system, system.leaveTry save)
      | _ => none
  | .record now =>
      match save.point with
      | .recording newSize =>
          let recorded := system.recordSize save.newId newSize now
          some (recorded, recorded.leaveTry save)
      | _ => none
  | .unlink =>
      match save.point, system.localOnlyFiles.lookup save.old with
      | .unlinking, some tempPath =>
          some ({ system with
              localOnlyFiles := system.localOnlyFiles.erase save.old
              temps := system.temps.erase tempPath }, save.goTo .invalidating)
      -- `unlink` goes on to look for the path on Drive
      | .unlinking, none => some (system, save.goTo .raised)
      | _, _ => none
  | .invalidate isMapped =>
      match save.point with
      | .invalidating =>
          some ({ system with
              cache := if isMapped then system.cache.expire save.newId else system.cache },
            save.goTo .returned)
      | _ => none

/-- `rename` up to the choice of `safe_path`. -/
def callStep (system : AtomicSaves) (index : Nat) (old new : Str) (second : Nat) :
    Option AtomicSaves :=
  match system.saves.lookup index, system.localOnlyFiles.lookup old,
      system.driveIds.lookup new with
  | none, some tempPath, some newId =>
      if isTemporaryEditorSwapFile new then none
      else
        (system.temps.lookup tempPath).map fun content =>
          { system with
            saves := system.saves.insert index
              ⟨old, new, newId, tempPath, atomicName second, 0, .named, content, none⟩ }
  | _, _, _ => none

def setSave (system : AtomicSaves) (index : Nat) (save : AtomicSave) : AtomicSaves :=
  { system with saves := system.saves.insert index save }

/-- The transition system. -/
def step (maxRetries : Nat) (system : AtomicSaves) : Label → Option AtomicSaves
  | .call index old new second => system.callStep index old new second
  | .save index action =>
      (system.saves.lookup index).bind fun save =>
        (system.saveStep maxRetries save action).map fun moved => moved.1.setSave index moved.2
  | .worker label =>
      if isWork label then
        (Upload.step maxRetries system.uploads label).map fun uploads =>
          { system with uploads := uploads }
      else none
  | .expire fileId => some { system with cache := system.cache.expire fileId }
  | .load node =>
      some { system with
        cache := (system.cache.allocate node).setMetadata node.fileId system.cache.nextObject }

/-! ## What a step can do -/

/-- The effect of every step of a call. -/
inductive SaveMoved (maxRetries : Nat) (system : AtomicSaves) (save : AtomicSave) :
    Action → AtomicSaves → AtomicSave → Prop where
  | openCopy (point : save.point = .named) :
      SaveMoved maxRetries system save .openCopy (system.openForWriting save.safeName).1
        { save with copy := (system.openForWriting save.safeName).2, point := .copying 0 }
  | writeCopy {amount written} (point : save.point = .copying written) :
      SaveMoved maxRetries system save (.writeCopy amount)
        (system.write save.copy written (slice (system.source save) written amount))
        (save.goTo (.copying (written + (slice (system.source save) written amount).length)))
  | closeCopy {written} (point : save.point = .copying written)
      (finished : (system.source save).length ≤ written) :
      SaveMoved maxRetries system save .closeCopy system (save.goTo .copied)
  | enqueue {slot second uploads} (point : save.point = .copied)
      (begun : Upload.Stepped maxRetries system.uploads (.begin slot save.enqueueCall second)
        uploads) :
      SaveMoved maxRetries system save (.enqueue slot second) { system with uploads := uploads }
        (save.goTo (.moving slot))
  | move {slot uploads} (point : save.point = .moving slot)
      (moved : Upload.Stepped maxRetries system.uploads (.move slot) uploads) :
      SaveMoved maxRetries system save .move { system with uploads := uploads }
        (save.goTo (.replacing slot))
  | replace {slot uploads} (point : save.point = .replacing slot)
      (replaced : Upload.Stepped maxRetries system.uploads (.replace slot) uploads) :
      SaveMoved maxRetries system save .replace { system with uploads := uploads }
        (save.goTo (.submitting slot))
  | submit {slot uploads} (point : save.point = .submitting slot)
      (submitted : Upload.Stepped maxRetries system.uploads (.submit slot) uploads) :
      SaveMoved maxRetries system save .submit { system with uploads := uploads }
        (save.goTo .measuring)
  | measure {file} (point : save.point = .measuring)
      (present : system.named save.safeName = some file) :
      SaveMoved maxRetries system save .measure system
        (save.goTo (.recording (system.bytes file).length))
  | measureFails (point : save.point = .measuring)
      (absent : system.named save.safeName = none) :
      SaveMoved maxRetries system save .measure system (system.leaveTry save)
  | record {now newSize} (point : save.point = .recording newSize) :
      SaveMoved maxRetries system save (.record now) (system.recordSize save.newId newSize now)
        ((system.recordSize save.newId newSize now).leaveTry save)
  | unlink {tempPath} (point : save.point = .unlinking)
      (present : system.localOnlyFiles.lookup save.old = some tempPath) :
      SaveMoved maxRetries system save .unlink
        { system with
          localOnlyFiles := system.localOnlyFiles.erase save.old
          temps := system.temps.erase tempPath } (save.goTo .invalidating)
  | invalidate {isMapped} (point : save.point = .invalidating) :
      SaveMoved maxRetries system save (.invalidate isMapped)
        { system with
          cache := if isMapped then system.cache.expire save.newId else system.cache }
        (save.goTo .returned)
  | tempGone (point : save.point = .named)
      (absent : system.temps.lookup save.tempPath = none) :
      SaveMoved maxRetries system save .openCopy system (save.goTo .raised)
  | copyGone {written} (point : save.point = .copying written)
      (absent : system.named save.safeName = none) :
      SaveMoved maxRetries system save .closeCopy system (save.goTo .raised)
  | enqueueRaises {slot second} (point : save.point = .copied)
      (absent : system.named save.safeName = none) :
      SaveMoved maxRetries system save (.enqueue slot second)
        { system with uploads := system.uploads.removeOldFile save.newId } (save.goTo .raised)
  | unlinkRaises (point : save.point = .unlinking)
      (absent : system.localOnlyFiles.lookup save.old = none) :
      SaveMoved maxRetries system save .unlink system (save.goTo .raised)

section SaveMoved

variable {maxRetries : Nat} {system next : AtomicSaves} {save later : AtomicSave} {action : Action}

theorem enqueueStep_eq_some {label : Upload.Label} {point : SavePoint}
    (taken : system.enqueueStep maxRetries save label point = some (next, later)) :
    ∃ uploads, Upload.Stepped maxRetries system.uploads label uploads ∧
      next = { system with uploads := uploads } ∧ later = save.goTo point := by
  obtain ⟨uploads, stepped, same⟩ := Option.map_eq_some_iff.mp taken
  cases same
  exact ⟨uploads, Upload.stepped_of_step stepped, rfl, rfl⟩

theorem saveMoved_of_saveStep
    (taken : system.saveStep maxRetries save action = some (next, later)) :
    SaveMoved maxRetries system save action next later := by
  cases action <;> simp only [saveStep] at taken
  case openCopy =>
    split at taken <;> cases taken
    · exact .openCopy ‹_›
    · exact .tempGone ‹_› ‹_›
  case writeCopy amount =>
    split at taken
    · split at taken <;> cases taken
      exact .writeCopy ‹_›
    · cases taken
  case closeCopy =>
    split at taken
    · split at taken
      · cases taken
      · rename_i finished
        split at taken <;> cases taken
        · exact .closeCopy ‹_› (Nat.le_of_not_lt finished)
        · rename_i absent
          exact .copyGone ‹_› (Option.not_isSome_iff_eq_none.mp absent)
    · cases taken
  case enqueue slot second =>
    split at taken
    · obtain ⟨uploads, stepped, rfl, rfl⟩ := enqueueStep_eq_some taken
      exact .enqueue ‹_› stepped
    · split at taken <;> cases taken
      exact .enqueueRaises ‹_› ‹_›
    · cases taken
  case move =>
    split at taken
    · obtain ⟨uploads, stepped, rfl, rfl⟩ := enqueueStep_eq_some taken
      exact .move ‹_› stepped
    · cases taken
  case replace =>
    split at taken
    · obtain ⟨uploads, stepped, rfl, rfl⟩ := enqueueStep_eq_some taken
      exact .replace ‹_› stepped
    · cases taken
  case submit =>
    split at taken
    · obtain ⟨uploads, stepped, rfl, rfl⟩ := enqueueStep_eq_some taken
      exact .submit ‹_› stepped
    · cases taken
  case measure =>
    split at taken
    · split at taken <;> cases taken
      · exact .measure ‹_› ‹_›
      · exact .measureFails ‹_› ‹_›
    · cases taken
  case record now =>
    split at taken <;> cases taken
    exact .record ‹_›
  case unlink =>
    split at taken <;> cases taken
    · exact .unlink ‹_› ‹_›
    · exact .unlinkRaises ‹_› ‹_›
  case invalidate isMapped =>
    split at taken <;> cases taken
    exact .invalidate ‹_›

theorem openForWriting_cases (system : AtomicSaves) (name : Str) :
    (∃ file, system.named name = some file ∧ system.openForWriting name =
        ({ system with bytes := Function.update system.bytes file [] }, file)) ∨
      system.named name = none ∧ system.openForWriting name =
        ({ system with
            uploads := { system.uploads with
              files := system.uploads.files.insert (.journal name) system.nextFile }
            bytes := Function.update system.bytes system.nextFile []
            nextFile := system.nextFile + 1 }, system.nextFile) := by
  unfold openForWriting
  cases isNamed : system.named name with
  | some file => exact .inl ⟨file, rfl, rfl⟩
  | none => exact .inr ⟨rfl, rfl⟩

theorem openForWriting_named (system : AtomicSaves) (name : Str) :
    (system.openForWriting name).1.named name = some (system.openForWriting name).2 := by
  rcases openForWriting_cases system name with ⟨file, isNamed, opened⟩ | ⟨absent, opened⟩
  · rw [opened]
    exact isNamed
  · rw [opened]
    exact AList.lookup_insert _

theorem openForWriting_bytes (system : AtomicSaves) (name : Str) :
    (system.openForWriting name).1.bytes (system.openForWriting name).2 = [] := by
  rcases openForWriting_cases system name with ⟨file, -, opened⟩ | ⟨-, opened⟩ <;>
    rw [opened] <;> exact Function.update_self ..

theorem openForWriting_rest (system : AtomicSaves) (name : Str) :
    (system.openForWriting name).1.localOnlyFiles = system.localOnlyFiles ∧
      (system.openForWriting name).1.temps = system.temps ∧
      (system.openForWriting name).1.saves = system.saves := by
  rcases openForWriting_cases system name with ⟨file, -, opened⟩ | ⟨-, opened⟩ <;>
    rw [opened] <;> exact ⟨rfl, rfl, rfl⟩

theorem recordSize_eq (system : AtomicSaves) (fileId : Str) (newSize now : Nat) :
    system.recordSize fileId newSize now =
      { system with cache := (system.recordSize fileId newSize now).cache } := by
  unfold recordSize
  split <;> rfl

theorem recordSize_size {fileId : Str} {newSize now : Nat} {node : DriveNodeMetadata}
    (isRecord : (system.recordSize fileId newSize now).cache.getMetadata fileId = some node) :
    node.size = newSize := by
  unfold recordSize at isRecord
  split at isRecord
  · simp only [MemoryMetadataCache.getMetadata, MemoryMetadataCache.setMetadata,
      MemoryMetadataCache.assign, AList.lookup_insert, Option.map_some, Option.some.injEq,
      Function.update_self] at isRecord
    rw [← isRecord]
  · rename_i absent
    rw [MemoryMetadataCache.getMetadata, absent] at isRecord
    cases isRecord

theorem SaveMoved.same (moved : SaveMoved maxRetries system save action next later) :
    later.old = save.old ∧ later.newId = save.newId ∧ later.safeName = save.safeName ∧
      (later.point.holdsCopy → save.point.holdsCopy ∨ action = .openCopy) := by
  cases moved with
  | openCopy _ => exact ⟨rfl, rfl, rfl, fun _ => .inr rfl⟩
  | writeCopy point | closeCopy point _ | enqueue point _ =>
      refine ⟨rfl, rfl, rfl, fun _ => .inl ?_⟩
      rw [point]
      rfl
  | move _ _ | replace _ _ | submit _ _ | measure _ _ | measureFails _ _ | record _
  | unlink _ _ | invalidate _ | tempGone _ _ | copyGone _ _ | enqueueRaises _ _
  | unlinkRaises _ _ =>
      refine ⟨rfl, rfl, rfl, fun holds => ?_⟩
      cases holds

theorem SaveMoved.saves (moved : SaveMoved maxRetries system save action next later) :
    next.saves = system.saves := by
  cases moved with
  | openCopy _ => exact (openForWriting_rest ..).2.2
  | record _ => rw [recordSize_eq]
  | writeCopy _ | closeCopy _ _ | enqueue _ _ | move _ _ | replace _ _ | submit _ _
  | measure _ _ | measureFails _ _ | unlink _ _ | invalidate _ | tempGone _ _ | copyGone _ _
  | enqueueRaises _ _ | unlinkRaises _ _ => rfl

end SaveMoved

end AtomicSaves

end FuseDrive.Fuse
