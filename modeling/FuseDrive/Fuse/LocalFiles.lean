import FuseDrive.FileStore
import FuseDrive.Fuse.StatsRouting
import FuseDrive.Lockstep

/-!
# The local-only files as a name space

An editor's swap files never reach Drive.  `FuseOps` keeps a temporary file for
each of them and leads the calls on their paths there, and the calls on their
handles to the descriptors.  What the editor sees is a name space of files of
its own: a path leads to one file, renaming moves the path, and a file outlives
its path for those who have it open.
-/

namespace FuseDrive.Fuse

/-! ## The calls -/

/-- The calls on local-only files.  `temp` is the name that `mkstemp` chooses
and `tempFd` the descriptor that the system opens. -/
inductive LocalCall where
  | create (path temp : Str) (tempFd : Nat)
  | openFile (path : Str) (flags tempFd : Nat)
  /-- `create` or `open` of a Drive file, whose handle takes a number as well. -/
  | openOnDrive
  | read (path : Str) (length offset fd : Nat)
  | write (data : Bytes) (offset fd : Nat)
  | truncate (path : Str) (length : Nat)
  | getattr (path : Str)
  | rename (old new : Str)
  /-- `rename` where `new` is a file on Drive. -/
  | replace (old new : Str)
  | unlink (path : Str)
  | release (fd : Nat)
deriving DecidableEq

inductive LocalAnswer where
  | handle (fd : Nat)
  | data (bytes : Bytes)
  | written (count : Nat)
  | size (size : Nat)
  /-- The bytes that are copied and enqueued. -/
  | uploads (bytes : Bytes)
  | done
  | ebadf
deriving DecidableEq

/-! ## The program -/

/-- An `open_files` entry with `is_local_only` set. -/
structure LocalHandle where
  tempFd : Nat
  isWrite : Bool
deriving DecidableEq

structure LocalFiles where
  localOnlyFiles : Dict Str Str := ∅
  openFiles : Dict Nat LocalHandle := ∅
  nextFd : Nat := 1000
  os : FileStore Str := {}

namespace LocalFiles

variable (state : LocalFiles)

/-- The branch of `create` for swap files. -/
def create (path temp : Str) (tempFd : Nat) : LocalAnswer × LocalFiles :=
  (.handle state.nextFd, {
    localOnlyFiles := state.localOnlyFiles.insert path temp
    openFiles := state.openFiles.insert state.nextFd ⟨tempFd, true⟩
    nextFd := state.nextFd + 1
    os := state.os.mkstemp temp tempFd })

def openFile (path : Str) (flags tempFd : Nat) : Option (LocalAnswer × LocalFiles) := do
  let tempPath ← state.localOnlyFiles.lookup path
  let os ← state.os.openName tempPath (Unrouted.writes flags) tempFd
  some (.handle state.nextFd, { state with
    openFiles := state.openFiles.insert state.nextFd ⟨tempFd, Unrouted.writes flags⟩
    nextFd := state.nextFd + 1
    os })

def read (length offset fd : Nat) : Option (LocalAnswer × LocalFiles) := do
  let handle ← state.openFiles.lookup fd
  let os ← state.os.lseek handle.tempFd offset
  let (data, os) ← os.read handle.tempFd length
  some (.data data, { state with os })

def write (data : Bytes) (offset fd : Nat) : Option (LocalAnswer × LocalFiles) := do
  let handle ← state.openFiles.lookup fd
  if handle.isWrite then
    let os ← state.os.lseek handle.tempFd offset
    let os ← os.write handle.tempFd data
    some (.written data.length, { state with os })
  else some (.ebadf, state)

def truncate (path : Str) (length : Nat) : Option (LocalAnswer × LocalFiles) := do
  let tempPath ← state.localOnlyFiles.lookup path
  let os ← state.os.truncate tempPath length
  some (.done, { state with os })

def getattr (path : Str) : Option (LocalAnswer × LocalFiles) := do
  let tempPath ← state.localOnlyFiles.lookup path
  let size ← state.os.size tempPath
  some (.size size, state)

/-- `self.local_only_files[new] = self.local_only_files.pop(old)`. -/
def rename (old new : Str) : Option (LocalAnswer × LocalFiles) := do
  let tempPath ← state.localOnlyFiles.lookup old
  some (.done, { state with
    localOnlyFiles := (state.localOnlyFiles.erase old).insert new tempPath })

/-- The branch of `unlink` for local-only files, which ignores that the file
cannot be removed. -/
def unlink (path : Str) : Option (LocalAnswer × LocalFiles) := do
  let tempPath ← state.localOnlyFiles.lookup path
  some (.done, { state with
    localOnlyFiles := state.localOnlyFiles.erase path
    os := (state.os.remove tempPath).getD state.os })

/-- The branch of `rename` that uploads the content in place of a Drive file. -/
def replace (old : Str) : Option (LocalAnswer × LocalFiles) := do
  let tempPath ← state.localOnlyFiles.lookup old
  let bytes ← state.os.readWhole tempPath
  let (_, state) ← state.unlink old
  some (.uploads bytes, state)

def release (fd : Nat) : Option (LocalAnswer × LocalFiles) := do
  let handle ← state.openFiles.lookup fd
  let os ← state.os.close handle.tempFd
  some (.done, { state with openFiles := state.openFiles.erase fd, os })

/-- The answer of a call; `none` if it is not for a local-only file, or if the
system refuses it. -/
def step : LocalCall → Option (LocalAnswer × LocalFiles)
  | .create path temp tempFd =>
      if isTemporaryEditorSwapFile (basename path) then some (state.create path temp tempFd)
      else none
  | .openFile path flags tempFd =>
      if isStatsPath path then none else state.openFile path flags tempFd
  | .openOnDrive => some (.handle state.nextFd, { state with nextFd := state.nextFd + 1 })
  | .read path length offset fd => if isStatsPath path then none else state.read length offset fd
  | .write data offset fd => state.write data offset fd
  | .truncate path length => state.truncate path length
  | .getattr path => if isStatsPath path then none else state.getattr path
  | .rename old new => if isTemporaryEditorSwapFile new then state.rename old new else none
  | .replace old new => if isTemporaryEditorSwapFile new then none else state.replace old
  | .unlink path => state.unlink path
  | .release fd => state.release fd

/-- The name and the descriptor that the system chooses are not in use. -/
def Fresh : LocalCall → Prop
  | .create _ temp tempFd =>
      state.os.names.lookup temp = none ∧ state.os.descriptors.lookup tempFd = none
  | .openFile _ _ tempFd => state.os.descriptors.lookup tempFd = none
  | _ => True

instance : (call : LocalCall) → Decidable (state.Fresh call)
  | .create _ _ _ => inferInstanceAs (Decidable (_ ∧ _))
  | .openFile _ _ _ => inferInstanceAs (Decidable (_ = _))
  | .openOnDrive | .read _ _ _ _ | .write _ _ _ | .truncate _ _ | .getattr _ | .rename _ _
  | .replace _ _ | .unlink _ | .release _ => .isTrue trivial

end LocalFiles

/-! ## The name space -/

/-- Paths and handles lead to files. -/
structure Namespace where
  files : Dict Str Nat := ∅
  contents : Nat → Bytes := fun _ => []
  created : Nat := 0
  /-- The file of a handle, and whether it may be written. -/
  handles : Dict Nat (Nat × Bool) := ∅
  nextHandle : Nat := 1000

namespace Namespace

variable (state : Namespace)

def change (file : Nat) (content : Bytes) : Namespace :=
  { state with contents := Function.update state.contents file content }

def unlink (path : Str) : Namespace :=
  { state with files := state.files.erase path }

def addFile (path : Str) : Namespace :=
  { state with
    files := state.files.insert path state.created
    contents := Function.update state.contents state.created []
    created := state.created + 1 }

def addHandle (handle : Nat × Bool) : Namespace :=
  { state with
    handles := state.handles.insert state.nextHandle handle
    nextHandle := state.nextHandle + 1 }

/-- What a call means. -/
def step : LocalCall → Option (LocalAnswer × Namespace)
  | .create path _ _ =>
      if isTemporaryEditorSwapFile (basename path) then
        some (.handle state.nextHandle, (state.addFile path).addHandle (state.created, true))
      else none
  | .openFile path flags _ =>
      if isStatsPath path then none
      else (state.files.lookup path).map fun file =>
        (.handle state.nextHandle, state.addHandle (file, Unrouted.writes flags))
  | .openOnDrive =>
      some (.handle state.nextHandle, { state with nextHandle := state.nextHandle + 1 })
  | .read path length offset fd =>
      if isStatsPath path then none
      else (state.handles.lookup fd).map fun (file, _) =>
        (.data (slice (state.contents file) offset length), state)
  | .write data offset fd =>
      (state.handles.lookup fd).map fun (file, isWritable) =>
        if isWritable then
          (.written data.length, state.change file ((state.contents file).overwrite offset data))
        else (.ebadf, state)
  | .truncate path length =>
      (state.files.lookup path).map fun file =>
        (.done, state.change file ((state.contents file).resize length))
  | .getattr path =>
      if isStatsPath path then none
      else (state.files.lookup path).map fun file => (.size (state.contents file).length, state)
  | .rename old new =>
      if isTemporaryEditorSwapFile new then
        (state.files.lookup old).map fun file =>
          (.done, { state with files := (state.files.erase old).insert new file })
      else none
  | .replace old new =>
      if isTemporaryEditorSwapFile new then none
      else (state.files.lookup old).map fun file =>
        (.uploads (state.contents file), state.unlink old)
  | .unlink path => (state.files.lookup path).map fun _ => (.done, state.unlink path)
  | .release fd =>
      (state.handles.lookup fd).map fun _ =>
        (.done, { state with handles := state.handles.erase fd })

end Namespace

/-! ## The program refines the name space -/

namespace LocalFiles

/-- The program keeps a name space: names and descriptors of temporary files
lead to the files, and no two paths or handles share one of them. -/
structure Keeps (state : LocalFiles) (space : Namespace) : Prop where
  contents : state.os.contents = space.contents
  created : state.os.created = space.created
  nextFd : state.nextFd = space.nextHandle
  files : ∀ path, space.files.lookup path =
    (state.localOnlyFiles.lookup path).bind (state.os.names.lookup ·)
  named : ∀ path temp, state.localOnlyFiles.lookup path = some temp →
    ∃ file, state.os.names.lookup temp = some file
  namedApart : ∀ path other temp, state.localOnlyFiles.lookup path = some temp →
    state.localOnlyFiles.lookup other = some temp → path = other
  handles : ∀ fd, space.handles.lookup fd = (state.openFiles.lookup fd).bind fun handle =>
    (state.os.descriptors.lookup handle.tempFd).map fun descriptor =>
      (descriptor.file, handle.isWrite)
  opened : ∀ fd handle, state.openFiles.lookup fd = some handle →
    ∃ descriptor, state.os.descriptors.lookup handle.tempFd = some descriptor ∧
      descriptor.isWritable = handle.isWrite
  openedApart : ∀ fd other handle also, state.openFiles.lookup fd = some handle →
    state.openFiles.lookup other = some also → handle.tempFd = also.tempFd → fd = other

theorem Keeps.initial : Keeps {} {} where
  contents := rfl
  created := rfl
  nextFd := rfl
  files _ := rfl
  named _ _ present := by cases present
  namedApart _ _ _ present := by cases present
  handles _ := rfl
  opened _ _ present := by cases present
  openedApart _ _ _ _ present := by cases present

section Keeps

variable {state : LocalFiles} {space : Namespace}

theorem Keeps.file (keeps : Keeps state space) {path temp : Str}
    (isTemp : state.localOnlyFiles.lookup path = some temp) :
    ∃ file, state.os.names.lookup temp = some file ∧ space.files.lookup path = some file := by
  obtain ⟨file, isFile⟩ := keeps.named path temp isTemp
  refine ⟨file, isFile, ?_⟩
  rw [keeps.files, isTemp]
  exact isFile

theorem Keeps.absent (keeps : Keeps state space) {path : Str}
    (absent : state.localOnlyFiles.lookup path = none) : space.files.lookup path = none := by
  rw [keeps.files, absent]
  rfl

theorem Keeps.descriptor (keeps : Keeps state space) {fd : Nat} {handle : LocalHandle}
    (isHandle : state.openFiles.lookup fd = some handle) :
    ∃ descriptor, state.os.descriptors.lookup handle.tempFd = some descriptor ∧
      descriptor.isWritable = handle.isWrite ∧
      space.handles.lookup fd = some (descriptor.file, handle.isWrite) := by
  obtain ⟨descriptor, isDescriptor, writable⟩ := keeps.opened fd handle isHandle
  refine ⟨descriptor, isDescriptor, writable, ?_⟩
  rw [keeps.handles, isHandle]
  simp only [Option.bind_some, isDescriptor, Option.map_some]

theorem Keeps.closed (keeps : Keeps state space) {fd : Nat}
    (absent : state.openFiles.lookup fd = none) : space.handles.lookup fd = none := by
  rw [keeps.handles, absent]
  rfl

theorem Keeps.change (keeps : Keeps state space) {os : FileStore Str} {contents : Nat → Bytes}
    (leads : FileStore.Leads state.os os) (isContents : os.contents = contents) :
    Keeps { state with os } { space with contents } where
  contents := isContents
  created := leads.created.trans keeps.created
  nextFd := keeps.nextFd
  files path := by
    rw [leads.names]
    exact keeps.files path
  named path temp isTemp := by
    rw [leads.names]
    exact keeps.named path temp isTemp
  namedApart := keeps.namedApart
  handles fd := by
    rw [keeps.handles]
    cases isHandle : state.openFiles.lookup fd with
    | none => rfl
    | some handle =>
        have same := leads.descriptors handle.tempFd
        cases before : state.os.descriptors.lookup handle.tempFd with
        | none =>
            rw [before, Option.map_none, Option.map_eq_none_iff] at same
            simp only [Option.bind_some, before, same, Option.map_none]
        | some descriptor =>
            rw [before, Option.map_some, Option.map_eq_some_iff] at same
            obtain ⟨later, isLater, sameFile⟩ := same
            simp only [Option.bind_some, before, isLater, Option.map_some]
            rw [(Prod.mk.inj sameFile).1]
  opened fd handle isHandle := by
    obtain ⟨descriptor, isDescriptor, writable⟩ := keeps.opened fd handle isHandle
    have same := leads.descriptors handle.tempFd
    rw [isDescriptor, Option.map_some, Option.map_eq_some_iff] at same
    obtain ⟨later, isLater, sameFile⟩ := same
    exact ⟨later, isLater, (Prod.mk.inj sameFile).2.trans writable⟩
  openedApart := keeps.openedApart

theorem Keeps.addFile (keeps : Keeps state space) (path : Str) {temp : Str}
    (fresh : state.os.names.lookup temp = none) :
    Keeps
      { state with
        localOnlyFiles := state.localOnlyFiles.insert path temp
        os := { state.os with
          names := state.os.names.insert temp state.os.created
          contents := Function.update state.os.contents state.os.created []
          created := state.os.created + 1 } }
      (space.addFile path) := by
  have unused (other : Str) : state.localOnlyFiles.lookup other ≠ some temp := by
    intro isTemp
    obtain ⟨file, isFile⟩ := keeps.named other temp isTemp
    rw [fresh] at isFile
    cases isFile
  constructor
  · change Function.update _ _ _ = Function.update _ _ _
    rw [keeps.contents, keeps.created]
  · exact congrArg (· + 1) keeps.created
  · exact keeps.nextFd
  · intro other
    simp only [Namespace.addFile, Dict.lookup_insert_eq]
    split
    · simp only [Option.bind_some, if_true, keeps.created]
    · rw [keeps.files]
      cases isTemp : state.localOnlyFiles.lookup other with
      | none => rfl
      | some kept =>
          have distinct : kept ≠ temp := fun same => unused other (same ▸ isTemp)
          simp only [Option.bind_some, if_neg distinct]
  · intro other kept isTemp
    simp only [Dict.lookup_insert_eq] at isTemp ⊢
    split
    · exact ⟨_, rfl⟩
    · rename_i distinct
      split at isTemp
      · cases isTemp
        exact absurd rfl distinct
      · exact keeps.named other kept isTemp
  · intro first second kept isFirst isSecond
    simp only [Dict.lookup_insert_eq] at isFirst isSecond
    split at isFirst
    · cases isFirst
      split at isSecond
      · rename_i same also
        exact same.trans also.symm
      · exact absurd isSecond (unused second)
    · split at isSecond
      · cases isSecond
        exact absurd isFirst (unused first)
      · exact keeps.namedApart first second kept isFirst isSecond
  · exact keeps.handles
  · exact keeps.opened
  · exact keeps.openedApart

theorem Keeps.addHandle (keeps : Keeps state space) (file : Nat) (isWrite : Bool)
    {tempFd : Nat} (fresh : state.os.descriptors.lookup tempFd = none) :
    Keeps
      { state with
        openFiles := state.openFiles.insert state.nextFd ⟨tempFd, isWrite⟩
        nextFd := state.nextFd + 1
        os := { state.os with
          descriptors := state.os.descriptors.insert tempFd ⟨file, 0, isWrite⟩ } }
      (space.addHandle (file, isWrite)) := by
  have unused {other : Nat} {handle : LocalHandle}
      (isHandle : state.openFiles.lookup other = some handle) : handle.tempFd ≠ tempFd := by
    intro same
    obtain ⟨descriptor, isDescriptor, -⟩ := keeps.opened other handle isHandle
    rw [same, fresh] at isDescriptor
    cases isDescriptor
  constructor
  · exact keeps.contents
  · exact keeps.created
  · exact congrArg (· + 1) keeps.nextFd
  · exact keeps.files
  · exact keeps.named
  · exact keeps.namedApart
  · intro other
    simp only [Namespace.addHandle, Dict.lookup_insert_eq, keeps.nextFd]
    split
    · simp only [Option.bind_some, if_true, Option.map_some]
    · rw [keeps.handles]
      cases isHandle : state.openFiles.lookup other with
      | none => rfl
      | some handle => simp only [Option.bind_some, if_neg (unused isHandle)]
  · intro other handle isHandle
    simp only [Dict.lookup_insert_eq] at isHandle ⊢
    split at isHandle
    · cases isHandle
      exact ⟨_, if_pos rfl, rfl⟩
    · rw [if_neg (unused isHandle)]
      exact keeps.opened other handle isHandle
  · intro first second handle also isFirst isSecond same
    simp only [Dict.lookup_insert_eq] at isFirst isSecond
    split at isFirst
    · cases isFirst
      split at isSecond
      · rename_i isFd alsoFd
        exact isFd.trans alsoFd.symm
      · exact absurd same.symm (unused isSecond)
    · split at isSecond
      · cases isSecond
        exact absurd same (unused isFirst)
      · exact keeps.openedApart first second handle also isFirst isSecond same

theorem Keeps.removePath (keeps : Keeps state space) {path temp : Str}
    (isTemp : state.localOnlyFiles.lookup path = some temp) :
    Keeps
      { state with
        localOnlyFiles := state.localOnlyFiles.erase path
        os := { state.os with names := state.os.names.erase temp } }
      (space.unlink path) := by
  have apart {other kept : Str} (distinct : other ≠ path)
      (isKept : state.localOnlyFiles.lookup other = some kept) : kept ≠ temp :=
    fun same => distinct (keeps.namedApart other path temp (same ▸ isKept) isTemp)
  constructor
  · exact keeps.contents
  · exact keeps.created
  · exact keeps.nextFd
  · intro other
    simp only [Namespace.unlink, Dict.lookup_erase_eq]
    split
    · rfl
    · rename_i distinct
      rw [keeps.files]
      cases isKept : state.localOnlyFiles.lookup other with
      | none => rfl
      | some kept => simp only [Option.bind_some, if_neg (apart distinct isKept)]
  · intro other kept isKept
    simp only [Dict.lookup_erase_eq] at isKept ⊢
    split at isKept
    · cases isKept
    · rename_i distinct
      rw [if_neg (apart distinct isKept)]
      exact keeps.named other kept isKept
  · intro first second kept isFirst isSecond
    simp only [Dict.lookup_erase_eq] at isFirst isSecond
    split at isFirst
    · cases isFirst
    · split at isSecond
      · cases isSecond
      · exact keeps.namedApart first second kept isFirst isSecond
  · exact keeps.handles
  · exact keeps.opened
  · exact keeps.openedApart

theorem Keeps.movePath (keeps : Keeps state space) {old new temp : Str} {file : Nat}
    (isTemp : state.localOnlyFiles.lookup old = some temp)
    (isFile : state.os.names.lookup temp = some file) :
    Keeps
      { state with localOnlyFiles := (state.localOnlyFiles.erase old).insert new temp }
      { space with files := (space.files.erase old).insert new file } := by
  have apart {other : Str} (distinct : other ≠ old) :
      state.localOnlyFiles.lookup other ≠ some temp :=
    fun isKept => distinct (keeps.namedApart other old temp isKept isTemp)
  constructor
  · exact keeps.contents
  · exact keeps.created
  · exact keeps.nextFd
  · intro other
    simp only [Dict.lookup_insert_eq, Dict.lookup_erase_eq]
    split
    · exact isFile.symm
    · split
      · rfl
      · exact keeps.files other
  · intro other kept isKept
    simp only [Dict.lookup_insert_eq, Dict.lookup_erase_eq] at isKept
    split at isKept
    · cases isKept
      exact ⟨file, isFile⟩
    · split at isKept
      · cases isKept
      · exact keeps.named other kept isKept
  · intro first second kept isFirst isSecond
    simp only [Dict.lookup_insert_eq, Dict.lookup_erase_eq] at isFirst isSecond
    split at isFirst
    · cases isFirst
      split at isSecond
      · rename_i isNew alsoNew
        exact isNew.trans alsoNew.symm
      · split at isSecond
        · cases isSecond
        · exact absurd isSecond (apart ‹_›)
    · split at isFirst
      · cases isFirst
      · split at isSecond
        · cases isSecond
          exact absurd isFirst (apart ‹_›)
        · split at isSecond
          · cases isSecond
          · exact keeps.namedApart first second kept isFirst isSecond
  · exact keeps.handles
  · exact keeps.opened
  · exact keeps.openedApart

theorem Keeps.removeHandle (keeps : Keeps state space) {fd : Nat} {handle : LocalHandle}
    (isHandle : state.openFiles.lookup fd = some handle) :
    Keeps
      { state with
        openFiles := state.openFiles.erase fd
        os := { state.os with descriptors := state.os.descriptors.erase handle.tempFd } }
      { space with handles := space.handles.erase fd } := by
  have apart {other : Nat} {kept : LocalHandle} (distinct : other ≠ fd)
      (isKept : state.openFiles.lookup other = some kept) : kept.tempFd ≠ handle.tempFd :=
    fun same => distinct (keeps.openedApart other fd kept handle isKept isHandle same)
  constructor
  · exact keeps.contents
  · exact keeps.created
  · exact keeps.nextFd
  · exact keeps.files
  · exact keeps.named
  · exact keeps.namedApart
  · intro other
    simp only [Dict.lookup_erase_eq]
    split
    · rfl
    · rename_i distinct
      rw [keeps.handles]
      cases isKept : state.openFiles.lookup other with
      | none => rfl
      | some kept => simp only [Option.bind_some, if_neg (apart distinct isKept)]
  · intro other kept isKept
    simp only [Dict.lookup_erase_eq] at isKept ⊢
    split at isKept
    · cases isKept
    · rename_i distinct
      rw [if_neg (apart distinct isKept)]
      exact keeps.opened other kept isKept
  · intro first second kept also isFirst isSecond same
    simp only [Dict.lookup_erase_eq] at isFirst isSecond
    split at isFirst
    · cases isFirst
    · split at isSecond
      · cases isSecond
      · exact keeps.openedApart first second kept also isFirst isSecond same

/-! ## Each call -/

/-- The program and the name space agree on a call. -/
abbrev Agree : Option (LocalAnswer × LocalFiles) → Option (LocalAnswer × Namespace) → Prop :=
  Option.Rel fun one other => one.1 = other.1 ∧ Keeps one.2 other.2

theorem Agree.of_some {given : LocalAnswer} {next : LocalFiles} {other : Namespace}
    (keeps : Keeps next other) : Agree (some (given, next)) (some (given, other)) :=
  .some ⟨rfl, keeps⟩

theorem Keeps.create (keeps : Keeps state space) {path temp : Str} {tempFd : Nat}
    (fresh : state.Fresh (.create path temp tempFd)) :
    Agree (state.step (.create path temp tempFd)) (space.step (.create path temp tempFd)) := by
  simp only [step, Namespace.step, LocalFiles.create, ← keeps.nextFd]
  split
  · have filed := keeps.addFile path fresh.1
    have opened := filed.addHandle space.created true fresh.2
    rw [← keeps.created] at opened ⊢
    exact Agree.of_some opened
  · exact .none

theorem Keeps.openFile (keeps : Keeps state space) {path : Str} {flags tempFd : Nat}
    (fresh : state.Fresh (.openFile path flags tempFd)) :
    Agree (state.step (.openFile path flags tempFd)) (space.step (.openFile path flags tempFd)) := by
  simp only [step, Namespace.step]
  split
  · exact .none
  · cases isTemp : state.localOnlyFiles.lookup path with
    | none =>
        simp only [LocalFiles.openFile, isTemp, keeps.absent isTemp]
        exact .none
    | some temp =>
        obtain ⟨file, isFile, also⟩ := keeps.file isTemp
        simp only [LocalFiles.openFile, FileStore.openName, isTemp, isFile, also, Option.map_some,
          Option.bind_eq_bind, Option.bind_some, ← keeps.nextFd]
        exact Agree.of_some (keeps.addHandle file _ fresh)

theorem Keeps.openOnDrive (keeps : Keeps state space) :
    Agree (state.step .openOnDrive) (space.step .openOnDrive) :=
  .some ⟨congrArg LocalAnswer.handle keeps.nextFd,
    { keeps with nextFd := congrArg (· + 1) keeps.nextFd }⟩

theorem Keeps.read (keeps : Keeps state space) (path : Str) (length offset fd : Nat) :
    Agree (state.step (.read path length offset fd)) (space.step (.read path length offset fd)) := by
  simp only [step, Namespace.step]
  split
  · exact .none
  · cases isHandle : state.openFiles.lookup fd with
    | none =>
        simp only [LocalFiles.read, isHandle, keeps.closed isHandle]
        exact .none
    | some handle =>
        obtain ⟨descriptor, isDescriptor, -, also⟩ := keeps.descriptor isHandle
        obtain ⟨sought, next, seeks, reads, contents, leads⟩ :=
          FileStore.read_at isDescriptor offset length
        simp only [LocalFiles.read, isHandle, seeks, reads, also, Option.map_some,
          Option.bind_eq_bind, Option.bind_some, keeps.contents]
        exact Agree.of_some (keeps.change leads (contents.trans keeps.contents))

theorem Keeps.write (keeps : Keeps state space) (data : Bytes) (offset fd : Nat) :
    Agree (state.step (.write data offset fd)) (space.step (.write data offset fd)) := by
  cases isHandle : state.openFiles.lookup fd with
  | none =>
      simp only [step, Namespace.step, LocalFiles.write, isHandle, keeps.closed isHandle]
      exact .none
  | some handle =>
      obtain ⟨descriptor, isDescriptor, writable, also⟩ := keeps.descriptor isHandle
      simp only [step, Namespace.step, LocalFiles.write, isHandle, also, Option.map_some,
        Option.bind_eq_bind, Option.bind_some]
      cases isWrite : handle.isWrite with
      | false => exact Agree.of_some keeps
      | true =>
          obtain ⟨sought, next, seeks, writes, contents, leads⟩ :=
            FileStore.write_at isDescriptor (writable.trans isWrite) offset data
          simp only [if_true, seeks, writes, Option.bind_some]
          rw [keeps.contents] at contents
          exact Agree.of_some (keeps.change leads contents)

theorem Keeps.truncate (keeps : Keeps state space) (path : Str) (length : Nat) :
    Agree (state.step (.truncate path length)) (space.step (.truncate path length)) := by
  cases isTemp : state.localOnlyFiles.lookup path with
  | none =>
      simp only [step, Namespace.step, LocalFiles.truncate, isTemp, keeps.absent isTemp]
      exact .none
  | some temp =>
      obtain ⟨file, isFile, also⟩ := keeps.file isTemp
      simp only [step, Namespace.step, LocalFiles.truncate, FileStore.truncate, isTemp, isFile, also,
        Option.map_some, Option.bind_eq_bind, Option.bind_some]
      refine Agree.of_some (keeps.change ⟨rfl, rfl, fun _ => rfl⟩ ?_)
      rw [keeps.contents]

theorem Keeps.getattr (keeps : Keeps state space) (path : Str) :
    Agree (state.step (.getattr path)) (space.step (.getattr path)) := by
  simp only [step, Namespace.step]
  split
  · exact .none
  · cases isTemp : state.localOnlyFiles.lookup path with
    | none =>
        simp only [LocalFiles.getattr, isTemp, keeps.absent isTemp]
        exact .none
    | some temp =>
        obtain ⟨file, isFile, also⟩ := keeps.file isTemp
        simp only [LocalFiles.getattr, FileStore.size, isTemp, isFile, also, Option.map_some,
          Option.bind_eq_bind, Option.bind_some, keeps.contents]
        exact Agree.of_some keeps

theorem Keeps.rename (keeps : Keeps state space) (old new : Str) :
    Agree (state.step (.rename old new)) (space.step (.rename old new)) := by
  simp only [step, Namespace.step]
  split
  · cases isTemp : state.localOnlyFiles.lookup old with
    | none =>
        simp only [LocalFiles.rename, isTemp, keeps.absent isTemp]
        exact .none
    | some temp =>
        obtain ⟨file, isFile, also⟩ := keeps.file isTemp
        simp only [LocalFiles.rename, isTemp, also, Option.map_some, Option.bind_eq_bind,
          Option.bind_some]
        exact Agree.of_some (keeps.movePath isTemp isFile)
  · exact .none

theorem Keeps.unlink (keeps : Keeps state space) (path : Str) :
    Agree (state.step (.unlink path)) (space.step (.unlink path)) := by
  cases isTemp : state.localOnlyFiles.lookup path with
  | none =>
      simp only [step, Namespace.step, LocalFiles.unlink, isTemp, keeps.absent isTemp]
      exact .none
  | some temp =>
      obtain ⟨file, isFile, also⟩ := keeps.file isTemp
      simp only [step, Namespace.step, LocalFiles.unlink, FileStore.remove, isTemp, isFile, also,
        Option.map_some, Option.bind_eq_bind, Option.bind_some, Option.getD_some]
      exact Agree.of_some (keeps.removePath isTemp)

theorem Keeps.replace (keeps : Keeps state space) (old new : Str) :
    Agree (state.step (.replace old new)) (space.step (.replace old new)) := by
  simp only [step, Namespace.step]
  split
  · exact .none
  · cases isTemp : state.localOnlyFiles.lookup old with
    | none =>
        simp only [LocalFiles.replace, isTemp, keeps.absent isTemp]
        exact .none
    | some temp =>
        obtain ⟨file, isFile, also⟩ := keeps.file isTemp
        simp only [LocalFiles.replace, LocalFiles.unlink, FileStore.readWhole, FileStore.remove,
          isTemp, isFile, also, Option.map_some, Option.bind_eq_bind, Option.bind_some,
          Option.getD_some]
        exact .some ⟨by rw [keeps.contents], keeps.removePath isTemp⟩

theorem Keeps.release (keeps : Keeps state space) (fd : Nat) :
    Agree (state.step (.release fd)) (space.step (.release fd)) := by
  cases isHandle : state.openFiles.lookup fd with
  | none =>
      simp only [step, Namespace.step, LocalFiles.release, isHandle, keeps.closed isHandle]
      exact .none
  | some handle =>
      obtain ⟨descriptor, isDescriptor, -, also⟩ := keeps.descriptor isHandle
      simp only [step, Namespace.step, LocalFiles.release, FileStore.close, isHandle, isDescriptor,
        also, Option.map_some, Option.bind_eq_bind, Option.bind_some]
      exact Agree.of_some (keeps.removeHandle isHandle)

end Keeps

theorem lockstep : Lockstep step Namespace.step Fresh Keeps := by
  intro state space call keeps fresh
  cases call with
  | create => exact keeps.create fresh
  | openFile => exact keeps.openFile fresh
  | openOnDrive => exact keeps.openOnDrive
  | read => exact keeps.read ..
  | write => exact keeps.write ..
  | truncate => exact keeps.truncate ..
  | getattr => exact keeps.getattr ..
  | rename => exact keeps.rename ..
  | replace => exact keeps.replace ..
  | unlink => exact keeps.unlink ..
  | release => exact keeps.release ..

end LocalFiles

/-- No sequence of calls tells the local-only files from a name space. -/
theorem localFiles_refine {calls : List LocalCall}
    (fresh : Along LocalFiles.step LocalFiles.Fresh {} calls) :
    answers LocalFiles.step {} calls = answers Namespace.step {} calls ∧
      (after LocalFiles.step {} calls).Keeps (after Namespace.step {} calls) :=
  LocalFiles.lockstep.answers_eq .initial fresh

/-- A swap file that is renamed and removed while it is open. -/
def removedWhileOpen : List LocalCall :=
  [.create ['/', 'a', '~'] ['s'] 3, .write [1, 2] 0 1000, .rename ['/', 'a', '~'] ['/', 'b', '~'],
    .truncate ['/', 'b', '~'] 1, .unlink ['/', 'b', '~'], .read ['/', 'a', '~'] 4 0 1000,
    .release 1000]

theorem localFiles_refine_removedWhileOpen :
    answers Namespace.step {} removedWhileOpen =
        [some (.handle 1000), some (.written 2), some .done, some .done, some .done,
          some (.data [1]), some .done] ∧
      answers LocalFiles.step {} removedWhileOpen = answers Namespace.step {} removedWhileOpen ∧
        (after LocalFiles.step {} removedWhileOpen).Keeps
          (after Namespace.step {} removedWhileOpen) :=
  ⟨by decide, localFiles_refine (by decide)⟩

end FuseDrive.Fuse
