import FuseDrive.Fuse.Journal
import FuseDrive.Fuse.PathOperations
import Mathlib.Data.Finset.Dedup
import Mathlib.Data.Finset.Lattice.Lemmas

/-!
# The whole file system

The operations on handles together with the local-only files, which editors
make and rename onto the file they save, and with the operations that move and
delete names on Drive.

Drive is reachable and grants every permission here, so an operation either
succeeds or raises before it has changed anything.  Cache expiry and the
background work are the steps they are in `Operations`.

Between the steps of one operation the others go on.  An operation may use a
path long after it was resolved, a listing maps its items long after Drive has
answered, and `unlink` and `rmdir` invalidate the path long after Drive has
deleted the node.  Only what leads to no upload is one step: `open` for
reading, and the lookups of `create`, `mkdir`, `rename` on Drive, `unlink` and
`rmdir` with the request that follows them.  Renames of a local-only file onto
a Drive file come one after the other.
-/

namespace FuseDrive.Fuse

/-- Program points of `rename` for a local-only file and a Drive file, once
the copy is in the journal directory. -/
inductive ReplacingPoint where
  /-- About to call `enqueue_file_for_upload`. -/
  | copied
  | enqueueing (slot : Nat)
  /-- Invalidating the chunks, under a number no handle has. -/
  | invalidating (edit : Nat)

structure Replacing where
  old : Str
  new : Str
  newId : Str
  tempName : Str
  point : ReplacingPoint

/-- `localHandles` are the `open_files` entries with `is_local_only` set, with
the temporary file they are for, and `temps` the temporary files.  `deleted`
are the ids Drive has issued and no longer knows.

`resolved` are the paths that operations under way have resolved, with the ids
they were told, `listed` the items of listings that are yet to be mapped, and
`deleting` the paths that `unlink` and `rmdir` are yet to invalidate. -/
structure FileSystem where
  ops : State
  localOnlyFiles : Dict Str Str
  localHandles : Dict Nat Str
  temps : Dict Str Bytes
  replacing : Option Replacing
  deleted : Finset Str
  resolved : List (Str × Str)
  listed : List (Str × Str)
  deleting : List Str

/-- Nodes of Drive, each below one of the folders or of the nodes before it. -/
def inside (nodes : Str → Option (Str × Str)) : List Str → List Str → Bool
  | _, [] => true
  | folders, fileId :: rest =>
      (nodes fileId).any (folders.contains ·.1) && inside nodes (fileId :: folders) rest

/-- The name `rename` gives the copy of a local-only file. -/
def atomicName (second : Nat) : Str :=
  ['f', 'u', 's', 'e', '_', 'a', 't', 'o', 'm', 'i', 'c', '_'] ++ Nat.toDigits 10 second ++
    ['.', 't', 'm', 'p']

/-- The name `create` asks `mkstemp` for, for an editor's swap file. -/
def swapName (suffix : Str) : Str :=
  ['f', 'u', 's', 'e', '_', 's', 'w', 'a', 'p', '_'] ++ suffix

/-- The arguments `rename` passes to `enqueue_file_for_upload`. -/
def Replacing.enqueueCall (replacing : Replacing) : Upload.EnqueueCall :=
  ⟨replacing.newId, replacing.tempName, false, none, none⟩

/-- What `getattr` returns. -/
structure Attributes where
  isDirectory : Bool
  size : Nat
deriving DecidableEq

namespace FileSystem

section Looks

variable (rootId : Str) (system : FileSystem)

/-- Drive has a node of this id. -/
def OnDrive (fileId : Str) : Prop :=
  (system.ops.nodes fileId).isSome ∧ fileId ∉ system.deleted

instance (fileId : Str) : Decidable (system.OnDrive fileId) :=
  inferInstanceAs (Decidable (_ ∧ _))

/-- Drive has a folder of this id. -/
def IsFolder (folderId : Str) : Prop :=
  folderId = rootId ∨ system.OnDrive folderId

instance (folderId : Str) : Decidable (system.IsFolder rootId folderId) :=
  inferInstanceAs (Decidable (_ ∨ _))

/-- The number of a handle that is free. -/
def Unused (fd : Nat) : Prop :=
  system.ops.Unused fd ∧ system.localHandles.lookup fd = none

instance (fd : Nat) : Decidable (system.Unused fd) :=
  inferInstanceAs (Decidable (_ ∧ _))

/-- The attributes `getattr` returns once the record is in the cache. -/
def getattr (path : Str) : Option Attributes :=
  match system.localOnlyFiles.lookup path with
  | some tempPath => some ⟨false, ((system.temps.lookup tempPath).getD []).length⟩
  | none => (system.ops.getattr rootId path).map fun node => ⟨node.isDirectory, node.size⟩

/-- `getattr` raises `ENOENT`: the path has no id, or neither the cache nor
Drive has a record of it. -/
def GetattrFails (path : Str) : Prop :=
  system.localOnlyFiles.lookup path = none ∧
    ∀ fileId, system.ops.resolvePathToDriveNodeId rootId path = some fileId →
      system.ops.store.cache.getMetadata fileId = none ∧ fileId ≠ rootId ∧
        ¬ system.OnDrive fileId

/-- `mkstemp` returns names that no file and no handle has. -/
def FreshTemp (tempPath : Str) : Prop :=
  system.temps.lookup tempPath = none ∧
    ∀ handle ∈ system.localHandles.entries, handle.2 ≠ tempPath

instance (tempPath : Str) : Decidable (system.FreshTemp tempPath) :=
  inferInstanceAs (Decidable (_ ∧ _))

/-! ## `unlink` and `rmdir` -/

def invalidatePath (path : Str) : FileSystem :=
  { system with
    ops := { system.ops with
      paths := system.ops.paths.erase path
      store := { system.ops.store with
        cache := match system.ops.paths.lookup path with
          | some fileId => system.ops.store.cache.expire fileId
          | none => system.ops.store.cache } } }

/-- Drive has deleted the node of the path, and with a folder what the user owns
in it. -/
def deletedOnDrive (path fileId : Str) (gone : List Str) : FileSystem :=
  { system with
    deleted := insert fileId (gone.toFinset ∪ system.deleted)
    deleting := path :: system.deleting }

/-- What `unlink` and `rmdir` share, up to Drive's answer. -/
def deleteNode (path : Str) (gone : List Str) : Except Errno FileSystem :=
  match system.ops.resolvePathToDriveNodeId rootId path with
  | none => .error .enoent
  | some fileId =>
      if system.OnDrive fileId then .ok (system.deletedOnDrive path fileId gone)
      else .error .enoent

/-- The end of `unlink` and `rmdir`. -/
def endDeletion (path : Str) : FileSystem :=
  { system.invalidatePath path with deleting := system.deleting.erase path }

/-- `unlink`, up to Drive's answer. -/
def unlink (path : Str) (gone : List Str) : Except Errno FileSystem :=
  match system.localOnlyFiles.lookup path with
  | some tempPath =>
      .ok { system with
        localOnlyFiles := system.localOnlyFiles.erase path
        temps := system.temps.erase tempPath }
  | none =>
      if system.ops.uploads.quotaExceeded then .error .enospc
      else system.deleteNode rootId path gone

/-- Drive may delete these nodes with the one at the path. -/
def mayTake (path : Str) (gone : List Str) : Bool :=
  (system.ops.resolvePathToDriveNodeId rootId path).all
    fun fileId => inside system.ops.nodes [fileId] gone

/-- `unlink` with nothing in between. -/
def unlinkAtOnce (path : Str) (gone : List Str) : Except Errno FileSystem :=
  (system.unlink rootId path gone).map fun next =>
    if (system.localOnlyFiles.lookup path).isSome then next else next.endDeletion path

/-- The end of `rename`, for a local-only file and a Drive file. -/
def finishReplacing (replacing : Replacing) (gone : List Str) : FileSystem :=
  match system.unlinkAtOnce rootId replacing.old gone with
  | .ok next => { next.invalidatePath replacing.new with replacing := none }
  | .error _ => { system with replacing := none }

end Looks

/-! ## The transition system -/

/-- `base` are the steps of `Operations`. -/
inductive Label where
  | base (label : Fuse.Label)
  | createLocal (fd : Nat) (path suffix : Str)
  | openLocal (fd : Nat) (path : Str)
  | writeLocal (fd : Nat) (data : Bytes) (offset : Nat)
  | truncateLocal (path : Str) (length : Nat)
  | releaseLocal (fd : Nat)
  | renameLocal (old new : Str)
  /-- An operation resolves a path it will use. -/
  | look (path : Str)
  /-- A listing of the folder it was told holds this file. -/
  | list (parentPath parentId fileId : Str)
  | mapListed (path fileId : Str)
  /-- The operation that resolved the path is over. -/
  | looked (path fileId : Str)
  | openResolved (fd : Nat) (path fileId : Str) (isTruncate : Bool) (suffix : Str)
  | replace (old new : Str) (second : Nat)
  | replaceResolved (old new newId : Str) (second : Nat)
  | replaceEnqueue (slot second : Nat)
  | replaceEnqueued (edit : Nat)
  | replaceEdit (label : Coherence.Label UInt8)
  | replaceEnd (gone : List Str)
  | rename (old new : Str)
  | unlink (path : Str) (gone : List Str)
  | mkdir (path nodeId : Str) (now index : Nat)
  | rmdir (path : Str) (gone : List Str)
  /-- An `unlink` or `rmdir` returns. -/
  | invalidated (path : Str)
  | crash

/-- What the local-only files and the deletions leave of the steps of
`Operations`. -/
def Permits (system : FileSystem) : Fuse.Label → Prop
  | .openWrite fd path _ _ | .openRead fd path =>
      system.localOnlyFiles.lookup path = none ∧ system.localHandles.lookup fd = none
  | .create fd path _ _ _ _ =>
      isTemporaryEditorSwapFile (basename path) = false ∧
        system.localHandles.lookup fd = none
  | .map _ fileId => fileId ∉ system.deleted
  | .accept _ nodeId _ => nodeId ∉ system.deleted
  | .crash => False
  | _ => True

instance (system : FileSystem) : (label : Fuse.Label) → Decidable (system.Permits label)
  | .openWrite _ _ _ _ | .openRead _ _ | .create _ _ _ _ _ _ =>
      inferInstanceAs (Decidable (_ ∧ _))
  | .map _ _ | .accept _ _ _ => inferInstanceAs (Decidable (¬ _))
  | .crash => inferInstanceAs (Decidable False)
  | .call _ _ | .advance _ _ | .release _ | .edit _ _ | .enqueue _ _ _ | .enqueued _
  | .beginRead _ _ _ _ | .advanceRead _ | .upload _ | .store _ | .unmap _ =>
      inferInstanceAs (Decidable True)

/-- The bytes a descriptor of a temporary file reaches; an unlinked file is
out of reach. -/
def changeTemp (system : FileSystem) (tempPath : Str) (change : Bytes → Bytes) : FileSystem :=
  match system.temps.lookup tempPath with
  | some bytes => { system with temps := system.temps.insert tempPath (change bytes) }
  | none => system

/-- The steps on local-only files alone. -/
def localStep (system : FileSystem) : Label → Option FileSystem
  | .createLocal fd path suffix =>
      if system.ops.uploads.boot = .ready ∧ system.Unused fd ∧
          isTemporaryEditorSwapFile (basename path) ∧ system.FreshTemp (swapName suffix) then
        some { system with
          localOnlyFiles := system.localOnlyFiles.insert path (swapName suffix)
          localHandles := system.localHandles.insert fd (swapName suffix)
          temps := system.temps.insert (swapName suffix) [] }
      else none
  | .openLocal fd path =>
      match system.localOnlyFiles.lookup path with
      | some tempPath =>
          if system.Unused fd then
            some { system with localHandles := system.localHandles.insert fd tempPath }
          else none
      | none => none
  | .writeLocal fd data offset =>
      (system.localHandles.lookup fd).map fun tempPath =>
        system.changeTemp tempPath (·.overwrite offset data)
  | .truncateLocal path length =>
      (system.localOnlyFiles.lookup path).map fun tempPath =>
        system.changeTemp tempPath (·.resize length)
  | .releaseLocal fd =>
      (system.localHandles.lookup fd).map fun _ =>
        { system with localHandles := system.localHandles.erase fd }
  | .renameLocal old new =>
      if isTemporaryEditorSwapFile new then
        (system.localOnlyFiles.lookup old).map fun tempPath =>
          { system with
            localOnlyFiles := (system.localOnlyFiles.erase old).insert new tempPath }
      else none
  | _ => none

/-- The cache as the operation that resolved the path has seen it. -/
def told (system : FileSystem) (path fileId : Str) : State :=
  { system.ops with paths := system.ops.paths.insert path fileId }

/-- The steps between a lookup and the use of what it has told. -/
def resolvedStep (settings : Settings) (system : FileSystem) : Label → Option FileSystem
  | .look path =>
      if system.ops.Serves then
        (system.ops.resolvePathToDriveNodeId settings.rootId path).map fun fileId =>
          { system with resolved := (path, fileId) :: system.resolved }
      else none
  | .list parentPath parentId fileId =>
      match system.ops.nodes fileId with
      | some (folderId, name) =>
          if (parentPath, parentId) ∈ system.resolved ∧ folderId = parentId ∧
              fileId ∉ system.deleted then
            some { system with listed := (join parentPath name, fileId) :: system.listed }
          else none
      | none => none
  | .mapListed path fileId =>
      if system.ops.Serves ∧ (path, fileId) ∈ system.listed then
        some { system with
          ops := system.told path fileId
          listed := system.listed.erase (path, fileId) }
      else none
  | .looked path fileId =>
      if (path, fileId) ∈ system.resolved then
        some { system with resolved := system.resolved.erase (path, fileId) }
      else none
  | .openResolved fd path fileId isTruncate suffix =>
      if (path, fileId) ∈ system.resolved ∧ system.localHandles.lookup fd = none then
        (Fuse.step settings (system.told path fileId)
          (.openWrite fd path isTruncate suffix)).map fun ops =>
            { system with
              ops := { ops with paths := system.ops.paths }
              resolved := system.resolved.erase (path, fileId) }
      else none
  | _ => none

/-- `rename` copies a local-only file whose new path has an id. -/
def copyStep (system : FileSystem) (old new newId : Str) (second : Nat) : Option FileSystem :=
  match system.localOnlyFiles.lookup old, system.replacing with
  | some tempPath, none =>
      if system.ops.Serves ∧ isTemporaryEditorSwapFile new = false then
        (system.temps.lookup tempPath).map fun bytes =>
          { system with
            ops := system.ops.setFile (atomicName second) bytes
            replacing := some ⟨old, new, newId, atomicName second, .copied⟩ }
      else none
  | _, _ => none

/-- `rename` for a local-only file and a Drive file. -/
def replacingStep (settings : Settings) (system : FileSystem) : Label → Option FileSystem
  | .replace old new second =>
      (system.ops.resolvePathToDriveNodeId settings.rootId new).bind fun newId =>
        system.copyStep old new newId second
  | .replaceResolved old new newId second =>
      if (new, newId) ∈ system.resolved then
        (system.copyStep old new newId second).map fun next =>
          { next with resolved := system.resolved.erase (new, newId) }
      else none
  | .replaceEnqueue slot second =>
      match system.replacing with
      | some replacing@⟨_, _, _, _, .copied⟩ =>
          (Upload.step settings.maxRetries system.ops.uploads
            (.begin slot replacing.enqueueCall second)).map fun uploads =>
              { system with
                ops := { system.ops with uploads := uploads }
                replacing := some { replacing with point := .enqueueing slot } }
      | _ => none
  | .replaceEnqueued edit =>
      match system.replacing with
      | some replacing@⟨_, _, _, _, .enqueueing slot⟩ =>
          match system.ops.uploads.slots slot with
          | .enqueue _ _ _ _ => none
          | _ =>
              if system.Unused edit then
                some { system with
                  ops := { system.ops with
                    store := system.ops.store.setEdit edit (.invalidate replacing.newId) }
                  replacing := some { replacing with point := .invalidating edit } }
              else none
      | _ => none
  | .replaceEdit label =>
      match system.replacing, label with
      | some ⟨_, _, _, _, .invalidating edit⟩, .invalidate other _
      | some ⟨_, _, _, _, .invalidating edit⟩, .released other =>
          if other = edit then
            (Coherence.step settings.chunks system.ops.store label).map fun store =>
              { system with ops := { system.ops with store := store } }
          else none
      | _, _ => none
  | .replaceEnd gone =>
      match system.replacing with
      | some replacing@⟨_, _, _, _, .invalidating edit⟩ =>
          if system.ops.store.edits edit = .idle ∧
              system.mayTake settings.rootId replacing.old gone then
            some (system.finishReplacing settings.rootId replacing gone)
          else none
      | _ => none
  | _ => none

/-- `rename` on Drive. -/
def renameStep (settings : Settings) (system : FileSystem) (old new : Str) :
    Option FileSystem :=
  if system.ops.Serves ∧ system.ops.uploads.quotaExceeded = false ∧
      (system.localOnlyFiles.lookup old = none ∨ isTemporaryEditorSwapFile new = false ∧
        system.ops.resolvePathToDriveNodeId settings.rootId new = none) then
    match system.ops.resolvePathToDriveNodeId settings.rootId old,
        system.ops.resolvePathToDriveNodeId settings.rootId (dirname new) with
    | some fileId, some parentId =>
        if system.OnDrive fileId ∧ system.IsFolder settings.rootId parentId then
          let moved := { system with
            ops := { system.ops with
              nodes := Function.update system.ops.nodes fileId
                (some (parentId, basename new)) } }
          some ((moved.invalidatePath old).invalidatePath (dirname new))
        else none
    | _, _ => none
  else none

def mkdirStep (settings : Settings) (system : FileSystem) (path nodeId : Str)
    (now index : Nat) : Option FileSystem :=
  match system.ops.resolvePathToDriveNodeId settings.rootId (dirname path) with
  | some parentId =>
      if system.ops.Serves ∧ system.ops.uploads.quotaExceeded = false ∧
          system.IsFolder settings.rootId parentId ∧
          (system.ops.nodes nodeId).isNone then
        (Coherence.step settings.chunks system.ops.store
          (.load ⟨nodeId, basename path, true, 0, now⟩ index)).map fun store =>
            { system with
              ops := { system.ops with
                store := store
                nodes := Function.update system.ops.nodes nodeId
                  (some (parentId, basename path))
                paths := system.ops.paths.insert path nodeId } }
      else none
  | none => none

/-- The transition system. -/
def step (settings : Settings) (system : FileSystem) : Label → Option FileSystem
  | .base label =>
      if system.Permits label then
        (Fuse.step settings system.ops label).map fun ops => { system with ops := ops }
      else none
  | label@(.createLocal _ _ _) | label@(.openLocal _ _) | label@(.writeLocal _ _ _)
  | label@(.truncateLocal _ _) | label@(.releaseLocal _) | label@(.renameLocal _ _) =>
      system.localStep label
  | label@(.look _) | label@(.list _ _ _) | label@(.mapListed _ _) | label@(.looked _ _)
  | label@(.openResolved _ _ _ _ _) => system.resolvedStep settings label
  | label@(.replace _ _ _) | label@(.replaceResolved _ _ _ _) | label@(.replaceEnqueue _ _)
  | label@(.replaceEnqueued _) | label@(.replaceEdit _) | label@(.replaceEnd _) =>
      system.replacingStep settings label
  | .rename old new => system.renameStep settings old new
  | .unlink path gone =>
      if system.ops.Serves ∧ system.mayTake settings.rootId path gone then
        (system.unlink settings.rootId path gone).toOption
      else none
  | .mkdir path nodeId now index => system.mkdirStep settings path nodeId now index
  | .rmdir path gone =>
      if system.ops.Serves ∧ system.mayTake settings.rootId path gone then
        (system.deleteNode settings.rootId path gone).toOption
      else none
  | .invalidated path =>
      if system.ops.Serves ∧ path ∈ system.deleting then some (system.endDeletion path)
      else none
  | .crash =>
      some { system with
        ops := system.ops.crash
        localOnlyFiles := ∅
        localHandles := ∅
        replacing := none
        resolved := []
        listed := []
        deleting := [] }

/-! ## What a step can do -/

/-- The effect of every step. -/
inductive Stepped (settings : Settings) (system : FileSystem) : Label → FileSystem → Prop where
  | base {label ops} (permitted : system.Permits label)
      (moved : Fuse.Stepped settings system.ops label ops) :
      Stepped settings system (.base label) { system with ops := ops }
  | createLocal {fd path suffix} (ready : system.ops.uploads.boot = .ready)
      (unused : system.Unused fd) (isSwap : isTemporaryEditorSwapFile (basename path) = true)
      (fresh : system.FreshTemp (swapName suffix)) :
      Stepped settings system (.createLocal fd path suffix)
        { system with
          localOnlyFiles := system.localOnlyFiles.insert path (swapName suffix)
          localHandles := system.localHandles.insert fd (swapName suffix)
          temps := system.temps.insert (swapName suffix) [] }
  | openLocal {fd path tempPath} (found : system.localOnlyFiles.lookup path = some tempPath)
      (unused : system.Unused fd) :
      Stepped settings system (.openLocal fd path)
        { system with localHandles := system.localHandles.insert fd tempPath }
  | writeLocal {fd data offset tempPath}
      (opened : system.localHandles.lookup fd = some tempPath) :
      Stepped settings system (.writeLocal fd data offset)
        (system.changeTemp tempPath (·.overwrite offset data))
  | truncateLocal {path length tempPath}
      (found : system.localOnlyFiles.lookup path = some tempPath) :
      Stepped settings system (.truncateLocal path length)
        (system.changeTemp tempPath (·.resize length))
  | releaseLocal {fd tempPath} (opened : system.localHandles.lookup fd = some tempPath) :
      Stepped settings system (.releaseLocal fd)
        { system with localHandles := system.localHandles.erase fd }
  | renameLocal {old new tempPath} (isSwap : isTemporaryEditorSwapFile new = true)
      (found : system.localOnlyFiles.lookup old = some tempPath) :
      Stepped settings system (.renameLocal old new)
        { system with
          localOnlyFiles := (system.localOnlyFiles.erase old).insert new tempPath }
  | look {path fileId} (serves : system.ops.Serves)
      (found : system.ops.resolvePathToDriveNodeId settings.rootId path = some fileId) :
      Stepped settings system (.look path)
        { system with resolved := (path, fileId) :: system.resolved }
  | list {parentPath parentId fileId name} (told : (parentPath, parentId) ∈ system.resolved)
      (node : system.ops.nodes fileId = some (parentId, name))
      (there : fileId ∉ system.deleted) :
      Stepped settings system (.list parentPath parentId fileId)
        { system with listed := (join parentPath name, fileId) :: system.listed }
  | mapListed {path fileId} (serves : system.ops.Serves)
      (answered : (path, fileId) ∈ system.listed) :
      Stepped settings system (.mapListed path fileId)
        { system with
          ops := system.told path fileId
          listed := system.listed.erase (path, fileId) }
  | looked {path fileId} (told : (path, fileId) ∈ system.resolved) :
      Stepped settings system (.looked path fileId)
        { system with resolved := system.resolved.erase (path, fileId) }
  | openResolved {fd path fileId isTruncate suffix ops}
      (told : (path, fileId) ∈ system.resolved)
      (moved : Fuse.Stepped settings (system.told path fileId)
        (.openWrite fd path isTruncate suffix) ops) :
      Stepped settings system (.openResolved fd path fileId isTruncate suffix)
        { system with
          ops := { ops with paths := system.ops.paths }
          resolved := system.resolved.erase (path, fileId) }
  | replace {old new second tempPath newId bytes} (serves : system.ops.Serves)
      (notSwap : isTemporaryEditorSwapFile new = false)
      (found : system.localOnlyFiles.lookup old = some tempPath)
      (isNew : system.ops.resolvePathToDriveNodeId settings.rootId new = some newId)
      (alone : system.replacing = none) (file : system.temps.lookup tempPath = some bytes) :
      Stepped settings system (.replace old new second)
        { system with
          ops := system.ops.setFile (atomicName second) bytes
          replacing := some ⟨old, new, newId, atomicName second, .copied⟩ }
  | replaceResolved {old new newId second tempPath bytes} (serves : system.ops.Serves)
      (notSwap : isTemporaryEditorSwapFile new = false)
      (found : system.localOnlyFiles.lookup old = some tempPath)
      (told : (new, newId) ∈ system.resolved)
      (alone : system.replacing = none) (file : system.temps.lookup tempPath = some bytes) :
      Stepped settings system (.replaceResolved old new newId second)
        { system with
          ops := system.ops.setFile (atomicName second) bytes
          replacing := some ⟨old, new, newId, atomicName second, .copied⟩
          resolved := system.resolved.erase (new, newId) }
  | replaceEnqueue {slot second replacing uploads} (present : system.replacing = some replacing)
      (point : replacing.point = .copied)
      (begun : Upload.Stepped settings.maxRetries system.ops.uploads
        (.begin slot replacing.enqueueCall second) uploads) :
      Stepped settings system (.replaceEnqueue slot second)
        { system with
          ops := { system.ops with uploads := uploads }
          replacing := some { replacing with point := .enqueueing slot } }
  | replaceEnqueued {edit slot replacing} (present : system.replacing = some replacing)
      (point : replacing.point = .enqueueing slot)
      (returned : ∀ call serial content point,
        system.ops.uploads.slots slot ≠ .enqueue call serial content point)
      (unused : system.Unused edit) :
      Stepped settings system (.replaceEnqueued edit)
        { system with
          ops := { system.ops with
            store := system.ops.store.setEdit edit (.invalidate replacing.newId) }
          replacing := some { replacing with point := .invalidating edit } }
  | replaceEdit {label edit replacing store} (present : system.replacing = some replacing)
      (point : replacing.point = .invalidating edit)
      (moved : Coherence.Stepped settings.chunks system.ops.store label store) :
      Stepped settings system (.replaceEdit label)
        { system with ops := { system.ops with store := store } }
  | replaceEnd {edit replacing gone} (present : system.replacing = some replacing)
      (point : replacing.point = .invalidating edit)
      (taken : system.mayTake settings.rootId replacing.old gone = true) :
      Stepped settings system (.replaceEnd gone)
        (system.finishReplacing settings.rootId replacing gone)
  | rename {old new fileId parentId} (serves : system.ops.Serves)
      (found : system.ops.resolvePathToDriveNodeId settings.rootId old = some fileId)
      (parent : system.ops.resolvePathToDriveNodeId settings.rootId (dirname new) =
        some parentId)
      (onDrive : system.OnDrive fileId) (isFolder : system.IsFolder settings.rootId parentId) :
      Stepped settings system (.rename old new)
        (({ system with
          ops := { system.ops with
            nodes := Function.update system.ops.nodes fileId
              (some (parentId, basename new)) } }.invalidatePath old).invalidatePath
          (dirname new))
  | unlink {path gone next} (serves : system.ops.Serves)
      (taken : system.mayTake settings.rootId path gone = true)
      (removed : system.unlink settings.rootId path gone = .ok next) :
      Stepped settings system (.unlink path gone) next
  | mkdir {path nodeId now index parentId store} (serves : system.ops.Serves)
      (parent : system.ops.resolvePathToDriveNodeId settings.rootId (dirname path) =
        some parentId)
      (isFolder : system.IsFolder settings.rootId parentId)
      (issued : system.ops.nodes nodeId = none)
      (recorded : Coherence.Stepped settings.chunks system.ops.store
        (.load ⟨nodeId, basename path, true, 0, now⟩ index) store) :
      Stepped settings system (.mkdir path nodeId now index)
        { system with
          ops := { system.ops with
            store := store
            nodes := Function.update system.ops.nodes nodeId (some (parentId, basename path))
            paths := system.ops.paths.insert path nodeId } }
  | rmdir {path gone next} (serves : system.ops.Serves)
      (taken : system.mayTake settings.rootId path gone = true)
      (removed : system.deleteNode settings.rootId path gone = .ok next) :
      Stepped settings system (.rmdir path gone) next
  | invalidated {path} (serves : system.ops.Serves) (member : path ∈ system.deleting) :
      Stepped settings system (.invalidated path) (system.endDeletion path)
  | crash :
      Stepped settings system .crash
        { system with
          ops := system.ops.crash
          localOnlyFiles := ∅
          localHandles := ∅
          replacing := none
          resolved := []
          listed := []
          deleting := [] }

section Steps

variable {settings : Settings} {system next : FileSystem}

theorem stepped_of_localStep {label : Label} (taken : system.localStep label = some next) :
    Stepped settings system label next := by
  cases label <;> simp only [localStep, reduceCtorEq] at taken
  case createLocal fd path suffix =>
    split at taken <;> cases taken
    rename_i enabled
    exact .createLocal enabled.1 enabled.2.1 enabled.2.2.1 enabled.2.2.2
  case openLocal fd path =>
    split at taken
    · split at taken <;> cases taken
      exact .openLocal ‹_› ‹_›
    · cases taken
  case writeLocal fd data offset =>
    obtain ⟨tempPath, opened, rfl⟩ := Option.map_eq_some_iff.mp taken
    exact .writeLocal opened
  case truncateLocal path length =>
    obtain ⟨tempPath, found, rfl⟩ := Option.map_eq_some_iff.mp taken
    exact .truncateLocal found
  case releaseLocal fd =>
    obtain ⟨tempPath, opened, rfl⟩ := Option.map_eq_some_iff.mp taken
    exact .releaseLocal opened
  case renameLocal old new =>
    split at taken
    · obtain ⟨tempPath, found, rfl⟩ := Option.map_eq_some_iff.mp taken
      exact .renameLocal ‹_› found
    · cases taken

theorem stepped_of_resolvedStep {label : Label}
    (taken : system.resolvedStep settings label = some next) :
    Stepped settings system label next := by
  cases label <;> simp only [resolvedStep, reduceCtorEq] at taken
  case look path =>
    split at taken
    · obtain ⟨fileId, found, rfl⟩ := Option.map_eq_some_iff.mp taken
      exact .look ‹_› found
    · cases taken
  case list parentPath parentId fileId =>
    split at taken
    · split at taken
      · rename_i node enabled
        obtain ⟨told, rfl, there⟩ := enabled
        cases taken
        exact .list told node there
      · cases taken
    · cases taken
  case mapListed path fileId =>
    split at taken <;> cases taken
    rename_i enabled
    exact .mapListed enabled.1 enabled.2
  case looked path fileId =>
    split at taken <;> cases taken
    exact .looked ‹_›
  case openResolved fd path fileId isTruncate suffix =>
    split at taken
    · rename_i enabled
      obtain ⟨ops, moved, rfl⟩ := Option.map_eq_some_iff.mp taken
      exact .openResolved enabled.1 (Fuse.stepped_of_step moved)
    · cases taken

theorem copyStep_eq_some {old new newId : Str} {second : Nat}
    (taken : system.copyStep old new newId second = some next) :
    ∃ tempPath bytes, system.ops.Serves ∧ isTemporaryEditorSwapFile new = false ∧
      system.localOnlyFiles.lookup old = some tempPath ∧ system.replacing = none ∧
      system.temps.lookup tempPath = some bytes ∧
      next = { system with
        ops := system.ops.setFile (atomicName second) bytes
        replacing := some ⟨old, new, newId, atomicName second, .copied⟩ } := by
  unfold copyStep at taken
  split at taken
  · split at taken
    · rename_i enabled
      obtain ⟨bytes, file, rfl⟩ := Option.map_eq_some_iff.mp taken
      exact ⟨_, bytes, enabled.1, enabled.2, ‹_›, ‹_›, file, rfl⟩
    · cases taken
  · cases taken

theorem stepped_of_replacingStep {label : Label}
    (taken : system.replacingStep settings label = some next) :
    Stepped settings system label next := by
  cases label <;> simp only [replacingStep, reduceCtorEq] at taken
  case replace old new second =>
    obtain ⟨newId, isNew, copied⟩ := Option.bind_eq_some_iff.mp taken
    obtain ⟨tempPath, bytes, serves, notSwap, found, alone, file, rfl⟩ :=
      copyStep_eq_some copied
    exact .replace serves notSwap found isNew alone file
  case replaceResolved old new newId second =>
    split at taken
    · obtain ⟨copy, copied, rfl⟩ := Option.map_eq_some_iff.mp taken
      obtain ⟨tempPath, bytes, serves, notSwap, found, alone, file, rfl⟩ :=
        copyStep_eq_some copied
      exact .replaceResolved serves notSwap found ‹_› alone file
    · cases taken
  case replaceEnqueue slot second =>
    split at taken
    · obtain ⟨uploads, begun, rfl⟩ := Option.map_eq_some_iff.mp taken
      exact .replaceEnqueue ‹_› rfl (Upload.stepped_of_step begun)
    · cases taken
  case replaceEnqueued edit =>
    split at taken
    · split at taken
      · cases taken
      · rename_i returned
        split at taken <;> cases taken
        exact .replaceEnqueued ‹_› rfl returned ‹_›
    · cases taken
  case replaceEdit label =>
    split at taken
    · split at taken
      · obtain ⟨store, moved, rfl⟩ := Option.map_eq_some_iff.mp taken
        exact .replaceEdit ‹_› rfl (Coherence.stepped_of_step moved)
      · cases taken
    · split at taken
      · obtain ⟨store, moved, rfl⟩ := Option.map_eq_some_iff.mp taken
        exact .replaceEdit ‹_› rfl (Coherence.stepped_of_step moved)
      · cases taken
    · cases taken
  case replaceEnd gone =>
    split at taken
    · split at taken <;> cases taken
      rename_i enabled
      exact .replaceEnd ‹_› rfl enabled.2
    · cases taken

theorem stepped_of_step {label : Label} (taken : system.step settings label = some next) :
    Stepped settings system label next := by
  cases label <;> simp only [step] at taken
  case base label =>
    split at taken
    · obtain ⟨ops, moved, rfl⟩ := Option.map_eq_some_iff.mp taken
      exact .base ‹_› (Fuse.stepped_of_step moved)
    · cases taken
  case rename old new =>
    unfold renameStep at taken
    split at taken
    · rename_i enabled
      split at taken
      · split at taken <;> cases taken
        rename_i onDrive
        exact .rename enabled.1 ‹_› ‹_› onDrive.1 onDrive.2
      · cases taken
    · cases taken
  case unlink path gone =>
    split at taken
    · rename_i enabled
      cases removed : system.unlink settings.rootId path gone with
      | error errno => simp [removed, Except.toOption] at taken
      | ok unlinked =>
          rw [removed] at taken
          cases taken
          exact .unlink enabled.1 enabled.2 removed
    · cases taken
  case mkdir path nodeId now index =>
    unfold mkdirStep at taken
    split at taken
    · split at taken
      · rename_i enabled
        obtain ⟨store, recorded, rfl⟩ := Option.map_eq_some_iff.mp taken
        exact .mkdir enabled.1 ‹_› enabled.2.2.1 (Option.isNone_iff_eq_none.mp enabled.2.2.2)
          (Coherence.stepped_of_step recorded)
      · cases taken
    · cases taken
  case rmdir path gone =>
    split at taken
    · rename_i enabled
      cases removed : system.deleteNode settings.rootId path gone with
      | error errno => simp [removed, Except.toOption] at taken
      | ok later =>
          rw [removed] at taken
          cases taken
          exact .rmdir enabled.1 enabled.2 removed
    · cases taken
  case invalidated path =>
    split at taken <;> cases taken
    rename_i enabled
    exact .invalidated enabled.1 enabled.2
  case crash =>
    cases taken
    exact .crash
  all_goals first
    | exact stepped_of_localStep taken
    | exact stepped_of_resolvedStep taken
    | exact stepped_of_replacingStep taken

theorem deleteNode_eq_ok {rootId path : Str} {gone : List Str}
    (removed : system.deleteNode rootId path gone = .ok next) :
    ∃ fileId, system.ops.resolvePathToDriveNodeId rootId path = some fileId ∧
      system.OnDrive fileId ∧ next = system.deletedOnDrive path fileId gone := by
  unfold deleteNode at removed
  split at removed
  · cases removed
  · rename_i fileId found
    split at removed <;> cases removed
    exact ⟨fileId, found, ‹_›, rfl⟩

/-- `unlink` removes a local-only file, or a node of Drive. -/
theorem unlink_eq_ok {rootId path : Str} {gone : List Str}
    (removed : system.unlink rootId path gone = .ok next) :
    (∃ tempPath, system.localOnlyFiles.lookup path = some tempPath ∧
      next = { system with
        localOnlyFiles := system.localOnlyFiles.erase path
        temps := system.temps.erase tempPath }) ∨
      system.localOnlyFiles.lookup path = none ∧
        system.deleteNode rootId path gone = .ok next := by
  unfold unlink at removed
  split at removed
  · cases removed
    exact Or.inl ⟨_, ‹_›, rfl⟩
  · split at removed
    · cases removed
    · exact Or.inr ⟨‹_›, removed⟩

/-- What each part of a deletion keeps, `unlink` with nothing in between keeps. -/
theorem unlinkAtOnce_kept {rootId path : Str} {gone : List Str} {Kept : FileSystem → Prop}
    (unlinked : ∀ middle, system.unlink rootId path gone = .ok middle → Kept middle)
    (ended : ∀ middle, Kept middle → Kept (middle.endDeletion path))
    (removed : system.unlinkAtOnce rootId path gone = .ok next) : Kept next := by
  unfold unlinkAtOnce at removed
  cases success : system.unlink rootId path gone with
  | error errno =>
      rw [success] at removed
      cases removed
  | ok middle =>
      rw [success] at removed
      cases removed
      split
      · exact unlinked middle success
      · exact ended middle (unlinked middle success)

theorem finishReplacing_kept {rootId : Str} {replacing : Replacing} {gone : List Str}
    {Kept : FileSystem → Prop} (holds : Kept system)
    (unlinked : ∀ middle, system.unlink rootId replacing.old gone = .ok middle → Kept middle)
    (ended : ∀ middle, Kept middle → Kept (middle.endDeletion replacing.old))
    (invalidated : ∀ middle, Kept middle → Kept (middle.invalidatePath replacing.new))
    (returned : ∀ middle : FileSystem, Kept middle → Kept { middle with replacing := none }) :
    Kept (system.finishReplacing rootId replacing gone) := by
  unfold finishReplacing
  split
  · rename_i removed
    have deleted := unlinkAtOnce_kept unlinked ended removed
    exact returned _ (invalidated _ deleted)
  · exact returned _ holds

/-- The end of `rename` changes no upload, no handle and no release. -/
theorem finishReplacing_ops (system : FileSystem) (rootId : Str) (replacing : Replacing)
    (gone : List Str) :
    (system.finishReplacing rootId replacing gone).ops.uploads = system.ops.uploads ∧
      (system.finishReplacing rootId replacing gone).ops.writers = system.ops.writers ∧
      (system.finishReplacing rootId replacing gone).ops.closing = system.ops.closing := by
  let Kept (next : FileSystem) : Prop := next.ops.uploads = system.ops.uploads ∧
    next.ops.writers = system.ops.writers ∧ next.ops.closing = system.ops.closing
  have kept : Kept system := ⟨rfl, rfl, rfl⟩
  refine finishReplacing_kept kept (fun middle success => ?_) (fun _ => id) (fun _ => id)
    (fun _ => id)
  rcases unlink_eq_ok success with ⟨tempPath, -, rfl⟩ | ⟨-, deleted⟩
  · exact ⟨rfl, rfl, rfl⟩
  · obtain ⟨fileId, -, -, rfl⟩ := deleteNode_eq_ok deleted
    exact ⟨rfl, rfl, rfl⟩

theorem unlinkAtOnce_deleting {rootId path : Str} {gone : List Str}
    (removed : system.unlinkAtOnce rootId path gone = .ok next) :
    next.deleting = system.deleting := by
  unfold unlinkAtOnce at removed
  cases success : system.unlink rootId path gone with
  | error errno =>
      rw [success] at removed
      cases removed
  | ok middle =>
      rw [success] at removed
      cases removed
      rcases unlink_eq_ok success with ⟨tempPath, found, rfl⟩ | ⟨notLocal, deleted⟩
      · rw [found]
        rfl
      · obtain ⟨fileId, -, -, rfl⟩ := deleteNode_eq_ok deleted
        rw [notLocal]
        simp [endDeletion, deletedOnDrive]

theorem finishReplacing_deleting (system : FileSystem) (rootId : Str) (replacing : Replacing)
    (gone : List Str) :
    (system.finishReplacing rootId replacing gone).deleting = system.deleting := by
  unfold finishReplacing
  split
  · rename_i removed
    have kept := unlinkAtOnce_deleting removed
    exact kept
  · rfl

theorem finishReplacing_replacing (system : FileSystem) (rootId : Str) (replacing : Replacing)
    (gone : List Str) : (system.finishReplacing rootId replacing gone).replacing = none := by
  unfold finishReplacing
  split <;> rfl

end Steps

/-! ## The programs of the operations -/

section Programs

open Program (play)

/-- An id as the operations take it: the empty one is none. -/
def nodeId? (fileId : Str) : Option NodeId :=
  if nonempty : fileId ≠ [] then some ⟨fileId, nonempty⟩ else none

/-- The state answers the requests of `unlink` and `rmdir`, and leaves the
others to somebody else.  Listings are steps of their own, so none is left to
make. -/
def answer (gone : List Str) (others : (request : Request) → request.Answer)
    (system : FileSystem) : (request : Request) → request.Answer × FileSystem
  | .isLocalOnly path => ((system.localOnlyFiles.lookup path).isSome, system)
  | .dropLocalOnly path =>
      ((), { system with
        localOnlyFiles := system.localOnlyFiles.erase path
        temps := match system.localOnlyFiles.lookup path with
          | some tempPath => system.temps.erase tempPath
          | none => system.temps })
  | .isQuotaExceeded => (system.ops.uploads.quotaExceeded, system)
  | .resolvePathToNodeId path => ((system.ops.paths.lookup path).bind nodeId?, system)
  | .isDirectoryChildrenLoaded _ => (true, system)
  | .deleteFile fileId =>
      if system.OnDrive fileId.1 then
        (none, { system with deleted := insert fileId.1 (gone.toFinset ∪ system.deleted) })
      else (some .enoent, system)
  | .invalidatePath path => ((), system.invalidatePath path)
  | request => (others request, system)

/-- No file has the empty id. -/
def ProperIds (system : FileSystem) : Prop :=
  ∀ path fileId, system.ops.paths.lookup path = some fileId → fileId ≠ []

variable {others : (request : Request) → request.Answer} {gone : List Str}
  {system : FileSystem} {path : Str}

theorem nodeId?_eq_some {fileId : Str} (nonempty : fileId ≠ []) :
    nodeId? fileId = some ⟨fileId, nonempty⟩ := dif_pos nonempty

theorem play_resolvePath (rootId : NodeId) (isPath : IsPath path) :
    play (answer gone others) system (resolvePath rootId path) =
      (.ok ((system.ops.resolvePathToDriveNodeId rootId.1 path).bind nodeId?), system) := by
  induction isPath with
  | root =>
      have isRoot : nodeId? rootId.1 = some rootId := nodeId?_eq_some rootId.2
      rw [State.resolvePathToDriveNodeId, if_pos rfl, Option.bind_some, isRoot]
      rfl
  | @child parent name isParent proper induction =>
      rw [resolvePath_join rootId isParent proper, Program.play_perform,
        State.resolvePathToDriveNodeId, if_neg (isParent.join_ne_root proper)]
      dsimp only [answer]
      cases (system.ops.paths.lookup (join parent name)).bind nodeId? with
      | some cachedId => rfl
      | none =>
          rw [Program.play_bind, induction]
          -- a directory that is found is loaded
          cases (system.ops.resolvePathToDriveNodeId rootId.1 parent).bind nodeId? <;> rfl

/-- `rmdir` with nothing between its requests. -/
theorem play_deleteNode (rootId : NodeId) (isPath : IsPath path) (proper : system.ProperIds) :
    play (answer gone others) system (Fuse.deleteNode rootId path) =
      match system.deleteNode rootId.1 path gone with
      | .ok next => (.ok (), next.endDeletion path)
      | .error errno => (.error errno, system) := by
  rw [Fuse.deleteNode, Program.play_bind, play_resolvePath rootId isPath, deleteNode]
  cases found : system.ops.resolvePathToDriveNodeId rootId.1 path with
  | none => rfl
  | some fileId =>
      have nonempty : fileId ≠ [] := by
        unfold State.resolvePathToDriveNodeId at found
        split at found
        · cases found
          exact rootId.2
        · exact proper path fileId found
      rw [Option.bind_some, nodeId?_eq_some nonempty]
      dsimp only
      rw [Program.play_perform]
      dsimp only [answer]
      by_cases onDrive : system.OnDrive fileId
      · rw [if_pos onDrive, if_pos onDrive]
        have ended : (system.deletedOnDrive path fileId gone).endDeletion path =
            { system with
              deleted := insert fileId (gone.toFinset ∪ system.deleted) }.invalidatePath path := by
          simp [endDeletion, FileSystem.invalidatePath, deletedOnDrive]
        dsimp only
        rw [ended]
        rfl
      · rw [if_neg onDrive, if_neg onDrive]
        rfl

/-- `unlink` with nothing between its requests. -/
theorem play_unlink (rootId : NodeId) (isPath : IsPath path) (proper : system.ProperIds) :
    play (answer gone others) system (Fuse.unlink rootId path) =
      match system.unlinkAtOnce rootId.1 path gone with
      | .ok next => (.ok (), next)
      | .error errno => (.error errno, system) := by
  have asked : answer gone others system (.isLocalOnly path) =
      ((system.localOnlyFiles.lookup path).isSome, system) := rfl
  rw [Fuse.unlink, Program.play_perform, asked, unlinkAtOnce, unlink]
  cases found : system.localOnlyFiles.lookup path with
  | some tempPath =>
      have dropped : answer gone others system (.dropLocalOnly path) =
          ((), { system with
            localOnlyFiles := system.localOnlyFiles.erase path
            temps := system.temps.erase tempPath }) := by
        simp only [answer, found]
      change (Except.ok (answer gone others system (.dropLocalOnly path)).1,
        (answer gone others system (.dropLocalOnly path)).2) = _
      rw [dropped]
      rfl
  | none =>
      have quota : answer gone others system .isQuotaExceeded =
          (system.ops.uploads.quotaExceeded, system) := rfl
      dsimp only [Option.isSome_none]
      rw [if_neg Bool.false_ne_true, Program.play_perform, quota]
      cases system.ops.uploads.quotaExceeded with
      | true => rfl
      | false =>
          dsimp only
          rw [if_neg Bool.false_ne_true, if_neg Bool.false_ne_true,
            play_deleteNode rootId isPath proper]
          cases system.deleteNode rootId.1 path gone <;> rfl

end Programs

/-- A mount with nothing but what Drive has. -/
def mounted (ops : State) : FileSystem :=
  ⟨ops, ∅, ∅, ∅, none, ∅, [], [], []⟩

/-- A mount over an empty journal directory, with any saved queue and any
content of Drive. -/
structure Started (system : FileSystem) : Prop where
  mounted : Fuse.Mounted system.ops
  replacing : system.replacing = none

theorem started_mounted (content : Bytes) : Started (mounted (Fuse.mount content)) :=
  ⟨Mounted.mount content, rfl⟩

end FileSystem

end FuseDrive.Fuse
