import FuseDrive.Program
import FuseDrive.Fuse.DriveTree
import Mathlib.Logic.Function.Basic

/-!
# The operations on paths

`resolve_path_to_drive_node_id` and the operations that create, move and delete
names, as programs over the accesses they make to the cache, to Drive and to
`local_only_files`.  Metadata records, journal files and handles do not decide
what a path resolves to and are left out.

`known`, `loading` and `placed` are histories: what the mount has seen of Drive,
with its own operations applied, the listing at work, and the path below which
the children of a directory were mapped.  The second argument of `listChildren`
and the arguments of `newLocalId` are there for them.
-/

namespace FuseDrive.Fuse

inductive Errno where
  | enoent
  | enospc
  | eio
  | eacces
  /-- An exception that is no `FuseOSError`. -/
  | exception
deriving DecidableEq

inductive Request where
  | isLocalOnly (path : Str)
  | addLocalOnly (path : Str)
  | dropLocalOnly (path : Str)
  | copyAndEnqueue (path : Str) (fileId : NodeId)
  | isQuotaExceeded
  | resolvePathToNodeId (path : Str)
  | mapPathToNodeId (path : Str) (fileId : NodeId)
  | invalidatePath (path : Str)
  | getChildrenPaths (path : Str)
  | isDirectoryChildrenLoaded (dirId : NodeId)
  | markDirectoryChildrenLoaded (dirId : NodeId)
  | listChildren (parentId : NodeId) (parentPath : Str)
  | createFolder (parentId : NodeId) (name : Str)
  | newLocalId (parentId : NodeId) (name : Str)
  | updateFile (fileId addParents : NodeId) (removeParents : Option NodeId) (name : Str)
  | deleteFile (fileId : NodeId)

/-- `none` for a listing or a folder, `false` for a copy or an update, and an
error number for a deletion stand for exceptions. -/
@[reducible] def Request.Answer : Request → Type
  | .isLocalOnly _ => Bool
  | .addLocalOnly _ => Unit
  | .dropLocalOnly _ => Unit
  | .copyAndEnqueue _ _ => Bool
  | .isQuotaExceeded => Bool
  | .resolvePathToNodeId _ => Option NodeId
  | .mapPathToNodeId _ _ => Unit
  | .invalidatePath _ => Unit
  | .getChildrenPaths _ => List Str
  | .isDirectoryChildrenLoaded _ => Bool
  | .markDirectoryChildrenLoaded _ => Unit
  | .listChildren _ _ => Option (List Item)
  | .createFolder _ _ => Option NodeId
  | .newLocalId _ _ => NodeId
  | .updateFile _ _ _ _ => Bool
  | .deleteFile _ => Option Errno

abbrev Op (α : Type) := Program Request Request.Answer Errno α

open Program (perform raise)

/-! ## Swap files -/

/-- `$` also matches before a line break at the end. -/
def withoutFinalNewline (name : Str) : Str :=
  if name.getLast? = some '\n' then name.dropLast else name

/-- The pattern `.*suffix$`, where `.` is no line break. -/
def matchesSuffix (suffix name : Str) : Bool :=
  suffix.isSuffixOf (withoutFinalNewline name) && !(withoutFinalNewline name).contains '\n'

def isTemporaryEditorSwapFile (name : Str) : Bool :=
  matchesSuffix ['.', 's', 'w', 'p'] name ||
    matchesSuffix ['.', 'k', 'a', 't', 'e', '-', 's', 'w', 'p'] name ||
    matchesSuffix ['~'] name ||
    ['.', '~', 'l', 'o', 'c', 'k'].isPrefixOf name

/-! ## Resolution -/

/-- The loop of `_load_children`. -/
def mapChildren (parentPath : Str) : List Item → Op Unit
  | [] => pure ()
  | item :: items => do
      perform (Request.mapPathToNodeId (join parentPath item.name) item.fileId)
      mapChildren parentPath items

def loadChildren (parentId : NodeId) (parentPath : Str) : Op Unit := do
  let loaded ← perform (Request.isDirectoryChildrenLoaded parentId)
  if loaded then pure ()
  else
    match ← perform (Request.listChildren parentId parentPath) with
    | none => raise .exception
    | some items =>
        mapChildren parentPath items
        perform (Request.markDirectoryChildrenLoaded parentId)

/-- What a resolution does once that of the directory has found it. -/
def findBelow (parentId : NodeId) (path : Str) : Op (Option NodeId) := do
  let loaded ← perform (Request.isDirectoryChildrenLoaded parentId)
  if loaded then pure none
  else
    loadChildren parentId (dirname path)
    perform (Request.resolvePathToNodeId path)

/-- The recursion limit is never met by an absolute path. -/
def resolveWithin (rootId : NodeId) : Nat → Str → Op (Option NodeId)
  | 0, _ => raise .exception
  | limit + 1, path =>
      if path = ['/'] then pure (some rootId)
      else do
        match ← perform (Request.resolvePathToNodeId path) with
        | some cachedId => pure (some cachedId)
        | none =>
            match ← resolveWithin rootId limit (dirname path) with
            | none => pure none
            | some parentId => findBelow parentId path

def resolvePath (rootId : NodeId) (path : Str) : Op (Option NodeId) :=
  resolveWithin rootId path.length path

theorem resolveWithin_eq (rootId : NodeId) {path : Str} (isPath : IsPath path)
    {limit other : Nat} (enough : path.length ≤ limit) (otherEnough : path.length ≤ other) :
    resolveWithin rootId limit path = resolveWithin rootId other path := by
  induction isPath generalizing limit other with
  | root =>
      obtain ⟨limit, rfl⟩ := Nat.exists_eq_add_one.mpr enough
      obtain ⟨other, rfl⟩ := Nat.exists_eq_add_one.mpr otherEnough
      rfl
  | child parent proper induction =>
      have longer := parent.length_lt_join proper
      obtain ⟨limit, rfl⟩ := Nat.exists_eq_add_one.mpr (by omega : 0 < limit)
      obtain ⟨other, rfl⟩ := Nat.exists_eq_add_one.mpr (by omega : 0 < other)
      rw [resolveWithin, resolveWithin, parent.dirname_join proper,
        induction (by omega) (by omega : _ ≤ other)]

theorem resolvePath_join (rootId : NodeId) {parent name : Str} (isPath : IsPath parent)
    (proper : ProperName name) :
    resolvePath rootId (join parent name) = (do
      match ← perform (Request.resolvePathToNodeId (join parent name)) with
      | some cachedId => pure (some cachedId)
      | none =>
          match ← resolvePath rootId parent with
          | none => pure none
          | some parentId => findBelow parentId (join parent name)) := by
  have longer := isPath.length_lt_join proper
  obtain ⟨limit, same⟩ := Nat.exists_eq_add_one.mpr (Nat.zero_lt_of_lt longer)
  unfold resolvePath
  rw [same, resolveWithin, if_neg (isPath.join_ne_root proper), isPath.dirname_join proper,
    resolveWithin_eq rootId isPath (by omega : parent.length ≤ limit) (Nat.le_refl _)]
  refine congrArg (Program.bind _) (funext fun cachedId => ?_)
  cases cachedId with
  | some cachedId => rfl
  | none =>
      refine congrArg (Program.bind _) (funext fun parentId => ?_)
      cases parentId with
      | none => rfl
      | some parentId => rfl

/-! ## Operations -/

section Operations

variable (rootId : NodeId)

def readdir (path : Str) : Op (List Str) := do
  match ← resolvePath rootId path with
  | none => raise .enoent
  | some fileId =>
      loadChildren fileId path
      let children ← perform (Request.getChildrenPaths path)
      let entries := ['.'] :: ['.', '.'] :: children.map basename
      if path = ['/'] ∧ ['s', 't', 'a', 't', 's'] ∉ entries then
        pure (entries ++ [['s', 't', 'a', 't', 's']])
      else pure entries

def createFile (path : Str) : Op Unit := do
  if isTemporaryEditorSwapFile (basename path) then perform (Request.addLocalOnly path)
  else
    let exceeded ← perform Request.isQuotaExceeded
    if exceeded then raise .enospc
    else
      match ← resolvePath rootId (dirname path) with
      | none => raise .enoent
      | some parentId =>
          let fakeId ← perform (Request.newLocalId parentId (basename path))
          perform (Request.mapPathToNodeId path fakeId)

def mkdir (path : Str) : Op Unit := do
  let exceeded ← perform Request.isQuotaExceeded
  if exceeded then raise .enospc
  else
    match ← resolvePath rootId (dirname path) with
    | none => raise .enoent
    | some parentId =>
        match ← perform (Request.createFolder parentId (basename path)) with
        | none => raise .eio
        | some fileId => perform (Request.mapPathToNodeId path fileId)

/-- What `unlink` and `rmdir` share. -/
def deleteNode (path : Str) : Op Unit := do
  match ← resolvePath rootId path with
  | none => raise .enoent
  | some fileId =>
      match ← perform (Request.deleteFile fileId) with
      | some errno => raise errno
      | none => perform (Request.invalidatePath path)

def rmdir (path : Str) : Op Unit := deleteNode rootId path

def unlink (path : Str) : Op Unit := do
  let isLocal ← perform (Request.isLocalOnly path)
  if isLocal then perform (Request.dropLocalOnly path)
  else
    let exceeded ← perform Request.isQuotaExceeded
    if exceeded then raise .enospc
    else deleteNode rootId path

/-- The part of `rename` that asks Drive. -/
def renameOnDrive (old new : Str) : Op Unit := do
  let exceeded ← perform Request.isQuotaExceeded
  if exceeded then raise .enospc
  else
    let fileId ← resolvePath rootId old
    let newParentId ← resolvePath rootId (dirname new)
    match fileId, newParentId with
    | some fileId, some newParentId =>
        let oldParentId ← resolvePath rootId (dirname old)
        let updated ← perform (Request.updateFile fileId newParentId oldParentId (basename new))
        if updated then
          perform (Request.invalidatePath old)
          perform (Request.invalidatePath (dirname new))
        else raise .exception
    | _, _ => raise .enoent

/-- The part of `rename` that saves a local-only file to the Drive file
`newId`. -/
def renameOntoDrive (old new : Str) (newId : NodeId) : Op Unit := do
  let copied ← perform (Request.copyAndEnqueue old newId)
  if copied then
    unlink rootId old
    perform (Request.invalidatePath new)
  else raise .exception

def rename (old new : Str) : Op Unit := do
  let isLocal ← perform (Request.isLocalOnly old)
  if isLocal then
    if isTemporaryEditorSwapFile new then
      perform (Request.dropLocalOnly old)
      perform (Request.addLocalOnly new)
    else
      match ← resolvePath rootId new with
      | some newId => renameOntoDrive rootId old new newId
      | none => renameOnDrive rootId old new
  else renameOnDrive rootId old new

end Operations

/-! ## The world of the operations -/

/-- A listing at work: its directory, the path it is made for, and the paths
mapped so far. -/
structure Loading where
  dirId : NodeId
  path : Str
  mapped : List Str

structure World where
  cache : PathCache
  drive : DriveTree
  localOnlyFiles : List Str
  known : DriveTree
  loading : Option Loading
  placed : NodeId → Option Str

namespace World

/-- Where the children of each directory are once an id was mapped at a path: no
longer below the directory of the path if another child of that name was. -/
def displace (world : World) (path : Str) (fileId : NodeId) (dirId : NodeId) : Option Str :=
  if world.placed dirId = some (dirname path) ∧
      world.known.child dirId (basename path) ∉ [none, some fileId] then none
  else world.placed dirId

/-- Where they are once a path was invalidated.  The root is always there. -/
def forget (world : World) (path : Str) (dirId : NodeId) : Option Str :=
  if path ≠ ['/'] ∧ world.placed dirId = some path then none else world.placed dirId

/-- Where they are once a directory was marked as loaded. -/
def place (world : World) (dirId : NodeId) : NodeId → Option Str :=
  match world.loading with
  | some load => Function.update world.placed dirId (some load.path)
  | none => world.placed

end World

/-- What the code does not decide: whether and how an access fails, what a full
map evicts, and a new id. -/
structure Choice where
  fails : Option Errno
  victim : Option Str
  dirVictim : Option NodeId
  newId : NodeId

/-- The answer to a request and the world after it. -/
def serve (settings : CacheSettings) (choice : Choice) (world : World) :
    (request : Request) → request.Answer × World
  | .isLocalOnly path => (decide (path ∈ world.localOnlyFiles), world)
  | .addLocalOnly path =>
      ((), { world with localOnlyFiles := world.localOnlyFiles.insert path })
  | .dropLocalOnly path =>
      ((), { world with localOnlyFiles := world.localOnlyFiles.filter (· ≠ path) })
  | .copyAndEnqueue _ _ => (choice.fails.isNone, world)
  | .isQuotaExceeded => (choice.fails.isSome, world)
  | .resolvePathToNodeId path =>
      (world.cache.resolvePathToNodeId path, { world with loading := none })
  | .mapPathToNodeId path fileId =>
      ((), { world with
        cache := world.cache.mapPathToNodeId settings choice.victim path fileId
        loading := world.loading.map fun load => { load with mapped := path :: load.mapped }
        placed := world.displace path fileId })
  | .invalidatePath path =>
      ((), { world with
        cache := world.cache.invalidatePath path
        placed := world.forget path })
  | .getChildrenPaths path =>
      (world.cache.getChildrenPaths path, { world with loading := none })
  | .isDirectoryChildrenLoaded dirId =>
      (world.cache.isDirectoryChildrenLoaded dirId, world)
  | .markDirectoryChildrenLoaded dirId =>
      ((), { world with
        cache := world.cache.markDirectoryChildrenLoaded settings choice.dirVictim dirId
        placed := world.place dirId })
  | .listChildren parentId parentPath =>
      if choice.fails.isSome then (none, world)
      else
        let items := world.drive.listChildren parentId
        (some items, { world with
          known := world.known.relist parentId items
          loading := some ⟨parentId, parentPath, []⟩ })
  | .createFolder parentId name =>
      if choice.fails.isSome then (none, world)
      else
        (some choice.newId, { world with
          drive := world.drive.create parentId name choice.newId
          known := world.known.create parentId name choice.newId })
  | .newLocalId parentId name =>
      (choice.newId, { world with known := world.known.create parentId name choice.newId })
  | .updateFile fileId addParents _ name =>
      if choice.fails.isSome then (false, world)
      else
        (true, { world with
          drive := world.drive.move fileId addParents name
          known := world.known.move fileId addParents name })
  | .deleteFile fileId =>
      match choice.fails with
      | some errno => (some errno, world)
      | none =>
          (none, { world with
            drive := world.drive.delete fileId
            known := world.known.delete fileId })

section Listings

variable {settings : CacheSettings} {choice : Choice} {world : World} {dirId : NodeId} {path : Str}

theorem serve_listChildren_failed {errno : Errno} (fails : choice.fails = some errno) :
    serve settings choice world (.listChildren dirId path) = (none, world) := by
  simp [serve, fails]

theorem serve_listChildren (fails : choice.fails = none) :
    serve settings choice world (.listChildren dirId path) =
      (some (world.drive.listChildren dirId), { world with
        known := world.known.relist dirId (world.drive.listChildren dirId)
        loading := some ⟨dirId, path, []⟩ }) := by
  simp [serve, fails]

end Listings

/-- The maps evict an entry exactly when they are full. -/
def Choice.Valid (settings : CacheSettings) (choice : Choice) (world : World) :
    Request → Prop
  | .mapPathToNodeId path _ =>
      world.cache.pathToNodeId.MayEvict settings.maxsize world.cache.now path choice.victim
  | .markDirectoryChildrenLoaded dirId =>
      world.cache.fullyLoadedDirectories.MayEvict settings.maxsize world.cache.now dirId
        choice.dirVictim
  | _ => True

instance (settings : CacheSettings) (choice : Choice) (world : World) :
    (request : Request) → Decidable (choice.Valid settings world request)
  | .mapPathToNodeId path _ => inferInstanceAs (Decidable
      (world.cache.pathToNodeId.MayEvict settings.maxsize world.cache.now path choice.victim))
  | .markDirectoryChildrenLoaded dirId => inferInstanceAs (Decidable
      (world.cache.fullyLoadedDirectories.MayEvict settings.maxsize world.cache.now dirId
        choice.dirVictim))
  | .isLocalOnly _ => .isTrue trivial
  | .addLocalOnly _ => .isTrue trivial
  | .dropLocalOnly _ => .isTrue trivial
  | .copyAndEnqueue _ _ => .isTrue trivial
  | .isQuotaExceeded => .isTrue trivial
  | .resolvePathToNodeId _ => .isTrue trivial
  | .invalidatePath _ => .isTrue trivial
  | .getChildrenPaths _ => .isTrue trivial
  | .isDirectoryChildrenLoaded _ => .isTrue trivial
  | .listChildren _ _ => .isTrue trivial
  | .createFolder _ _ => .isTrue trivial
  | .newLocalId _ _ => .isTrue trivial
  | .updateFile _ _ _ _ => .isTrue trivial
  | .deleteFile _ => .isTrue trivial

namespace World

/-- What the cache has at a path. -/
def mapped (world : World) (path : Str) : Option NodeId :=
  world.cache.resolvePathToNodeId path

def Loaded (world : World) (dirId : NodeId) : Prop :=
  world.cache.isDirectoryChildrenLoaded dirId = true

instance (world : World) (dirId : NodeId) : Decidable (world.Loaded dirId) :=
  inferInstanceAs (Decidable (_ = _))

def tick (world : World) (duration : Nat) : World :=
  { world with cache := world.cache.tick duration }

/-- The mount after `__init__`. -/
def start (settings : CacheSettings) (rootId : NodeId) (now : Nat) (drive : DriveTree) :
    World where
  cache := PathCache.mapPathToNodeId settings none ⟨now, .empty, .empty, ∅⟩ ['/'] rootId
  drive := drive
  localOnlyFiles := []
  known := ⟨[]⟩
  loading := none
  placed := fun _ => none

end World

/-- The world of a program: requests are served by a choice that `allows` lets
pass, and between them time that `passes` lets pass goes by and other clients
change Drive. -/
def environment (settings : CacheSettings) (allows : World → Request → Choice → Prop)
    (passes : World → Nat → Prop) : Program.Environment World Request Request.Answer where
  serves world request answer later :=
    ∃ choice : Choice, choice.Valid settings world request ∧ allows world request choice ∧
      serve settings choice world request = (answer, later)
  drifts world later :=
    (∃ duration, passes world duration ∧ later = world.tick duration) ∨
      ∃ drive, later = { world with drive := drive }

/-- Every access succeeds and the maps keep what they have. -/
def calm : Choice := ⟨none, none, none, ⟨['i'], by decide⟩⟩

/-- The operations, on the paths the kernel hands over. -/
inductive Operation where
  | resolve (path : Str)
  | readdir (path : Str)
  | create (path : Str)
  | mkdir (path : Str)
  | rename (old new : Str)
  | unlink (path : Str)
  | rmdir (path : Str)

def Operation.program (rootId : NodeId) : Operation → Op Unit
  | .resolve path => do
      let _ ← resolvePath rootId path
      pure ()
  | .readdir path => do
      let _ ← Fuse.readdir rootId path
      pure ()
  | .create path => createFile rootId path
  | .mkdir path => Fuse.mkdir rootId path
  | .rename old new => Fuse.rename rootId old new
  | .unlink path => Fuse.unlink rootId path
  | .rmdir path => Fuse.rmdir rootId path

/-- A path below the root, which is what names are made, moved and deleted
at. -/
def IsChildPath (path : Str) : Prop := IsPath path ∧ path ≠ ['/']

def Operation.Proper : Operation → Prop
  | .resolve path => IsPath path
  | .readdir path => IsPath path
  | .create path => IsChildPath path
  | .mkdir path => IsChildPath path
  | .rename old new => IsChildPath old ∧ IsChildPath new
  | .unlink path => IsChildPath path
  | .rmdir path => IsChildPath path

/-- One operation, with a result or with an error. -/
def Performs (settings : CacheSettings) (rootId : NodeId)
    (allows : Operation → World → Request → Choice → Prop) (passes : World → Nat → Prop)
    (world later : World) : Prop :=
  ∃ (operation : Operation) (result : Except Errno Unit), operation.Proper ∧
    Program.Executes (environment settings (allows operation) passes) world
      (operation.program rootId) result later

end FuseDrive.Fuse
