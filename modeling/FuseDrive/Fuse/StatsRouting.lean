import FuseDrive.Fuse.FailedCalls
import FuseDrive.Fuse.TreeWalk

/-!
# The paths of the statistics directory

`getattr`, `readdir`, `open` and `read` hand a path to `StatsVFS` when it
starts with `/stats`.  That is the directory and what is below it, and every
other name at the root that begins with its name.  What the methods do with
the other paths is what they would do without `StatsVFS`.
-/

namespace FuseDrive.Fuse

open Program (perform raise play)

/-! ## What the methods ask for -/

/-- A `DriveNodeMetadata`; times are readings of the clock. -/
structure NodeMetadata where
  fileId : NodeId
  name : Str
  isDirectory : Bool
  size : Nat
  modifiedAt : Nat

/-- The result of `getattr`; the mode is the kind of the file and its
permissions. -/
structure FileStat where
  isDirectory : Bool
  permissions : Nat
  nlink : Nat
  size : Nat
  ctime : Nat
  mtime : Nat
  atime : Nat
deriving DecidableEq

/-- The part of `os.stat` that is used. -/
structure OsStat where
  size : Nat
  ctime : Nat
  mtime : Nat
  atime : Nat

inductive FileRequest where
  | path (request : Request)
  | localTemp (path : Str)
  | stat (tempPath : Str)
  | getMetadata (fileId : NodeId)
  | setMetadata (fileId : NodeId) (metadata : NodeMetadata)
  | getFileMetadata (fileId : NodeId)
  | time
  | metric (key : Str)
  | triggerDeadlock
  | openTemp (tempPath : Str) (isWrite : Bool)
  | takeFd
  | mkstemp (start : Str)
  | setOpenFile (fd : Nat) (file : OpenFile)
  | openFile (fd : Nat)
  | readTemp (fd offset length : Nat)
  | lockHandle (fd : Nat)
  | unlockHandle (fd : Nat)
  | ensureDownloaded (fd : Nat)
  | readPending (fileId : NodeId) (offset length : Nat)
  | readContentRange (fileId : NodeId) (offset length size fd : Nat)

/-- `none` and `false` stand for exceptions, but for what is looked up in a
table: there `none` says that it has no such entry, and `readPending` answers
`none` where no file is pending. -/
@[reducible] def FileRequest.Answer : FileRequest → Type
  | .path request => request.Answer
  | .localTemp _ => Str
  | .stat _ => Option OsStat
  | .getMetadata _ => Option NodeMetadata
  | .setMetadata _ _ => Unit
  | .getFileMetadata _ => Option NodeMetadata
  | .time => Nat
  | .metric _ => Int
  | .triggerDeadlock => Unit
  | .openTemp _ _ => Bool
  | .takeFd => Nat
  | .mkstemp _ => Option Str
  | .setOpenFile _ _ => Unit
  | .openFile _ => Option OpenFile
  | .readTemp _ _ _ => Option (List UInt8)
  | .lockHandle _ => Bool
  | .unlockHandle _ => Unit
  | .ensureDownloaded _ => Bool
  | .readPending _ _ _ => Option (List UInt8)
  | .readContentRange _ _ _ _ _ => Option (List UInt8)

inductive FileError where
  | errno (errno : Errno)
  | ebadf

abbrev FileOp (α : Type) := Program FileRequest FileRequest.Answer FileError α

/-- A program on paths alone. -/
def onTree {α : Type} : Op α → FileOp α
  | .done (.ok value) => .done (.ok value)
  | .done (.error errno) => .done (.error (.errno errno))
  | .ask request next => .ask (.path request) fun answer => onTree (next answer)

/-- What a request that may fail answers. -/
def orRaise {α : Type} : Option α → FileOp α
  | some value => pure value
  | none => raise (.errno .exception)

/-! ## `StatsVFS` -/

namespace StatsVFS

def supportedKeys : List Str :=
  ["cache_hits".toList, "cache_misses".toList, "cache_evictions".toList, "downloads".toList,
    "uploads".toList, "bytes_read".toList, "bytes_written".toList, "active_locks".toList,
    "deadlocks_detected".toList, "cache_memory_usage".toList, "thread_pool_tasks".toList,
    "upload_queue_size".toList, "cache_size_bytes".toList, "cache_size_chunks".toList,
    "api_requests".toList, "bytes_downloaded".toList, "bytes_from_cache".toList,
    "trigger_deadlock".toList]

/-- `_get_val_str`: the key, filled up to twenty characters, and the value. -/
def getValStr (key : Str) (value : Int) : List UInt8 :=
  utf8Encode (key ++ List.replicate (20 - key.length) ' ' ++ ": ".toList ++
    (toString value).toList ++ ['\n'])

/-- `val_bytes[offset : offset + length]`. -/
def slice (bytes : List UInt8) (offset length : Nat) : List UInt8 :=
  (bytes.drop offset).take length

def getattr (path : Str) : FileOp FileStat := do
  if path = "/stats".toList then
    let ctime ← perform FileRequest.time
    let mtime ← perform FileRequest.time
    let atime ← perform FileRequest.time
    pure ⟨true, 0o555, 2, 0, ctime, mtime, atime⟩
  else if basename path ∈ supportedKeys then
    let value ← perform (FileRequest.metric (basename path))
    let ctime ← perform FileRequest.time
    let mtime ← perform FileRequest.time
    let atime ← perform FileRequest.time
    pure ⟨false, 0o444, 1, (getValStr (basename path) value).length, ctime, mtime, atime⟩
  else raise (.errno .enoent)

def readdir (path : Str) : FileOp (List Str) :=
  if path = "/stats".toList then pure (['.'] :: ['.', '.'] :: supportedKeys)
  else raise (.errno .enoent)

def read (path : Str) (length offset : Nat) : FileOp (List UInt8) :=
  if basename path = "trigger_deadlock".toList then
    if offset = 0 then do
      perform FileRequest.triggerDeadlock
      pure (slice (utf8Encode "Deadlock forcado no FUSE VFS!\n".toList) offset length)
    else pure (slice [] offset length)
  else if basename path ∈ supportedKeys then do
    let value ← perform (FileRequest.metric (basename path))
    pure (slice (getValStr (basename path) value) offset length)
  else raise (.errno .enoent)

end StatsVFS

/-! ## The methods without `StatsVFS` -/

namespace Unrouted

variable (rootId : NodeId)

/-- The record of a node that is in no cache. -/
def fetchMetadata (fileId : NodeId) : FileOp (Option NodeMetadata) := do
  if fileId = rootId then
    let now ← perform FileRequest.time
    let metadata : NodeMetadata := ⟨rootId, [], true, 0, now⟩
    perform (FileRequest.setMetadata rootId metadata)
    pure (some metadata)
  else
    match ← perform (FileRequest.getFileMetadata fileId) with
    | some metadata =>
        perform (FileRequest.setMetadata fileId metadata)
        pure (some metadata)
    | none => pure none

def statOf (metadata : NodeMetadata) : FileStat where
  isDirectory := metadata.isDirectory
  permissions := if metadata.isDirectory then 0o755 else 0o644
  nlink := if metadata.isDirectory then 2 else 1
  size := metadata.size
  ctime := metadata.modifiedAt
  mtime := metadata.modifiedAt
  atime := metadata.modifiedAt

def getattr (path : Str) : FileOp FileStat := do
  let isLocal ← perform (FileRequest.path (.isLocalOnly path))
  if isLocal then
    let tempPath ← perform (FileRequest.localTemp path)
    let info ← orRaise (← perform (FileRequest.stat tempPath))
    pure ⟨false, 0o644, 1, info.size, info.ctime, info.mtime, info.atime⟩
  else
    match ← onTree (resolvePath rootId path) with
    | none => raise (.errno .enoent)
    | some fileId =>
        match ← perform (FileRequest.getMetadata fileId) with
        | some metadata => pure (statOf metadata)
        | none =>
            match ← fetchMetadata rootId fileId with
            | some metadata => pure (statOf metadata)
            | none => raise (.errno .enoent)

/-- The entry `stats` of the root is `FuseOps.readdir`'s own. -/
def readdir (path : Str) : FileOp (List Str) := onTree (Fuse.readdir rootId path)

/-- `flags & os.O_WRONLY or flags & os.O_RDWR`. -/
def writes (flags : Nat) : Bool := flags.testBit 0 || flags.testBit 1

/-- `flags & os.O_TRUNC`. -/
def truncates (flags : Nat) : Bool := flags.testBit 9

def openFile (path : Str) (flags : Nat) : FileOp Nat := do
  let isLocal ← perform (FileRequest.path (.isLocalOnly path))
  if isLocal then
    let tempPath ← perform (FileRequest.localTemp path)
    let opened ← perform (FileRequest.openTemp tempPath (writes flags))
    if opened then
      let fd ← perform FileRequest.takeFd
      perform (FileRequest.setOpenFile fd (.localOnly path tempPath false (writes flags)))
      pure fd
    else raise (.errno .exception)
  else
    match ← perform (FileRequest.path (.resolvePathToNodeId path)) with
    | none => raise (.errno .enoent)
    | some fileId =>
        let fd ← perform FileRequest.takeFd
        if writes flags then
          let tempPath ← orRaise (← perform (FileRequest.mkstemp (editJournalName fileId.1 [])))
          perform (FileRequest.setOpenFile fd
            (.edit path tempPath fileId (truncates flags) (truncates flags)))
          pure fd
        else
          perform (FileRequest.setOpenFile fd (.reading path fileId))
          pure fd

/-- Read through a handle for writing, under its lock. -/
def readLocked (fd length offset : Nat) : FileOp (List UInt8) := do
  let locked ← perform (FileRequest.lockHandle fd)
  if locked then
    let ensured ← perform (FileRequest.ensureDownloaded fd)
    if ensured then
      let data ← perform (FileRequest.readTemp fd offset length)
      perform (FileRequest.unlockHandle fd)
      orRaise data
    else
      perform (FileRequest.unlockHandle fd)
      raise (.errno .exception)
  else raise (.errno .exception)

def read (length offset fileHandle : Nat) : FileOp (List UInt8) := do
  match ← perform (FileRequest.openFile fileHandle) with
  | none => raise .ebadf
  | some (.localOnly _ _ _ _) => orRaise (← perform (FileRequest.readTemp fileHandle offset length))
  | some (.created _ _ _ _ _) => readLocked fileHandle length offset
  | some (.edit _ _ _ _ _) => readLocked fileHandle length offset
  | some (.reading _ fileId) =>
      match ← perform (FileRequest.readPending fileId offset length) with
      | some data => pure data
      | none =>
          match ← perform (FileRequest.getMetadata fileId) with
          | none => raise (.errno .enoent)
          | some metadata =>
              orRaise (← perform
                (FileRequest.readContentRange fileId offset length metadata.size fileHandle))

end Unrouted

/-! ## The methods -/

namespace Routed

variable (rootId : NodeId)

def getattr (path : Str) : FileOp FileStat :=
  if isStatsPath path then StatsVFS.getattr path else Unrouted.getattr rootId path

def readdir (path : Str) : FileOp (List Str) :=
  if isStatsPath path then StatsVFS.readdir path else Unrouted.readdir rootId path

def openFile (path : Str) (flags : Nat) : FileOp Nat :=
  if isStatsPath path then pure 0 else Unrouted.openFile path flags

def read (path : Str) (length offset fileHandle : Nat) : FileOp (List UInt8) :=
  if isStatsPath path then StatsVFS.read path length offset
  else Unrouted.read length offset fileHandle

end Routed

/-! ## What is shadowed -/

/-- In every world the two have the same result and leave the same world. -/
def SameRuns {α : Type} (first second : FileOp α) : Prop :=
  ∀ {σ : Type} (serve : σ → (request : FileRequest) → request.Answer × σ) (world : σ),
    play serve world first = play serve world second

/-- The four methods treat the path as they would without `StatsVFS`. -/
structure Unshadowed (rootId : NodeId) (path : Str) : Prop where
  getattr : SameRuns (Routed.getattr rootId path) (Unrouted.getattr rootId path)
  readdir : SameRuns (Routed.readdir rootId path) (Unrouted.readdir rootId path)
  openFile : ∀ flags, SameRuns (Routed.openFile path flags) (Unrouted.openFile path flags)
  read : ∀ length offset fileHandle,
    SameRuns (Routed.read path length offset fileHandle)
      (Unrouted.read length offset fileHandle)

/-- The path is the statistics directory or below it. -/
def BelowStats (path : Str) : Prop :=
  path = "/stats".toList ∨ "/stats/".toList <+: path

instance (path : Str) : Decidable (BelowStats path) := inferInstanceAs (Decidable (_ ∨ _))

/-- A mount that finds what its path cache, its swap files and Drive have, and
has no handles and no records. -/
def serveTree (settings : CacheSettings) (world : World) :
    (request : FileRequest) → request.Answer × World
  | .path request => serve settings calm world request
  | .localTemp _ => ([], world)
  | .stat _ => (none, world)
  | .getMetadata _ => (none, world)
  | .setMetadata _ _ => ((), world)
  | .getFileMetadata _ => (none, world)
  | .time => (0, world)
  | .metric _ => (0, world)
  | .triggerDeadlock => ((), world)
  | .openTemp _ _ => (false, world)
  | .takeFd => (1000, world)
  | .mkstemp _ => (none, world)
  | .setOpenFile _ _ => ((), world)
  | .openFile _ => (none, world)
  | .readTemp _ _ _ => (none, world)
  | .lockHandle _ => (true, world)
  | .unlockHandle _ => ((), world)
  | .ensureDownloaded _ => (true, world)
  | .readPending _ _ _ => (none, world)
  | .readContentRange _ _ _ _ _ => (none, world)

/-- A mount of a tree that has not been looked at. -/
def unvisited (tree : DriveTree) : World where
  cache := ⟨0, .empty, .empty, ∅⟩
  drive := tree
  localOnlyFiles := []
  known := ⟨[]⟩
  loading := none
  placed := fun _ => none

theorem openFile_unvisited (path : Str) (flags : Nat) :
    (play (serveTree defaultSettings) (unvisited ⟨[]⟩) (Unrouted.openFile path flags)).1 =
      .error (.errno .enoent) := rfl

/-- A path is treated as without `StatsVFS` exactly if it does not start with
the name of the statistics directory. -/
theorem unshadowed_iff (rootId : NodeId) (path : Str) :
    Unshadowed rootId path ↔ ¬ "/stats".toList <+: path := by
  have isStats : isStatsPath path = true ↔ "/stats".toList <+: path := List.isPrefixOf_iff_prefix
  rw [← isStats]
  constructor
  · intro unshadowed routed
    have opened := unshadowed.openFile 0 (serveTree defaultSettings) (unvisited ⟨[]⟩)
    have first : Routed.openFile path 0 = pure 0 := if_pos routed
    have result := congrArg Prod.fst opened
    rw [openFile_unvisited, first] at result
    cases result
  · intro unrouted
    constructor
    · intro σ serve world
      rw [Routed.getattr, if_neg unrouted]
    · intro σ serve world
      rw [Routed.readdir, if_neg unrouted]
    · intro flags σ serve world
      rw [Routed.openFile, if_neg unrouted]
    · intro length offset fileHandle σ serve world
      rw [Routed.read, if_neg unrouted]

/-- A Drive whose root has one file. -/
def statsfooTree : DriveTree := ⟨[⟨sampleRoot, "statsfoo".toList, sampleFile⟩]⟩

/-- The file is listed, cannot be looked at, and is opened without a handle. -/
theorem stats_prefix_shadows_file :
    ¬ BelowStats "/statsfoo".toList ∧
      (play (serveTree defaultSettings) (unvisited statsfooTree)
        (Routed.readdir sampleRoot ['/'])).1 =
          .ok [['.'], ['.', '.'], "statsfoo".toList, "stats".toList] ∧
      Routed.getattr sampleRoot "/statsfoo".toList = raise (.errno .enoent) ∧
      Routed.openFile "/statsfoo".toList 0 = pure 0 ∧
      ¬ Unshadowed sampleRoot "/statsfoo".toList := by
  refine ⟨by decide, rfl, rfl, rfl, fun unshadowed => ?_⟩
  have opened := unshadowed.openFile 0 (serveTree defaultSettings) (unvisited ⟨[]⟩)
  have result := congrArg Prod.fst opened
  rw [openFile_unvisited] at result
  cases result

end FuseDrive.Fuse
