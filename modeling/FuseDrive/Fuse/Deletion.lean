import FuseDrive.Fuse.FileSystem
import FuseDrive.Upload.Withdrawn

/-!
# Deletions that last

`unlink` deletes the node on Drive and then forgets the path.  It knows nothing
of the upload queue, of the handles that are open for writing, of lookups and
listings under way, of other cached paths of the file, and of files Drive has
never heard of.  This module says when the deletion lasts: `unlink` succeeds,
and from its return until the path is created again `getattr` does not find it
and no upload of the file starts.
-/

namespace FuseDrive.Fuse

open Transition

/-! ## A file no handle has -/

/-- Neither the queue nor a handle nor a cached path has the file, except for
the path that `invalidate_path` is left to drop. -/
structure Unattended (left : Option Str) (fileId : Str) (state : State) : Prop where
  placed : Upload.Placed state.uploads
  withdrawn : Upload.Withdrawn fileId state.uploads
  mapped : ∀ path, state.paths.lookup path = some fileId → left = some path
  writers : ∀ fd writer, state.writers fd = some writer → writer.fileId ≠ fileId
  closing : ∀ fd closing, state.closing fd = some closing → closing.writer.fileId ≠ fileId

/-- The step opens no file whose journal name would read as that of the id, and
draws no `uuid4` that gives the id. -/
def SparesId (fileId : Str) (state : State) : Label → Prop
  | .openWrite _ path _ _ => ∀ other, state.paths.lookup path = some other →
      other.takeWhile (· ≠ '_') ≠ fileId
  | .create _ _ uuid _ _ _ => localPrefix ++ uuid ≠ fileId
  | .upload label => Upload.Spares fileId label
  | _ => True

/-- The step looks the path up to open it for writing or to list it. -/
def UsesPath (path : Str) : Label → Prop
  | .openWrite _ other _ _ | .map other _ => other = path
  | _ => False

theorem Advanced.fileId {state : State} {writer later : Writer} {bytes content : Bytes}
    {noted : Noted} (advanced : Advanced state writer bytes later content noted) :
    later.fileId = writer.fileId := by
  cases advanced <;> rfl

/-- The recovery does not know the name `rename` gives. -/
theorem recoverJournalEntry_atomicName_ne (second : Nat) {fileId : Str} :
    recoverJournalEntry (atomicName second) ≠ .edit fileId := by
  have isOther : recoverJournalEntry (atomicName second) = .other := rfl
  rw [isOther]
  nofun

section Unattended

variable {settings : Settings} {left : Option Str} {fileId : Str} {state next : State}

namespace Unattended

theorem congr (unattended : Unattended left fileId state) (uploads : next.uploads = state.uploads)
    (paths : next.paths = state.paths) (writers : next.writers = state.writers)
    (closing : next.closing = state.closing) : Unattended left fileId next where
  placed := uploads ▸ unattended.placed
  withdrawn := uploads ▸ unattended.withdrawn
  mapped := paths ▸ unattended.mapped
  writers := writers ▸ unattended.writers
  closing := closing ▸ unattended.closing

theorem setPaths (unattended : Unattended left fileId state) {paths : Dict Str Str}
    (mapped : ∀ path, paths.lookup path = some fileId → left = some path) :
    Unattended left fileId { state with paths := paths } :=
  ⟨unattended.placed, unattended.withdrawn, mapped, unattended.writers, unattended.closing⟩

theorem map (unattended : Unattended left fileId state) (path : Str) {other : Str}
    (different : other ≠ fileId) :
    Unattended left fileId { state with paths := state.paths.insert path other } := by
  refine unattended.setPaths fun found isFound => ?_
  rw [Dict.lookup_insert_eq] at isFound
  split at isFound
  · exact absurd (Option.some.inj isFound) different
  · exact unattended.mapped found isFound

theorem unmap (unattended : Unattended left fileId state) (path : Str) :
    Unattended left fileId { state with paths := state.paths.erase path } := by
  refine unattended.setPaths fun found isFound => ?_
  rw [Dict.lookup_erase_eq] at isFound
  split at isFound
  · cases isFound
  · exact unattended.mapped found isFound

theorem setFile (unattended : Unattended left fileId state) {tempName : Str} (bytes : Bytes)
    (other : recoverJournalEntry tempName ≠ .edit fileId) :
    Unattended left fileId (state.setFile tempName bytes) := by
  have placed := unattended.placed
  refine ⟨⟨placed.queue, placed.saved, placed.slots⟩,
    unattended.withdrawn.setFiles fun name content present => ?_, unattended.mapped,
    unattended.writers, unattended.closing⟩
  rw [Dict.lookup_insert_eq] at present
  split at present
  · rename_i same
    cases same
    exact other
  · exact unattended.withdrawn.journal name content present

theorem removeFile (unattended : Unattended left fileId state) (tempName : Str) :
    Unattended left fileId (state.removeFile tempName) := by
  have placed := unattended.placed
  refine ⟨⟨placed.queue, placed.saved, placed.slots⟩,
    unattended.withdrawn.setFiles fun name content present => ?_, unattended.mapped,
    unattended.writers, unattended.closing⟩
  rw [Dict.lookup_erase_eq] at present
  split at present
  · cases present
  · exact unattended.withdrawn.journal name content present

theorem setWriter (unattended : Unattended left fileId state) (fd : Nat) (later : Option Writer)
    (different : ∀ writer, later = some writer → writer.fileId ≠ fileId) :
    Unattended left fileId (state.setWriter fd later) := by
  refine ⟨unattended.placed, unattended.withdrawn, unattended.mapped, ?_,
    unattended.closing⟩
  intro other writer opened
  rw [State.setWriter_writers] at opened
  split at opened
  · exact different writer opened
  · exact unattended.writers other writer opened

theorem setClosing (unattended : Unattended left fileId state) (fd : Nat) (later : Option Closing)
    (different : ∀ closing, later = some closing → closing.writer.fileId ≠ fileId) :
    Unattended left fileId (state.setClosing fd later) := by
  refine ⟨unattended.placed, unattended.withdrawn, unattended.mapped, unattended.writers, ?_⟩
  intro other closing released
  rw [State.setClosing_closing] at released
  split at released
  · exact different closing released
  · exact unattended.closing other closing released

theorem mkstemp (unattended : Unattended left fileId state) (fd : Nat) {writer : Writer}
    (origin : Origin) (different : writer.fileId ≠ fileId)
    (other : recoverJournalEntry writer.tempName ≠ .edit fileId) :
    Unattended left fileId (state.mkstemp fd writer origin) := by
  have opened := (unattended.setFile [] other).setWriter fd _
    fun found isFound => Option.some.inj isFound ▸ different
  exact opened.congr rfl rfl rfl rfl

theorem upload (unattended : Unattended left fileId state) {maxRetries : Nat}
    {label : Upload.Label} {uploads : Upload.State Bytes}
    (stepped : Upload.Stepped maxRetries state.uploads label uploads)
    (spares : Upload.Spares fileId label) :
    Unattended left fileId { state with uploads := uploads } where
  placed := unattended.placed.step stepped
  withdrawn := unattended.withdrawn.step unattended.placed spares stepped
  mapped := unattended.mapped
  writers := unattended.writers
  closing := unattended.closing

theorem crash (unattended : Unattended left fileId state) : Unattended left fileId state.crash := by
  have crashed : Upload.Stepped 0 state.uploads .crash state.uploads.crash := .crash
  have stopped := unattended.upload crashed trivial
  refine ⟨stopped.placed, stopped.withdrawn, nofun, ?_, ?_⟩
  · intro fd writer opened
    cases opened
  · intro fd closing released
    cases released

theorem openWrite (unattended : Unattended left fileId state) {fd : Nat} {writer : Writer}
    (origin : Origin) {other suffix : Str} (different : other ≠ fileId)
    (spares : other.takeWhile (· ≠ '_') ≠ fileId) (isOther : writer.fileId = other)
    (tempName : writer.tempName = editJournalName other suffix) :
    Unattended left fileId (state.mkstemp fd writer origin) := by
  apply unattended.mkstemp
  · rwa [isOther]
  · rw [tempName]
    intro reads
    obtain ⟨-, -, isField⟩ := eq_takeWhile_of_recoverJournalEntry reads
    exact spares isField.symm

theorem step (unattended : Unattended left fileId state) {label : Label}
    (spares : SparesId fileId state label) (notMapped : ∀ path, label ≠ .map path fileId)
    (unused : ∀ path, left = some path → ¬ UsesPath path label)
    (stepped : Stepped settings state label next) : Unattended left fileId next := by
  cases stepped with
  | @openWrite fd path isTruncate suffix other serves free found fresh =>
      have different : other ≠ fileId := fun same =>
        unused path (unattended.mapped path (same ▸ found)) rfl
      exact unattended.openWrite _ different (spares other found) rfl rfl
  | @create fd path uuid suffix now index parentId store serves unused parent fresh recorded =>
      have loaded : Unattended left fileId
          { state with store := store, paths := state.paths.insert path (localPrefix ++ uuid) } :=
        (unattended.map path spares).congr rfl rfl rfl rfl
      exact loaded.mkstemp fd _ spares (recoverJournalEntry_createJournalName_ne_edit _ _ _ _)
  | @call fd call writer opened idle =>
      refine unattended.setWriter fd _ fun found isFound => ?_
      cases isFound
      exact unattended.writers fd writer opened
  | @advance fd storageFails writer bytes later content noted opened file advanced =>
      have other : recoverJournalEntry later.tempName ≠ .edit fileId := by
        rw [advanced.tempName]
        exact unattended.withdrawn.journal _ _ file
      have written := (unattended.setFile content other).setWriter fd _
        fun found isFound => by
          rw [← Option.some.inj isFound, advanced.fileId]
          exact unattended.writers fd writer opened
      exact written.congr rfl rfl rfl rfl
  | @releaseNew fd writer content opened _ _ _ | @releaseModified fd writer content opened _ _ _ _ =>
      have popped := unattended.setWriter fd none (by simp)
      refine popped.setClosing fd _ fun found isFound => ?_
      cases isFound
      exact unattended.writers fd writer opened
  | @releaseUnmodified fd writer content opened idle file old unmodified =>
      exact (unattended.setWriter fd none (by simp)).removeFile _
  | @enqueue fd slot second closing uploads released ready begun =>
      have different := unattended.closing fd closing released
      have called := unattended.upload begun different
      refine called.setClosing fd _ fun found isFound => ?_
      cases isFound
      exact different
  | @enqueuedNew fd slot closing released point returned new =>
      exact (unattended.setClosing fd none (by simp)).congr rfl rfl rfl rfl
  | @enqueuedEdit fd slot closing released point returned old =>
      refine unattended.setClosing fd _ fun found isFound => ?_
      cases isFound
      exact unattended.closing fd closing released
  | @editReleased fd closing store released point moved =>
      exact (unattended.setClosing fd none (by simp)).congr rfl rfl rfl rfl
  | accept sent issues replied changed =>
      exact (unattended.upload replied trivial).congr rfl rfl rfl rfl
  | upload background moved => exact unattended.upload moved spares
  | @map parentPath other parentId name serves node parent =>
      refine unattended.map _ ?_
      rintro rfl
      exact notMapped parentPath rfl
  | unmap => exact unattended.unmap _
  | crash => exact unattended.crash
  | openRead _ _ _ | releaseReader _ | edit _ _ _ _ | beginRead _ _ | advanceRead _ _
  | store _ _ => exact unattended.congr rfl rfl rfl rfl

end Unattended

theorem Stepped.placed {label : Label} (stepped : Stepped settings state label next)
    (placed : Upload.Placed state.uploads) : Upload.Placed next.uploads := by
  cases stepped with
  | enqueue _ _ moved | accept _ _ moved _ | upload _ moved => exact placed.step moved
  | crash =>
      have crashed : Upload.Stepped 0 state.uploads .crash state.uploads.crash := .crash
      exact placed.step crashed
  | _ => exact ⟨placed.queue, placed.saved, placed.slots⟩

end Unattended

/-! ## Where paths lead -/

/-- A path leads to an id: it is known, or listings from what is known come to
it. -/
inductive Leads (rootId : Str) (known : Str → Str → Prop)
    (nodes : Str → Option (Str × Str)) (deleted : Finset Str) : Str → Str → Prop where
  | root : Leads rootId known nodes deleted ['/'] rootId
  | known {path fileId : Str} (isKnown : known path fileId) :
      Leads rootId known nodes deleted path fileId
  | child {parentPath parentId name fileId : Str}
      (parent : Leads rootId known nodes deleted parentPath parentId)
      (node : nodes fileId = some (parentId, name)) (there : fileId ∉ deleted) :
      Leads rootId known nodes deleted (join parentPath name) fileId

section Leads

variable {rootId : Str} {known laterKnown : Str → Str → Prop}
  {nodes laterNodes : Str → Option (Str × Str)} {deleted laterDeleted : Finset Str}

/-- Fewer known paths and fewer nodes lead to fewer ids. -/
theorem Leads.mono {path fileId : Str}
    (leads : Leads rootId laterKnown laterNodes laterDeleted path fileId)
    (before : ∀ other id, laterKnown other id → Leads rootId known nodes deleted other id)
    (issued : ∀ id place, laterNodes id = some place → id ∉ laterDeleted →
      nodes id = some place ∧ id ∉ deleted) : Leads rootId known nodes deleted path fileId := by
  induction leads with
  | root => exact .root
  | known isKnown => exact before _ _ isKnown
  | child parent node there induction =>
      obtain ⟨wasNode, wasThere⟩ := issued _ _ node there
      exact .child induction wasNode wasThere

/-- With nothing known but the root, and no node on Drive, only the root is
there. -/
theorem Leads.eq_root {path fileId : Str}
    (onlyRoot : ∀ other id, known other id → other = ['/'])
    (gone : ∀ id place, nodes id = some place → id ∈ deleted)
    (leads : Leads rootId known nodes deleted path fileId) : path = ['/'] := by
  cases leads with
  | root => rfl
  | known isKnown => exact onlyRoot _ _ isKnown
  | child parent node there => exact absurd (gone _ _ node) there

end Leads

section Paths

variable {settings : Settings} {state next : State} {label : Label}

/-- A path the cache has after a step it had before, unless the step has mapped
it. -/
theorem Stepped.lookup_before (stepped : Stepped settings state label next)
    (notCreate : ∀ fd path uuid suffix now index,
      label ≠ .create fd path uuid suffix now index)
    {path fileId : Str} (found : next.paths.lookup path = some fileId) :
    state.paths.lookup path = some fileId ∨
      ∃ parentPath parentId name, label = .map parentPath fileId ∧
        state.resolvePathToDriveNodeId settings.rootId parentPath = some parentId ∧
        state.nodes fileId = some (parentId, name) ∧ path = join parentPath name := by
  cases stepped with
  | create _ _ _ _ _ => exact absurd rfl (notCreate _ _ _ _ _ _)
  | @map parentPath other parentId name serves node parent =>
      rw [Dict.lookup_insert_eq] at found
      split at found
      · rename_i same
        cases found
        exact Or.inr ⟨parentPath, parentId, name, rfl, parent, node, same⟩
      · exact Or.inl found
  | unmap =>
      rw [Dict.lookup_erase_eq] at found
      split at found
      · cases found
      · exact Or.inl found
  | crash => cases found
  | _ => exact Or.inl found

/-- Only an answered upload adds a node. -/
theorem Stepped.nodes_eq (stepped : Stepped settings state label next)
    (notAccept : ∀ slot nodeId modified, label ≠ .accept slot nodeId modified) :
    next.nodes = state.nodes := by
  cases stepped with
  | accept _ _ _ _ => exact absurd rfl (notAccept _ _ _)
  | _ => rfl

end Paths

/-! ## The file system after a deletion -/

namespace FileSystem

/-- The cache has the path, or an operation or a listing under way was told. -/
def Known (system : FileSystem) (path fileId : Str) : Prop :=
  system.ops.paths.lookup path = some fileId ∨ (path, fileId) ∈ system.resolved ∨
    (path, fileId) ∈ system.listed

/-- Where a path leads in a state. -/
def LeadsTo (rootId : Str) (system : FileSystem) (path fileId : Str) : Prop :=
  Leads rootId system.Known system.ops.nodes system.deleted path fileId

/-- What is known of other paths than the one avoided. -/
def KnownAround (system : FileSystem) (avoided path fileId : Str) : Prop :=
  path ≠ avoided ∧ system.Known path fileId

/-- Where a path leads without what is known of the one avoided. -/
def LeadsAround (rootId : Str) (system : FileSystem) (avoided path fileId : Str) : Prop :=
  Leads rootId (system.KnownAround avoided) system.ops.nodes system.deleted path fileId

/-- The id of the file at a path, unless it is a local-only file. -/
def fileAt (rootId : Str) (system : FileSystem) (path : Str) : Option Str :=
  match system.localOnlyFiles.lookup path with
  | some _ => none
  | none => system.ops.resolvePathToDriveNodeId rootId path

/-- No handle, no `release` or `rename`, no other cached path and nothing in
the upload queue has the file, and nothing under way was told of it or of its
path. -/
structure Idle (rootId : Str) (system : FileSystem) (path fileId : Str) : Prop where
  withdrawn : Upload.Withdrawn fileId system.ops.uploads
  mapped : ∀ other, system.ops.paths.lookup other = some fileId → other = path
  untold : ∀ other id, other = path ∨ id = fileId →
    (other, id) ∉ system.resolved ∧ (other, id) ∉ system.listed
  writers : ∀ fd writer, system.ops.writers fd = some writer → writer.fileId ≠ fileId
  closing : ∀ fd closing, system.ops.closing fd = some closing →
    closing.writer.fileId ≠ fileId
  replacing : ∀ replacing, system.replacing = some replacing → replacing.newId ≠ fileId
  notRoot : fileId ≠ rootId

/-- The file is local-only or an idle file on Drive, and no second file stands
at its path. -/
inductive Deletable (rootId : Str) (system : FileSystem) (path : Str) : Prop where
  | localOnly {tempPath : Str} (found : system.localOnlyFiles.lookup path = some tempPath)
      (alone : ∀ fileId, ¬ system.LeadsTo rootId path fileId)
  | onDrive {fileId : Str} (notLocal : system.localOnlyFiles.lookup path = none)
      (found : system.ops.resolvePathToDriveNodeId rootId path = some fileId)
      (onDrive : system.OnDrive fileId) (idle : system.Idle rootId path fileId)
      (alone : ∀ other, ¬ Leads rootId (system.KnownAround path) system.ops.nodes
        (insert fileId system.deleted) path other)

/-- The step creates the path: a swap file is made or moved there, or a
`create`, `mkdir` or `rename` or the upload of a new file maps the path, or
makes other paths lead there. -/
def CreatesAgain (settings : Settings) (path : Str) (system : FileSystem) (label : Label) :
    Prop :=
  match label with
  | .createLocal _ other _ => other = path
  | .renameLocal _ new => new = path
  | .base (.create _ _ _ _ _ _) | .base (.accept _ _ _) | .rename _ _ | .mkdir _ _ _ _ =>
      ∃ next fileId, system.step settings label = some next ∧
        (next.Known path fileId ∧ ¬ system.Known path fileId ∨
          next.LeadsAround settings.rootId path path fileId)
  | _ => False

/-- What a step of the handles and managers has to spare of a deleted file. -/
def Spares (file : Option Str) (system : FileSystem) : Label → Prop
  | .base label => ∀ fileId ∈ file, SparesId fileId system.ops label
  | .openResolved fd path other isTruncate suffix => ∀ fileId ∈ file,
      SparesId fileId (system.told path other) (.openWrite fd path isTruncate suffix)
  | _ => True

/-- The run goes on without creating the path again. -/
def GoesOn (settings : Settings) (path : Str) (file : Option Str) (system : FileSystem)
    (label : Label) : Prop :=
  ¬ system.CreatesAgain settings path label ∧ system.Spares file label

/-- The operation looks the path up to use it later. -/
def UsesPath (path : Str) : Label → Prop
  | .look other | .replace _ other _ => other = path
  | .base label => Fuse.UsesPath path label
  | _ => False

/-- The run goes on while `unlink` has an answer of Drive and has not returned. -/
def GoesOnInCall (settings : Settings) (path : Str) (file : Option Str) (system : FileSystem)
    (label : Label) : Prop :=
  system.GoesOn settings path file label ∧ ¬ UsesPath path label

/-- The process lives on, and no deletion of the path returns. -/
def StaysInCall (path : Str) (_ : FileSystem) : Label → Prop
  | .crash => False
  | .invalidated other => other ≠ path
  | _ => True

/-- `getattr` raises `ENOENT`, and no step starts an upload of the file. -/
structure StaysDeleted (settings : Settings) (path : Str) (file : Option Str)
    (system : FileSystem) : Prop where
  enoent : system.GetattrFails settings.rootId path
  uploads : ∀ fileId ∈ file, ∀ label, ¬ Upload.Uploads fileId system.ops.uploads label
  replaces : ∀ new second, system.step settings (.replace path new second) = none
  replacesResolved : ∀ new newId second,
    system.step settings (.replaceResolved path new newId second) = none

/-- What there can be when `unlink` returns: a local-only file is gone at once,
a file on Drive with the answer of Drive, and then the path. -/
inductive Returned (settings : Settings) (system : FileSystem) (path : Str)
    (begun : FileSystem) : FileSystem → Prop where
  | localOnly {tempPath : Str} (found : system.localOnlyFiles.lookup path = some tempPath) :
      Returned settings system path begun begun
  | onDrive {answered returned : FileSystem}
      (notLocal : system.localOnlyFiles.lookup path = none)
      (meanwhile : Reaches (FileSystem.step settings)
        (GoesOnInCall settings path (system.fileAt settings.rootId path)) begun answered)
      (invalidated : answered.step settings (.invalidated path) = some returned) :
      Returned settings system path begun returned

/-- `unlink` succeeds, whatever Drive deletes with the node.  A call that waits
for Drive can return in every later state in which the cache is served, and
once it has, the file stays deleted until the path is created again. -/
def DeletesForGood (settings : Settings) (system : FileSystem) (path : Str) : Prop :=
  ∀ gone, system.mayTake settings.rootId path gone = true →
    ∃ begun, system.unlink settings.rootId path gone = .ok begun ∧
      (system.localOnlyFiles.lookup path = none → ∀ answered,
        Reaches (FileSystem.step settings) (StaysInCall path) begun answered →
          answered.ops.Serves →
          ∃ returned, answered.step settings (.invalidated path) = some returned) ∧
      ∀ returned, Returned settings system path begun returned → ∀ later,
        Reaches (FileSystem.step settings)
          (GoesOn settings path (system.fileAt settings.rootId path)) returned later →
        StaysDeleted settings path (system.fileAt settings.rootId path) later

theorem told_lookup (system : FileSystem) (path fileId other : Str) :
    (system.told path fileId).paths.lookup other =
      if other = path then some fileId else system.ops.paths.lookup other :=
  Dict.lookup_insert_eq ..

section Removed

variable {settings : Settings} {system next : FileSystem} {left : Option Str}
  {path fileId : Str}

/-- Drive has deleted the file, and nobody has it. -/
structure Removed (rootId : Str) (left : Option Str) (fileId : Str) (system : FileSystem) :
    Prop where
  unattended : Unattended left fileId system.ops
  untold : ∀ other, (other, fileId) ∉ system.resolved ∧ (other, fileId) ∉ system.listed
  issued : (system.ops.nodes fileId).isSome
  deleted : fileId ∈ system.deleted
  replacing : ∀ replacing, system.replacing = some replacing → replacing.newId ≠ fileId
  notRoot : fileId ≠ rootId

namespace Removed

theorem resolve_ne {rootId : Str} (removed : Removed rootId left fileId system) {found : Str}
    (unused : left ≠ some path)
    (isFound : system.ops.resolvePathToDriveNodeId rootId path = some found) :
    found ≠ fileId := by
  unfold State.resolvePathToDriveNodeId at isFound
  split at isFound
  · cases isFound
    exact Ne.symm removed.notRoot
  · intro same
    exact unused (removed.unattended.mapped path (same ▸ isFound))

theorem setOps {rootId : Str} (removed : Removed rootId left fileId system) (ops : State)
    (unattended : Unattended left fileId ops) (issued : (ops.nodes fileId).isSome) :
    Removed rootId left fileId { system with ops := ops } :=
  ⟨unattended, removed.untold, issued, removed.deleted, removed.replacing, removed.notRoot⟩

theorem setTold {rootId : Str} (removed : Removed rootId left fileId system)
    {resolved listed : List (Str × Str)}
    (untold : ∀ other, (other, fileId) ∉ resolved ∧ (other, fileId) ∉ listed) :
    Removed rootId left fileId { system with resolved := resolved, listed := listed } :=
  ⟨removed.unattended, untold, removed.issued, removed.deleted, removed.replacing,
    removed.notRoot⟩

theorem setReplacing {rootId : Str} (removed : Removed rootId left fileId system)
    {replacing : Option Replacing}
    (different : ∀ found, replacing = some found → found.newId ≠ fileId) :
    Removed rootId left fileId { system with replacing := replacing } :=
  ⟨removed.unattended, removed.untold, removed.issued, removed.deleted, different,
    removed.notRoot⟩

theorem eraseResolved {rootId : Str} (removed : Removed rootId left fileId system)
    (pair : Str × Str) :
    Removed rootId left fileId { system with resolved := system.resolved.erase pair } := by
  refine removed.setTold fun other => ⟨fun member => ?_, (removed.untold other).2⟩
  exact (removed.untold other).1 (List.mem_of_mem_erase member)

theorem told {rootId : Str} (removed : Removed rootId left fileId system) (path : Str)
    {other : Str} (different : other ≠ fileId) :
    Removed rootId left fileId { system with ops := system.told path other } :=
  removed.setOps _ (removed.unattended.map path different) removed.issued

theorem invalidatePath {rootId : Str} (removed : Removed rootId left fileId system)
    (path : Str) : Removed rootId left fileId (system.invalidatePath path) :=
  removed.setOps _ ((removed.unattended.unmap path).congr rfl rfl rfl rfl) removed.issued

theorem endDeletion {rootId : Str} (removed : Removed rootId left fileId system)
    (path : Str) : Removed rootId left fileId (system.endDeletion path) := by
  have forgotten := removed.invalidatePath path
  exact ⟨forgotten.unattended, forgotten.untold, forgotten.issued, forgotten.deleted,
    forgotten.replacing, forgotten.notRoot⟩

theorem deleteNode {rootId : Str} (removed : Removed rootId left fileId system)
    {gone : List Str} (success : system.deleteNode rootId path gone = .ok next) :
    Removed rootId left fileId next := by
  obtain ⟨other, -, -, rfl⟩ := deleteNode_eq_ok success
  have still : fileId ∈ insert other (gone.toFinset ∪ system.deleted) :=
    Finset.mem_insert_of_mem (Finset.mem_union_right _ removed.deleted)
  exact ⟨removed.unattended, removed.untold, removed.issued, still, removed.replacing,
    removed.notRoot⟩

theorem unlink {rootId : Str} (removed : Removed rootId left fileId system) {gone : List Str}
    (success : system.unlink rootId path gone = .ok next) :
    Removed rootId left fileId next := by
  rcases unlink_eq_ok success with ⟨tempPath, -, rfl⟩ | ⟨-, deleted⟩
  · exact ⟨removed.unattended, removed.untold, removed.issued, removed.deleted,
      removed.replacing, removed.notRoot⟩
  · exact removed.deleteNode deleted

theorem finishReplacing {rootId : Str} (removed : Removed rootId left fileId system)
    (replacing : Replacing) (gone : List Str) :
    Removed rootId left fileId (system.finishReplacing rootId replacing gone) := by
  apply finishReplacing_kept removed
  · intro middle success
    exact removed.unlink success
  · exact fun middle kept => kept.endDeletion _
  · exact fun middle kept => kept.invalidatePath _
  · exact fun middle kept => kept.setReplacing (by simp)

theorem copy {rootId : Str} (removed : Removed rootId left fileId system) {second : Nat}
    {bytes : Bytes} {replacing : Replacing} (different : replacing.newId ≠ fileId) :
    Removed rootId left fileId { system with
      ops := system.ops.setFile (atomicName second) bytes
      replacing := some replacing } := by
  have copied := removed.setOps _
    (removed.unattended.setFile bytes (recoverJournalEntry_atomicName_ne second))
    removed.issued
  refine copied.setReplacing fun found isFound => ?_
  cases isFound
  exact different

theorem openResolved (removed : Removed settings.rootId left fileId system) {fd : Nat}
    {other suffix : Str} {isTruncate : Bool} {ops : State}
    (pair : (path, other) ∈ system.resolved)
    (spares : SparesId fileId (system.told path other) (.openWrite fd path isTruncate suffix))
    (moved : Fuse.Stepped settings (system.told path other)
      (.openWrite fd path isTruncate suffix) ops) :
    Removed settings.rootId left fileId { system with
      ops := { ops with paths := system.ops.paths }
      resolved := system.resolved.erase (path, other) } := by
  have different : other ≠ fileId := by
    intro same
    exact (removed.untold path).1 (same ▸ pair)
  have told := removed.told path different
  have ended := removed.eraseResolved (path, other)
  cases moved with
  | @openWrite _ _ _ _ found serves free isFound fresh =>
      have isOther : found = other := by
        rw [told_lookup, if_pos rfl] at isFound
        exact (Option.some.inj isFound).symm
      subst isOther
      refine ended.setOps _ (Unattended.setPaths ?_ removed.unattended.mapped) removed.issued
      exact told.unattended.openWrite _ different (spares found isFound) rfl rfl

theorem step (removed : Removed settings.rootId left fileId system) {label : Label}
    (spares : system.Spares (some fileId) label)
    (unused : ∀ other, left = some other → ¬ UsesPath other label)
    (stepped : Stepped settings system label next) :
    Removed settings.rootId left fileId next := by
  cases stepped with
  | @base label ops permitted moved =>
      refine removed.setOps ops (removed.unattended.step (spares fileId rfl) ?_ unused moved)
        (moved.nodes_kept removed.issued)
      rintro other rfl
      exact permitted removed.deleted
  | writeLocal opened | truncateLocal opened =>
      unfold changeTemp
      split
      · exact ⟨removed.unattended, removed.untold, removed.issued, removed.deleted,
          removed.replacing, removed.notRoot⟩
      · exact removed
  | @look path other serves found =>
      have different : other ≠ fileId := removed.resolve_ne (fun same => unused path same rfl) found
      refine removed.setTold fun known => ⟨fun member => ?_, (removed.untold known).2⟩
      rcases List.mem_cons.mp member with same | earlier
      · exact different (Prod.mk.inj same).2.symm
      · exact (removed.untold known).1 earlier
  | @list parentPath parentId other name told node there =>
      have different : other ≠ fileId := fun same => there (same ▸ removed.deleted)
      refine removed.setTold fun known => ⟨(removed.untold known).1, fun member => ?_⟩
      rcases List.mem_cons.mp member with same | earlier
      · exact different (Prod.mk.inj same).2.symm
      · exact (removed.untold known).2 earlier
  | @mapListed path other serves answered =>
      have different : other ≠ fileId := fun same => (removed.untold path).2 (same ▸ answered)
      refine (removed.told path different).setTold fun known =>
        ⟨(removed.untold known).1, fun member => ?_⟩
      exact (removed.untold known).2 (List.mem_of_mem_erase member)
  | looked told => exact removed.eraseResolved _
  | openResolved told moved => exact removed.openResolved told (spares fileId rfl) moved
  | @replace old new second tempPath newId bytes serves notSwap found isNew alone file =>
      exact removed.copy (removed.resolve_ne (fun same => unused new same rfl) isNew)
  | @replaceResolved old new newId second tempPath bytes serves notSwap found told alone file =>
      have different : newId ≠ fileId := fun same => (removed.untold new).1 (same ▸ told)
      have copied : Removed settings.rootId left fileId { system with
          ops := system.ops.setFile (atomicName second) bytes
          replacing := some ⟨old, new, newId, atomicName second, .copied⟩ } :=
        removed.copy different
      exact copied.eraseResolved _
  | @replaceEnqueue slot second replacing uploads present point begun =>
      have different := removed.replacing replacing present
      have called := removed.setOps _ (removed.unattended.upload begun different) removed.issued
      refine called.setReplacing fun found isFound => ?_
      cases isFound
      exact different
  | @replaceEnqueued edit slot replacing present point returned unused =>
      have moved := removed.setOps
        { system.ops with
          store := system.ops.store.setEdit edit (.invalidate replacing.newId) }
        (removed.unattended.congr rfl rfl rfl rfl) removed.issued
      refine moved.setReplacing fun found isFound => ?_
      cases isFound
      exact removed.replacing replacing present
  | replaceEdit present point moved =>
      exact removed.setOps _ (removed.unattended.congr rfl rfl rfl rfl) removed.issued
  | replaceEnd present point taken => exact removed.finishReplacing _ _
  | @rename old new other parentId serves found parent onDrive isFolder =>
      have moved := removed.setOps
        { system.ops with
          nodes := Function.update system.ops.nodes other (some (parentId, basename new)) }
        (removed.unattended.congr rfl rfl rfl rfl) (by
          simp only [Function.update_apply]
          split
          · rfl
          · exact removed.issued)
      exact (moved.invalidatePath old).invalidatePath (dirname new)
  | unlink serves taken success => exact removed.unlink success
  | rmdir serves taken success => exact removed.deleteNode success
  | @mkdir path nodeId now index parentId store serves parent isFolder issued recorded =>
      have different : nodeId ≠ fileId := by
        intro same
        have known := removed.issued
        rw [← same, issued] at known
        cases known
      refine removed.setOps _ ((removed.unattended.map path different).congr rfl rfl rfl rfl) ?_
      simp only [Function.update_apply]
      split
      · rfl
      · exact removed.issued
  | invalidated serves member => exact removed.endDeletion _
  | crash =>
      exact ⟨removed.unattended.crash, by simp, removed.issued, removed.deleted, by simp,
        removed.notRoot⟩
  | createLocal _ _ _ _ | openLocal _ _ | releaseLocal _ | renameLocal _ _ =>
      exact ⟨removed.unattended, removed.untold, removed.issued, removed.deleted,
        removed.replacing, removed.notRoot⟩

/-- The path is dropped: nothing is left of the file. -/
theorem dropped {rootId : Str} (removed : Removed rootId left fileId system)
    (unmapped : ∀ other, system.ops.paths.lookup other ≠ some fileId) :
    Removed rootId none fileId system where
  unattended :=
    { removed.unattended with mapped := fun other found => absurd found (unmapped other) }
  untold := removed.untold
  issued := removed.issued
  deleted := removed.deleted
  replacing := removed.replacing
  notRoot := removed.notRoot

end Removed

end Removed

/-- Nothing is at the path but what `invalidate_path` is left to drop, and
nothing else leads there. -/
structure Absent (rootId : Str) (left : Option Str) (path : Str) (system : FileSystem) :
    Prop where
  notLocal : system.localOnlyFiles.lookup path = none
  mapped : ∀ fileId, system.ops.paths.lookup path = some fileId → left = some path
  untold : ∀ fileId, (path, fileId) ∉ system.resolved ∧ (path, fileId) ∉ system.listed
  leads : ∀ fileId, ¬ system.LeadsAround rootId path path fileId

section Absent

variable {settings : Settings} {system next : FileSystem} {left : Option Str} {path : Str}

namespace Absent

theorem notRoot {rootId : Str} (absent : Absent rootId left path system) : path ≠ ['/'] := by
  intro isRoot
  apply absent.leads rootId
  rw [isRoot]
  exact .root

theorem resolve_eq_none {rootId : Str} (absent : Absent rootId none path system) :
    system.ops.resolvePathToDriveNodeId rootId path = none := by
  rw [State.resolvePathToDriveNodeId, if_neg absent.notRoot]
  cases found : system.ops.paths.lookup path with
  | none => rfl
  | some fileId => cases absent.mapped fileId found

theorem getattrFails {rootId : Str} (absent : Absent rootId none path system) :
    system.GetattrFails rootId path := by
  refine ⟨absent.notLocal, fun fileId found => ?_⟩
  rw [absent.resolve_eq_none] at found
  cases found

theorem copyStep_eq_none {rootId : Str} (absent : Absent rootId left path system)
    (new newId : Str) (second : Nat) : system.copyStep path new newId second = none := by
  simp only [copyStep, absent.notLocal]

/-- What the cache tells of a path that is not looked up, or no longer there. -/
theorem around_of_resolve {rootId other fileId : Str} (absent : Absent rootId left path system)
    (unused : left = some path → other ≠ path)
    (found : system.ops.resolvePathToDriveNodeId rootId other = some fileId) :
    system.LeadsAround rootId path other fileId := by
  unfold State.resolvePathToDriveNodeId at found
  split at found
  · rename_i isRoot
    cases found
    rw [isRoot]
    exact .root
  · have different : other ≠ path := by
      intro same
      exact unused (absent.mapped fileId (same ▸ found)) same
    exact .known ⟨different, Or.inl found⟩

/-- An item of a listing that leads around the path is at another path. -/
theorem child_ne {rootId parentPath parentId name fileId : Str}
    (absent : Absent rootId left path system)
    (parent : system.LeadsAround rootId path parentPath parentId)
    (node : system.ops.nodes fileId = some (parentId, name))
    (there : fileId ∉ system.deleted) : join parentPath name ≠ path := by
  intro same
  have child : system.LeadsAround rootId path (join parentPath name) fileId :=
    .child parent node there
  rw [same] at child
  exact absent.leads fileId child

/-- A step that learns only what led around the path before. -/
theorem of_learned {rootId : Str} (absent : Absent rootId left path system)
    (notLocal : next.localOnlyFiles.lookup path = none)
    (cached : ∀ other fileId, next.ops.paths.lookup other = some fileId →
      system.ops.paths.lookup other = some fileId ∨
        other ≠ path ∧ system.LeadsAround rootId path other fileId)
    (resolved : ∀ other fileId, (other, fileId) ∈ next.resolved →
      (other, fileId) ∈ system.resolved ∨
        other ≠ path ∧ system.LeadsAround rootId path other fileId)
    (listed : ∀ other fileId, (other, fileId) ∈ next.listed →
      (other, fileId) ∈ system.listed ∨
        other ≠ path ∧ system.LeadsAround rootId path other fileId)
    (issued : ∀ fileId place, next.ops.nodes fileId = some place → fileId ∉ next.deleted →
      system.ops.nodes fileId = some place ∧ fileId ∉ system.deleted) :
    Absent rootId left path next where
  notLocal := notLocal
  mapped := by
    intro fileId found
    rcases cached path fileId found with before | ⟨different, -⟩
    · exact absent.mapped fileId before
    · exact absurd rfl different
  untold := by
    intro fileId
    constructor
    · intro member
      rcases resolved path fileId member with before | ⟨different, -⟩
      · exact (absent.untold fileId).1 before
      · exact different rfl
    · intro member
      rcases listed path fileId member with before | ⟨different, -⟩
      · exact (absent.untold fileId).2 before
      · exact different rfl
  leads := by
    intro fileId leads
    refine absent.leads fileId (leads.mono (fun other id isKnown => ?_) issued)
    obtain ⟨different, found | member | member⟩ := isKnown
    · rcases cached other id found with before | ⟨-, led⟩
      · exact .known ⟨different, Or.inl before⟩
      · exact led
    · rcases resolved other id member with before | ⟨-, led⟩
      · exact .known ⟨different, Or.inr (Or.inl before)⟩
      · exact led
    · rcases listed other id member with before | ⟨-, led⟩
      · exact .known ⟨different, Or.inr (Or.inr before)⟩
      · exact led

theorem of_kept {rootId : Str} (absent : Absent rootId left path system)
    (notLocal : next.localOnlyFiles.lookup path = none)
    (cached : ∀ other fileId, next.ops.paths.lookup other = some fileId →
      system.ops.paths.lookup other = some fileId)
    (resolved : ∀ pair ∈ next.resolved, pair ∈ system.resolved)
    (listed : ∀ pair ∈ next.listed, pair ∈ system.listed)
    (issued : ∀ fileId place, next.ops.nodes fileId = some place → fileId ∉ next.deleted →
      system.ops.nodes fileId = some place ∧ fileId ∉ system.deleted) :
    Absent rootId left path next :=
  absent.of_learned notLocal (fun other fileId found => Or.inl (cached other fileId found))
    (fun _ _ member => Or.inl (resolved _ member)) (fun _ _ member => Or.inl (listed _ member))
    issued

theorem congr {rootId : Str} (absent : Absent rootId left path system)
    (notLocal : next.localOnlyFiles.lookup path = none)
    (paths : next.ops.paths = system.ops.paths) (nodes : next.ops.nodes = system.ops.nodes)
    (deleted : next.deleted = system.deleted) (resolved : next.resolved = system.resolved)
    (listed : next.listed = system.listed) : Absent rootId left path next := by
  apply absent.of_kept notLocal
  · rw [paths]
    exact fun _ _ => id
  · rw [resolved]
    exact fun _ => id
  · rw [listed]
    exact fun _ => id
  · rw [nodes, deleted]
    exact fun _ _ node there => ⟨node, there⟩

theorem eraseResolved {rootId : Str} (absent : Absent rootId left path system)
    (pair : Str × Str) :
    Absent rootId left path { system with resolved := system.resolved.erase pair } :=
  absent.of_kept absent.notLocal (fun _ _ => id) (fun _ => List.mem_of_mem_erase) (fun _ => id)
    fun _ _ node there => ⟨node, there⟩

theorem invalidatePath {rootId : Str} (absent : Absent rootId left path system) (other : Str) :
    Absent rootId left path (system.invalidatePath other) := by
  refine absent.of_kept absent.notLocal (fun found fileId isFound => ?_) (fun _ => id)
    (fun _ => id) fun _ _ node there => ⟨node, there⟩
  change (system.ops.paths.erase other).lookup found = some fileId at isFound
  rw [Dict.lookup_erase_eq] at isFound
  split at isFound
  · cases isFound
  · exact isFound

theorem endDeletion {rootId : Str} (absent : Absent rootId left path system) (other : Str) :
    Absent rootId left path (system.endDeletion other) :=
  (absent.invalidatePath other).congr absent.notLocal rfl rfl rfl rfl rfl

theorem deleteNode {rootId other : Str} {gone : List Str}
    (absent : Absent rootId left path system)
    (success : system.deleteNode rootId other gone = .ok next) :
    Absent rootId left path next := by
  obtain ⟨fileId, -, -, rfl⟩ := deleteNode_eq_ok success
  refine absent.of_kept absent.notLocal (fun _ _ => id) (fun _ => id) (fun _ => id) ?_
  intro id place node there
  refine ⟨node, fun member => there ?_⟩
  exact Finset.mem_insert_of_mem (Finset.mem_union_right _ member)

theorem unlink {rootId other : Str} {gone : List Str} (absent : Absent rootId left path system)
    (success : system.unlink rootId other gone = .ok next) :
    Absent rootId left path next := by
  rcases unlink_eq_ok success with ⟨tempPath, -, rfl⟩ | ⟨-, deleted⟩
  · refine absent.congr ?_ rfl rfl rfl rfl rfl
    rw [Dict.lookup_erase_eq]
    split
    · rfl
    · exact absent.notLocal
  · exact absent.deleteNode deleted

theorem finishReplacing {rootId : Str} (absent : Absent rootId left path system)
    (replacing : Replacing) (gone : List Str) :
    Absent rootId left path (system.finishReplacing rootId replacing gone) := by
  apply finishReplacing_kept absent
  · intro middle success
    exact absent.unlink success
  · exact fun middle kept => kept.endDeletion _
  · exact fun middle kept => kept.invalidatePath _
  · exact fun middle kept => kept.congr kept.notLocal rfl rfl rfl rfl rfl

/-- A step that could create the path and does not. -/
theorem of_notAgain (absent : Absent settings.rootId left path system) {label : Label}
    (taken : system.step settings label = some next)
    (notAgain : ¬ ∃ next fileId, system.step settings label = some next ∧
      (next.Known path fileId ∧ ¬ system.Known path fileId ∨
        next.LeadsAround settings.rootId path path fileId))
    (notLocal : next.localOnlyFiles.lookup path = none)
    (resolved : next.resolved = system.resolved) (listed : next.listed = system.listed) :
    Absent settings.rootId left path next where
  notLocal := notLocal
  mapped := by
    intro fileId found
    by_cases known : system.Known path fileId
    · obtain before | member | member := known
      · exact absent.mapped fileId before
      · exact absurd member (absent.untold fileId).1
      · exact absurd member (absent.untold fileId).2
    · exact absurd ⟨next, fileId, taken, Or.inl ⟨Or.inl found, known⟩⟩ notAgain
  untold := by
    rw [resolved, listed]
    exact absent.untold
  leads := fun fileId leads => notAgain ⟨next, fileId, taken, Or.inr leads⟩

theorem base (absent : Absent settings.rootId left path system) {label : Fuse.Label}
    {ops : State} (notAgain : ¬ system.CreatesAgain settings path (.base label))
    (unused : left = some path → ¬ Fuse.UsesPath path label)
    (taken : system.step settings (.base label) = some { system with ops := ops })
    (permitted : system.Permits label) (moved : Fuse.Stepped settings system.ops label ops) :
    Absent settings.rootId left path { system with ops := ops } := by
  have kept (notCreate : ∀ fd path uuid suffix now index,
        label ≠ .create fd path uuid suffix now index)
      (notAccept : ∀ slot nodeId modified, label ≠ .accept slot nodeId modified) :
      Absent settings.rootId left path { system with ops := ops } := by
    refine absent.of_learned absent.notLocal (fun other fileId found => ?_)
      (fun _ _ => Or.inl) (fun _ _ => Or.inl) ?_
    · rcases moved.lookup_before notCreate found with
        before | ⟨parentPath, parentId, name, rfl, parent, node, rfl⟩
      · exact Or.inl before
      · have around := absent.around_of_resolve (fun isLeft => unused isLeft) parent
        exact Or.inr ⟨absent.child_ne around node permitted, .child around node permitted⟩
    · rw [moved.nodes_eq notAccept]
      exact fun _ _ node there => ⟨node, there⟩
  cases label with
  | create fd other uuid suffix now index =>
      exact absent.of_notAgain taken notAgain absent.notLocal rfl rfl
  | accept slot nodeId modified =>
      exact absent.of_notAgain taken notAgain absent.notLocal rfl rfl
  | _ => exact kept (by simp) (by simp)

theorem step (absent : Absent settings.rootId left path system) {label : Label}
    (notAgain : ¬ system.CreatesAgain settings path label)
    (unused : left = some path → ¬ UsesPath path label)
    (taken : system.step settings label = some next) :
    Absent settings.rootId left path next := by
  cases stepped_of_step taken with
  | base permitted moved => exact absent.base notAgain unused taken permitted moved
  | @createLocal fd other suffix ready unused isSwap fresh =>
      refine absent.congr ?_ rfl rfl rfl rfl rfl
      rw [Dict.lookup_insert_eq, if_neg (fun same => notAgain same.symm)]
      exact absent.notLocal
  | @renameLocal old new tempPath isSwap found =>
      refine absent.congr ?_ rfl rfl rfl rfl rfl
      rw [Dict.lookup_insert_eq, if_neg (fun same => notAgain same.symm), Dict.lookup_erase_eq]
      split
      · rfl
      · exact absent.notLocal
  | writeLocal opened | truncateLocal opened =>
      unfold changeTemp
      split
      · exact absent.congr absent.notLocal rfl rfl rfl rfl rfl
      · exact absent
  | @look other fileId serves found =>
      have around := absent.around_of_resolve (fun isLeft => unused isLeft) found
      refine absent.of_learned absent.notLocal (fun _ _ => Or.inl) (fun known id member => ?_)
        (fun _ _ => Or.inl) fun _ _ node there => ⟨node, there⟩
      rcases List.mem_cons.mp member with same | earlier
      · cases same
        exact Or.inr ⟨fun same => absent.leads fileId (same ▸ around), around⟩
      · exact Or.inl earlier
  | @list parentPath parentId fileId name told node there =>
      have different : parentPath ≠ path := fun same =>
        (absent.untold parentId).1 (same ▸ told)
      have around : system.LeadsAround settings.rootId path parentPath parentId :=
        .known ⟨different, Or.inr (Or.inl told)⟩
      refine absent.of_learned absent.notLocal (fun _ _ => Or.inl) (fun _ _ => Or.inl)
        (fun known id member => ?_) fun _ _ node there => ⟨node, there⟩
      rcases List.mem_cons.mp member with same | earlier
      · cases same
        exact Or.inr ⟨absent.child_ne around node there, .child around node there⟩
      · exact Or.inl earlier
  | @mapListed other fileId serves answered =>
      have different : other ≠ path := fun same => (absent.untold fileId).2 (same ▸ answered)
      have around : system.LeadsAround settings.rootId path other fileId :=
        .known ⟨different, Or.inr (Or.inr answered)⟩
      refine absent.of_learned absent.notLocal (fun known id found => ?_) (fun _ _ => Or.inl)
        (fun _ _ member => Or.inl (List.mem_of_mem_erase member))
        fun _ _ node there => ⟨node, there⟩
      change (system.told other fileId).paths.lookup known = some id at found
      rw [told_lookup] at found
      split at found
      · rename_i same
        cases found
        exact Or.inr ⟨same ▸ different, same ▸ around⟩
      · exact Or.inl found
  | looked told => exact absent.eraseResolved _
  | @openResolved fd other fileId isTruncate suffix ops told moved =>
      refine (absent.eraseResolved (other, fileId)).congr absent.notLocal rfl ?_ rfl rfl rfl
      exact moved.nodes_eq (by simp)
  | @replaceResolved old new newId second _ _ _ _ _ told _ _ =>
      exact (absent.eraseResolved (new, newId)).congr absent.notLocal rfl rfl rfl rfl rfl
  | replaceEnd present point taken => exact absent.finishReplacing _ _
  | rename serves found parent onDrive isFolder =>
      exact absent.of_notAgain taken notAgain absent.notLocal rfl rfl
  | mkdir serves parent isFolder issued recorded =>
      exact absent.of_notAgain taken notAgain absent.notLocal rfl rfl
  | unlink serves taken success => exact absent.unlink success
  | rmdir serves taken success => exact absent.deleteNode success
  | invalidated serves member => exact absent.endDeletion _
  | crash =>
      exact absent.of_kept rfl nofun (fun _ => nofun) (fun _ => nofun)
        fun _ _ node there => ⟨node, there⟩
  | openLocal _ _ | releaseLocal _ | replace _ _ _ _ _ _ | replaceEnqueue _ _ _
  | replaceEnqueued _ _ _ _ | replaceEdit _ _ _ =>
      exact absent.congr absent.notLocal rfl rfl rfl rfl rfl

theorem dropped {rootId : Str} (absent : Absent rootId left path system)
    (unmapped : system.ops.paths.lookup path = none) : Absent rootId none path system where
  notLocal := absent.notLocal
  mapped := by simp [unmapped]
  untold := absent.untold
  leads := absent.leads

end Absent

end Absent

section Gone

variable {settings : Settings} {system next : FileSystem} {left : Option Str} {path : Str}
  {file : Option Str}

/-- The file is away from its path and from everybody who had it. -/
structure Gone (settings : Settings) (left : Option Str) (path : Str) (file : Option Str)
    (system : FileSystem) : Prop where
  absent : Absent settings.rootId left path system
  removed : ∀ fileId ∈ file, Removed settings.rootId left fileId system

theorem Gone.stays (gone : Gone settings none path file system) :
    StaysDeleted settings path file system where
  enoent := gone.absent.getattrFails
  uploads := fun fileId member label =>
    (gone.removed fileId member).unattended.withdrawn.not_uploads label
  replaces := by
    intro new second
    simp only [FileSystem.step, replacingStep, gone.absent.copyStep_eq_none]
    exact Option.bind_fun_none _
  replacesResolved := by
    intro new newId second
    simp only [FileSystem.step, replacingStep, gone.absent.copyStep_eq_none]
    split <;> rfl

theorem Gone.step (gone : Gone settings left path file system) {label : Label}
    (isPath : ∀ other, left = some other → other = path)
    (goesOn : system.GoesOn settings path file label)
    (unused : left = some path → ¬ UsesPath path label)
    (taken : system.step settings label = some next) :
    Gone settings left path file next where
  absent := gone.absent.step goesOn.1 unused taken
  removed := by
    intro fileId member
    refine (gone.removed fileId member).step ?_ ?_ (stepped_of_step taken)
    · rw [← Option.mem_def.mp member]
      exact goesOn.2
    · intro other isLeft
      have same := isPath other isLeft
      rw [same] at isLeft ⊢
      exact unused isLeft

theorem Gone.dropped (gone : Gone settings (some path) path file system)
    (unmapped : system.ops.paths.lookup path = none) : Gone settings none path file system where
  absent := gone.absent.dropped unmapped
  removed := by
    intro fileId member
    have removed := gone.removed fileId member
    refine removed.dropped fun other found => ?_
    have same := removed.unattended.mapped other found
    cases same
    rw [unmapped] at found
    cases found

theorem Gone.returned (gone : Gone settings (some path) path file system)
    (taken : system.step settings (.invalidated path) = some next) :
    Gone settings none path file next := by
  cases stepped_of_step taken with
  | invalidated serves member =>
      refine Gone.dropped ⟨gone.absent.endDeletion path, fun fileId isFile => ?_⟩ ?_
      · exact (gone.removed fileId isFile).endDeletion path
      · change (system.ops.paths.erase path).lookup path = none
        rw [Dict.lookup_erase_eq, if_pos rfl]

theorem Idle.removed {rootId fileId : Str} {gone : List Str}
    (idle : system.Idle rootId path fileId) (placed : Upload.Placed system.ops.uploads)
    (onDrive : system.OnDrive fileId) :
    Removed rootId (some path) fileId (system.deletedOnDrive path fileId gone) where
  unattended :=
    ⟨placed, idle.withdrawn, fun other isMapped => by rw [idle.mapped other isMapped],
      idle.writers, idle.closing⟩
  untold := fun other => idle.untold other fileId (Or.inr rfl)
  issued := onDrive.1
  deleted := Finset.mem_insert_self _ _
  replacing := idle.replacing
  notRoot := idle.notRoot

theorem Idle.absent {rootId fileId : Str} {gone : List Str}
    (idle : system.Idle rootId path fileId)
    (notLocal : system.localOnlyFiles.lookup path = none)
    (alone : ∀ other, ¬ Leads rootId (system.KnownAround path) system.ops.nodes
      (insert fileId system.deleted) path other) :
    Absent rootId (some path) path (system.deletedOnDrive path fileId gone) where
  notLocal := notLocal
  mapped := fun _ _ => rfl
  untold := fun other => idle.untold path other (Or.inl rfl)
  leads := by
    intro other leads
    refine alone other (leads.mono (fun found id isKnown => .known isKnown) ?_)
    intro id place node there
    refine ⟨node, fun member => there ?_⟩
    rcases Finset.mem_insert.mp member with same | earlier
    · exact same ▸ Finset.mem_insert_self _ _
    · exact Finset.mem_insert_of_mem (Finset.mem_union_right _ earlier)

theorem Stepped.placed {label : Label} (stepped : Stepped settings system label next)
    (placed : Upload.Placed system.ops.uploads) : Upload.Placed next.ops.uploads := by
  cases stepped with
  | base permitted moved => exact moved.placed placed
  | @openResolved fd path fileId isTruncate suffix ops told moved =>
      have opened : Upload.Placed ops.uploads := moved.placed placed
      exact opened
  | replaceEnqueue present point begun => exact placed.step begun
  | writeLocal opened | truncateLocal opened =>
      unfold changeTemp
      split <;> exact placed
  | replace _ _ _ _ _ _ | replaceResolved _ _ _ _ _ _ =>
      exact ⟨placed.queue, placed.saved, placed.slots⟩
  | @replaceEnd edit replacing gone present point taken =>
      rw [(finishReplacing_ops system settings.rootId replacing gone).1]
      exact placed
  | unlink serves taken removed =>
      rcases unlink_eq_ok removed with ⟨tempPath, -, rfl⟩ | ⟨-, deleted⟩
      · exact placed
      · obtain ⟨fileId, -, -, rfl⟩ := deleteNode_eq_ok deleted
        exact placed
  | rmdir serves taken removed =>
      obtain ⟨fileId, -, -, rfl⟩ := deleteNode_eq_ok removed
      exact placed
  | crash =>
      have crashed : Upload.Stepped 0 system.ops.uploads .crash system.ops.uploads.crash := .crash
      exact placed.step crashed
  | createLocal _ _ _ _ | openLocal _ _ | releaseLocal _ | renameLocal _ _ | look _ _
  | list _ _ _ | mapListed _ _ | looked _ | replaceEnqueued _ _ _ _ | replaceEdit _ _ _
  | rename _ _ _ _ _ | mkdir _ _ _ _ _ | invalidated _ _ => exact placed

/-- A deletion under way stays until it returns. -/
theorem Stepped.deleting_kept {label : Label} (stepped : Stepped settings system label next)
    (stays : StaysInCall path system label) (member : path ∈ system.deleting) :
    path ∈ next.deleting := by
  cases stepped with
  | writeLocal opened | truncateLocal opened =>
      unfold changeTemp
      split <;> exact member
  | @replaceEnd edit replacing gone present point taken =>
      rw [finishReplacing_deleting]
      exact member
  | unlink serves taken removed =>
      rcases unlink_eq_ok removed with ⟨tempPath, -, rfl⟩ | ⟨-, deleted⟩
      · exact member
      · obtain ⟨fileId, -, -, rfl⟩ := deleteNode_eq_ok deleted
        exact List.mem_cons_of_mem _ member
  | rmdir serves taken removed =>
      obtain ⟨fileId, -, -, rfl⟩ := deleteNode_eq_ok removed
      exact List.mem_cons_of_mem _ member
  | invalidated serves other => exact (List.mem_erase_of_ne stays.symm).mpr member
  | crash => exact stays.elim
  | _ => exact member

/-- In every run, with crashes or without, a file that is local-only or idle on
Drive and alone at its path is deleted for good. -/
theorem deletesForGood {start : FileSystem} (started : Started start)
    (reached : Reaches (FileSystem.step settings) (fun _ _ => True) start system)
    (quota : system.ops.uploads.quotaExceeded = false)
    (deletable : Deletable settings.rootId system path) :
    DeletesForGood settings system path := by
  have placed : Upload.Placed system.ops.uploads :=
    reached.invariant (fun placed _ taken => (stepped_of_step taken).placed placed)
      started.mounted.journaled.placed
  -- what is there when `unlink` returns is kept by every step that goes on
  have lasts {returned later : FileSystem}
      (gone : Gone settings none path (system.fileAt settings.rootId path) returned)
      (rest : Reaches (FileSystem.step settings)
        (GoesOn settings path (system.fileAt settings.rootId path)) returned later) :
      StaysDeleted settings path (system.fileAt settings.rootId path) later :=
    (rest.invariant (fun gone goesOn taken => gone.step nofun goesOn nofun taken) gone).stays
  intro gone taken
  cases deletable with
  | @localOnly tempPath found alone =>
      refine ⟨{ system with
        localOnlyFiles := system.localOnlyFiles.erase path
        temps := system.temps.erase tempPath }, ?_, ?_, ?_⟩
      · simp only [unlink, found]
      · intro notLocal
        rw [found] at notLocal
        cases notLocal
      · intro returned isReturned later rest
        cases isReturned with
        | onDrive notLocal _ _ =>
            rw [found] at notLocal
            cases notLocal
        | localOnly _ =>
            refine lasts ⟨⟨?_, ?_, ?_, ?_⟩, ?_⟩ rest
            · rw [Dict.lookup_erase_eq, if_pos rfl]
            · exact fun fileId known => absurd (.known (Or.inl known)) (alone fileId)
            · exact fun fileId => ⟨fun member => alone fileId (.known (Or.inr (Or.inl member))),
                fun member => alone fileId (.known (Or.inr (Or.inr member)))⟩
            · intro fileId leads
              refine alone fileId (leads.mono (fun other id isKnown => .known isKnown.2) ?_)
              exact fun _ _ node there => ⟨node, there⟩
            · simp [fileAt, found]
  | @onDrive fileId notLocal found onDrive idle alone =>
      have isFile : system.fileAt settings.rootId path = some fileId := by
        rw [fileAt, notLocal, found]
      have deleted : Gone settings (some path) path (system.fileAt settings.rootId path)
          (system.deletedOnDrive path fileId gone) := by
        refine ⟨idle.absent notLocal alone, fun other member => ?_⟩
        rw [isFile] at member
        cases member
        exact idle.removed placed onDrive
      refine ⟨system.deletedOnDrive path fileId gone, ?_, ?_, ?_⟩
      · simp [unlink, notLocal, quota, deleteNode, found, onDrive]
      · intro _ answered waits serves
        have member : path ∈ answered.deleting :=
          waits.invariant
            (fun member stays taken => (stepped_of_step taken).deleting_kept stays member)
            List.mem_cons_self
        exact ⟨_, if_pos ⟨serves, member⟩⟩
      · intro returned isReturned later rest
        cases isReturned with
        | localOnly isLocal =>
            rw [notLocal] at isLocal
            cases isLocal
        | onDrive _ meanwhile invalidated =>
            have answered := meanwhile.invariant (fun gone goesOn taken =>
              gone.step (fun _ => fun same => (Option.some.inj same).symm) goesOn.1
                (fun _ => goesOn.2) taken) deleted
            exact lasts (answered.returned invalidated) rest

end Gone

/-! ## One deletion that lasts and one that does not happen -/

/-- A listing of the root is about to ask Drive. -/
def listingRoot : FileSystem :=
  { mounted (Fuse.mount [1]) with resolved := [(['/'], defaults.rootId)] }

theorem listingRoot_reached : Reaches (FileSystem.step defaults) (fun _ _ => True)
    (mounted (Fuse.mount [1])) listingRoot := by
  have executed : run (FileSystem.step defaults) (mounted (Fuse.mount [1])) [.look ['/']] =
      some listingRoot := rfl
  exact Reaches.of_free_run executed

theorem listingRoot_paths (path : Str) : listingRoot.ops.paths.lookup path =
    if path = ['/', 'f'] then some ['f'] else none :=
  Dict.lookup_insert_eq ..

theorem listingRoot_nodes {fileId : Str} {place : Str × Str}
    (node : listingRoot.ops.nodes fileId = some place) : fileId = ['f'] := by
  change (if fileId = ['f'] then some (['r'], ['f']) else none) = some place at node
  split at node
  · assumption
  · cases node

theorem idle_listingRoot : listingRoot.Idle defaults.rootId ['/', 'f'] ['f'] where
  withdrawn := ⟨nofun, nofun, fun _ => nofun, nofun⟩
  mapped := by
    intro other isMapped
    rw [listingRoot_paths] at isMapped
    split at isMapped
    · assumption
    · cases isMapped
  untold := by
    intro other id isFile
    refine ⟨fun member => ?_, List.not_mem_nil⟩
    have isRoot := List.mem_singleton.mp member
    rw [Prod.mk.injEq] at isRoot
    obtain ⟨rfl, rfl⟩ := isRoot
    revert isFile
    decide
  writers := fun _ _ => nofun
  closing := fun _ _ => nofun
  replacing := fun _ => nofun
  notRoot := by decide

theorem deletable_listingRoot : Deletable defaults.rootId listingRoot ['/', 'f'] := by
  refine .onDrive rfl rfl (by decide) idle_listingRoot fun other leads => ?_
  have isRoot := leads.eq_root (fun found id isKnown => ?_) fun id place node => ?_
  · cases isRoot
  · obtain ⟨different, isMapped | member | member⟩ := isKnown
    · rw [listingRoot_paths, if_neg different] at isMapped
      cases isMapped
    · exact (Prod.mk.inj (List.mem_singleton.mp member)).1
    · cases member
  · rw [listingRoot_nodes node]
    exact Finset.mem_insert_self _ _

theorem deletesForGood_listingRoot : DeletesForGood defaults listingRoot ['/', 'f'] :=
  deletesForGood (started_mounted [1]) listingRoot_reached rfl deletable_listingRoot

/-- `unlink` knows no file that was never uploaded. -/
theorem unlink_fails_on_new_file :
    ¬ ∀ (start system : FileSystem) (path : Str) (size : Nat), Started start →
      Reaches (FileSystem.step defaults) (fun _ _ => True) start system →
      system.ops.uploads.quotaExceeded = false →
      system.getattr defaults.rootId path = some ⟨false, size⟩ →
      DeletesForGood defaults system path := by
  intro holds
  let creates : List Label := [.base (.create 0 ['/', 'g'] ['u'] ['x'] 0 0)]
  have created : (run (FileSystem.step defaults) (mounted (Fuse.mount [1])) creates).map
      (fun system => (system.ops.uploads.quotaExceeded,
        system.getattr defaults.rootId ['/', 'g'],
        system.mayTake defaults.rootId ['/', 'g'] [],
        (system.unlink defaults.rootId ['/', 'g'] []).toOption.isSome)) =
      some (false, some ⟨false, 0⟩, true, false) := rfl
  obtain ⟨system, executed, facts⟩ := Option.map_eq_some_iff.mp created
  rw [Prod.mk.injEq, Prod.mk.injEq, Prod.mk.injEq] at facts
  obtain ⟨quota, attributes, taken, fails⟩ := facts
  obtain ⟨begun, unlinked, -⟩ := holds _ system _ 0 (started_mounted [1])
    (Reaches.of_free_run executed) quota attributes [] taken
  rw [unlinked] at fails
  cases fails

end FileSystem

end FuseDrive.Fuse
