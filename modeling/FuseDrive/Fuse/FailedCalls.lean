import FuseDrive.Fuse.SharedDirectories
import FuseDrive.JournalNames

/-!
# Calls that fail

The operations that make, move and delete names, with what `FuseOps` keeps of
files besides its paths: `open_files`, the temporary files of
`local_only_files`, and the temporary files that `mkstemp` makes or refuses.

A call that raises should be as if its paths had only been looked up.  One does
not manage: `create` puts the id of the new file into the cache before it asks
for the journal file.
-/

namespace FuseDrive.Fuse

open Program (Executes ErrorsKeep NeverRaises perform raise)

/-- Where a temporary file is made. -/
inductive TempDir where
  | system
  | journal
deriving DecidableEq

/-- The values of `open_files`. -/
inductive OpenFile where
  | localOnly (path tempPath : Str) (isModified isWrite : Bool)
  | created (path tempPath : Str) (fileId parentId : NodeId) (name : Str)
  | edit (path tempPath : Str) (fileId : NodeId) (isModified baseDownloaded : Bool)
  | reading (path : Str) (fileId : NodeId)

/-- `localTemps` has the values of `local_only_files`, whose keys are in
`paths`.  `refused` is a history: where no temporary file could be made. -/
structure FileWorld where
  paths : World
  localTemps : Dict Str Str
  openFiles : Dict Nat OpenFile
  nextFd : Nat
  refused : List TempDir

inductive Access where
  | path (request : Request)
  | setLocalOnly (path tempPath : Str)
  | popLocalOnly (path : Str)
  | moveLocalOnly (old new : Str)
  | mkstemp (dir : TempDir) (start : Str)
  | takeFd
  | openFile (fd : Nat) (file : OpenFile)

/-- `none` for a temporary file stands for an exception. -/
@[reducible] def Access.Answer : Access → Type
  | .path request => request.Answer
  | .mkstemp _ _ => Option Str
  | .takeFd => Nat
  | .setLocalOnly _ _ | .popLocalOnly _ | .moveLocalOnly _ _ | .openFile _ _ => Unit

abbrev Act (α : Type) := Program Access Access.Answer Errno α

/-- A program on paths alone. -/
def onPaths {α : Type} : Op α → Act α
  | .done result => .done result
  | .ask request next => .ask (.path request) fun answer => onPaths (next answer)

/-- What `mkstemp` names the file of a swap file. -/
def swapPrefix : Str := ['f', 'u', 's', 'e', '_', 's', 'w', 'a', 'p', '_']

namespace Files

/-! ## Operations -/

/-- What `create` does once it has found the directory. -/
def createBelow (parentId : NodeId) (path : Str) : Act Nat := do
  let fakeId ← perform (Access.path (.newLocalId parentId (basename path)))
  perform (Access.path (.mapPathToNodeId path fakeId))
  let fd ← perform Access.takeFd
  match ← perform (Access.mkstemp .journal (createJournalName parentId.1 (basename path) [])) with
  | none => raise .exception
  | some tempPath =>
      perform (Access.openFile fd (.created path tempPath fakeId parentId (basename path)))
      pure fd

section Operations

variable (rootId : NodeId)

def create (path : Str) : Act Nat :=
  if isTemporaryEditorSwapFile (basename path) then do
    match ← perform (Access.mkstemp .system swapPrefix) with
    | none => raise .exception
    | some tempPath =>
        perform (Access.setLocalOnly path tempPath)
        let fd ← perform Access.takeFd
        perform (Access.openFile fd (.localOnly path tempPath true true))
        pure fd
  else do
    let exceeded ← perform (Access.path .isQuotaExceeded)
    if exceeded then raise .enospc
    else
      match ← onPaths (resolvePath rootId (dirname path)) with
      | none => raise .enoent
      | some parentId => createBelow parentId path

def mkdir (path : Str) : Act Unit := onPaths (Fuse.mkdir rootId path)

def rmdir (path : Str) : Act Unit := onPaths (Fuse.rmdir rootId path)

def unlink (path : Str) : Act Unit := do
  let isLocal ← perform (Access.path (.isLocalOnly path))
  if isLocal then perform (Access.popLocalOnly path)
  else
    let exceeded ← perform (Access.path .isQuotaExceeded)
    if exceeded then raise .enospc
    else onPaths (deleteNode rootId path)

def renameOntoDrive (old new : Str) (newId : NodeId) : Act Unit := do
  let copied ← perform (Access.path (.copyAndEnqueue old newId))
  if copied then
    unlink rootId old
    perform (Access.path (.invalidatePath new))
  else raise .exception

def rename (old new : Str) : Act Unit := do
  let isLocal ← perform (Access.path (.isLocalOnly old))
  if isLocal then
    if isTemporaryEditorSwapFile new then perform (Access.moveLocalOnly old new)
    else
      match ← onPaths (resolvePath rootId new) with
      | some newId => renameOntoDrive rootId old new newId
      | none => onPaths (renameOnDrive rootId old new)
  else onPaths (renameOnDrive rootId old new)

end Operations

end Files

inductive FileCall where
  | create (path : Str)
  | mkdir (path : Str)
  | rename (old new : Str)
  | unlink (path : Str)
  | rmdir (path : Str)

def FileCall.program (rootId : NodeId) : FileCall → Act Unit
  | .create path => do
      let _ ← Files.create rootId path
      pure ()
  | .mkdir path => Files.mkdir rootId path
  | .rename old new => Files.rename rootId old new
  | .unlink path => Files.unlink rootId path
  | .rmdir path => Files.rmdir rootId path

def FileCall.Proper : FileCall → Prop
  | .create path | .mkdir path | .unlink path | .rmdir path => IsChildPath path
  | .rename old new => IsChildPath old ∧ IsChildPath new

/-! ## The world of the operations -/

/-- The answer to an access and the world after it. -/
def serveAccess (settings : CacheSettings) (choice : Choice) (temp : Option Str)
    (world : FileWorld) : (access : Access) → access.Answer × FileWorld
  | .path request =>
      ((serve settings choice world.paths request).1,
        { world with paths := (serve settings choice world.paths request).2 })
  | .setLocalOnly path tempPath =>
      ((), { world with
        paths := { world.paths with localOnlyFiles := world.paths.localOnlyFiles.insert path }
        localTemps := world.localTemps.insert path tempPath })
  | .popLocalOnly path =>
      ((), { world with
        paths := { world.paths with
          localOnlyFiles := world.paths.localOnlyFiles.filter (· ≠ path) }
        localTemps := world.localTemps.erase path })
  | .moveLocalOnly old new =>
      ((), { world with
        paths := { world.paths with
          localOnlyFiles := (world.paths.localOnlyFiles.filter (· ≠ old)).insert new }
        localTemps :=
          match world.localTemps.lookup old with
          | some tempPath => (world.localTemps.erase old).insert new tempPath
          | none => world.localTemps })
  | .mkstemp dir _ =>
      match temp with
      | some tempPath => (some tempPath, world)
      | none => (none, { world with refused := dir :: world.refused })
  | .takeFd => (world.nextFd, { world with nextFd := world.nextFd + 1 })
  | .openFile fd file => ((), { world with openFiles := world.openFiles.insert fd file })

/-- A new id is one that nobody has. -/
def Choice.New (unused : NodeId → Prop) (choice : Choice) : Access → Prop
  | .path (.newLocalId _ _) => unused choice.newId
  | _ => True

/-- What a full map evicts. -/
def Choice.ValidFor (settings : CacheSettings) (choice : Choice) (world : FileWorld) :
    Access → Prop
  | .path request => choice.Valid settings world.paths request
  | _ => True

/-- What is allowed concerns the requests on paths. -/
def Choice.AllowedFor (allows : World → Request → Choice → Prop) (choice : Choice)
    (world : FileWorld) : Access → Prop
  | .path request => allows world.paths request choice
  | _ => True

/-- What happens to paths by itself is `drifts`. -/
def looking (settings : CacheSettings) (allows : World → Request → Choice → Prop)
    (drifts : World → World → Prop) : Program.Environment World Request Request.Answer where
  serves := (environment settings allows fun _ _ => False).serves
  drifts := drifts

def filingWith (settings : CacheSettings) (allows : World → Request → Choice → Prop)
    (unused : NodeId → Prop) (drifts : World → World → Prop) :
    Program.Environment FileWorld Access Access.Answer where
  serves world access answer later :=
    ∃ (choice : Choice) (temp : Option Str), choice.ValidFor settings world access ∧
      choice.AllowedFor allows world access ∧ choice.New unused access ∧
      serveAccess settings choice temp world access = (answer, later)
  drifts world later :=
    ∃ paths, drifts world.paths paths ∧ later = { world with paths := paths }

/-- Any access may fail and any entry be evicted. -/
abbrev filing (settings : CacheSettings) (unused : NodeId → Prop)
    (drifts : World → World → Prop) : Program.Environment FileWorld Access Access.Answer :=
  filingWith settings (fun _ _ _ => True) unused drifts

/-! ## What a failed call leaves -/

section Property

variable (settings : CacheSettings) (allows : World → Request → Choice → Prop) (rootId : NodeId)
  (drifts : World → World → Prop)

/-- A path is looked up, with a result or with an error. -/
def LooksUp (world later : World) : Prop :=
  ∃ (path : Str) (result : Except Errno (Option NodeId)), IsPath path ∧
    Executes (looking settings allows drifts) world (resolvePath rootId path) result later

/-- Paths have only been looked up. -/
structure Seen (world later : World) : Prop where
  localOnlyFiles : later.localOnlyFiles = world.localOnlyFiles
  looked : Relation.ReflTransGen (LooksUp settings allows rootId drifts) world later

/-- The file system is as if paths had only been looked up. -/
structure AsBefore (world later : FileWorld) : Prop where
  openFiles : later.openFiles = world.openFiles
  localTemps : later.localTemps = world.localTemps
  seen : Seen settings allows rootId drifts world.paths later.paths

end Property

/-! ## Paths that are only looked up -/

section Paths

variable {settings : CacheSettings} {allows : World → Request → Choice → Prop} {rootId : NodeId}
  {drifts : World → World → Prop}

/-- What happens by itself leaves the local-only files alone. -/
def KeepsLocalOnly (drifts : World → World → Prop) : Prop :=
  ∀ ⦃world later⦄, drifts world later → later.localOnlyFiles = world.localOnlyFiles

theorem KeepsLocalOnly.of_drifts (keeps : KeepsLocalOnly drifts) {world later : World}
    (drifted : Relation.ReflTransGen drifts world later) :
    later.localOnlyFiles = world.localOnlyFiles := by
  induction drifted with
  | refl => rfl
  | tail _ last induction => exact (keeps last).trans induction

theorem Seen.trans {world middle later : World} (first : Seen settings allows rootId drifts world middle)
    (second : Seen settings allows rootId drifts middle later) :
    Seen settings allows rootId drifts world later :=
  ⟨second.localOnlyFiles.trans first.localOnlyFiles, first.looked.trans second.looked⟩

variable (keeps : KeepsLocalOnly drifts)

include keeps

theorem Seen.of_drifts {world later : World}
    (drifted : Relation.ReflTransGen (looking settings allows drifts).drifts world later) :
    Seen settings allows rootId drifts world later := by
  induction drifted with
  | refl => exact ⟨rfl, .refl⟩
  | tail _ last induction =>
      refine induction.trans ⟨keeps last, .single ⟨['/'], _, .root, .drift last .done⟩⟩

theorem Seen.of_resolvePath {path : Str} (isPath : IsPath path) {world later : World}
    {result : Except Errno (Option NodeId)}
    (execution : Executes (looking settings allows drifts) world (resolvePath rootId path) result later) :
    Seen settings allows rootId drifts world later := by
  refine ⟨?_, .single ⟨path, result, isPath, execution⟩⟩
  refine execution.keeps (fun after => after.localOnlyFiles = world.localOnlyFiles)
    (fun holds drifted => (keeps drifted).trans holds) ?_ (resolvePath_onlyAsks path) rfl
  rintro before request answer after holds looks ⟨choice, -, -, same⟩
  have after_eq : after = (serve settings choice before request).2 := by rw [same]
  rw [after_eq]
  exact (serve_of_looks looks).2.trans holds

end Paths

/-! ## What a look at paths leaves -/

section Truth

variable {settings : CacheSettings} {rootId : NodeId}

/-- Drive lists the file under the name of the path. -/
def DriveTree.Lists (tree : DriveTree) (path : Str) (fileId : NodeId) : Prop :=
  ∃ (dirId : NodeId) (dirPath : Str), ∃ item ∈ tree.listChildren dirId,
    path = join dirPath item.name ∧ fileId = item.fileId

/-- The cache has what it had, and what Drive lists. -/
structure Truthful (world later : World) : Prop where
  drive : later.drive = world.drive
  mapped : ∀ {path fileId}, later.mapped path = some fileId →
    world.mapped path = some fileId ∨ world.drive.Lists path fileId
  shown : ∀ {parent child}, child ∈ later.cache.getChildrenPaths parent →
    child ∈ world.cache.getChildrenPaths parent ∨ ∃ fileId, world.drive.Lists child fileId
  stillShown : ∀ {parent child}, child ∈ world.cache.getChildrenPaths parent →
    child ∈ later.cache.getChildrenPaths parent

namespace Truthful

theorem refl (world : World) : Truthful world world := ⟨rfl, .inl, .inl, id⟩

theorem trans {world middle later : World} (first : Truthful world middle)
    (second : Truthful middle later) : Truthful world later where
  drive := second.drive.trans first.drive
  mapped found := (second.mapped found).elim first.mapped fun lists => .inr (first.drive ▸ lists)
  shown member := (second.shown member).elim first.shown fun lists => .inr (first.drive ▸ lists)
  stillShown member := second.stillShown (first.stillShown member)

theorem of_map {world : World} {choice : Choice} {path : Str} {fileId : NodeId}
    (lists : world.drive.Lists path fileId) :
    Truthful world (serve settings choice world (.mapPathToNodeId path fileId)).2 := by
  refine ⟨rfl, fun {other otherId} found => ?_, fun {parent child} member => ?_,
    fun {parent child} member => ?_⟩
  · rw [World.mapped, serve, PathCache.resolve_mapPathToNodeId] at found
    split at found
    · rename_i same
      cases found
      exact .inr (same ▸ lists)
    · split at found
      · cases found
      · exact .inl found
  · rcases (world.cache.mem_getChildrenPaths_map settings choice.victim path parent child
      fileId).mp member with was | ⟨rfl, -⟩
    · exact .inl was
    · exact .inr ⟨fileId, lists⟩
  · exact (world.cache.mem_getChildrenPaths_map settings choice.victim path parent child
      fileId).mpr (.inl member)

theorem of_mapChildren {dirId : NodeId} {path : Str} {items : List Item} {world later : World}
    {result : Except Errno Unit}
    (listed : ∀ item ∈ items, item ∈ world.drive.listChildren dirId)
    (execution : Executes (steady settings) world (mapChildren path items) result later) :
    Truthful world later := by
  induction items generalizing world with
  | nil =>
      obtain ⟨-, rfl⟩ := steady_of_done execution
      exact refl _
  | cons item items induction =>
      obtain ⟨choice, -, rest⟩ := steady_of_perform execution
      have itemListed := listed item List.mem_cons_self
      have mapped : Truthful world (serve settings choice world
          (.mapPathToNodeId (join path item.name) item.fileId)).2 :=
        of_map ⟨dirId, path, item, itemListed, rfl, rfl⟩
      refine mapped.trans (induction (fun other member => ?_) rest)
      exact listed other (List.mem_cons_of_mem _ member)

theorem of_loadChildren {dirId : NodeId} {path : Str} {world later : World}
    {result : Except Errno Unit}
    (execution : Executes (steady settings) world (loadChildren dirId path) result later) :
    Truthful world later := by
  obtain ⟨_, -, checking⟩ := steady_of_perform execution
  change Executes (steady settings) world
    (if world.cache.isDirectoryChildrenLoaded dirId then _ else _ : Op Unit) _ _ at checking
  split at checking
  · obtain ⟨-, rfl⟩ := steady_of_done checking
    exact refl _
  · obtain ⟨choice, -, answered⟩ := steady_of_perform checking
    cases fails : choice.fails with
    | some errno =>
        rw [serve_listChildren_failed fails] at answered
        obtain ⟨-, rfl⟩ := steady_of_done answered
        exact refl _
    | none =>
        rw [serve_listChildren fails] at answered
        rcases answered.of_bind with ⟨_, -, raised⟩ | ⟨_, mapped, mapping, marking⟩
        · have truthful := of_mapChildren (fun _ => id) raised
          exact ⟨truthful.drive, truthful.mapped, truthful.shown, truthful.stillShown⟩
        · have truthful := of_mapChildren (fun _ => id) mapping
          obtain ⟨mark, -, marked⟩ := steady_of_ask marking
          obtain ⟨-, rfl⟩ := steady_of_done marked
          exact ⟨truthful.drive, truthful.mapped, truthful.shown, truthful.stillShown⟩

theorem of_findBelow {dirId : NodeId} {path : Str} {world later : World}
    {result : Except Errno (Option NodeId)}
    (execution : Executes (steady settings) world (findBelow dirId path) result later) :
    Truthful world later := by
  obtain ⟨_, -, checking⟩ := steady_of_perform execution
  change Executes (steady settings) world
    (if world.cache.isDirectoryChildrenLoaded dirId then _ else _ : Op (Option NodeId)) _ _
    at checking
  split at checking
  · obtain ⟨-, rfl⟩ := steady_of_done checking
    exact refl _
  · rcases checking.of_bind with ⟨_, -, raised⟩ | ⟨_, loaded, loading, asking⟩
    · exact of_loadChildren raised
    · refine (of_loadChildren loading).trans ?_
      obtain ⟨_, -, asked⟩ := steady_of_ask asking
      obtain ⟨-, rfl⟩ := steady_of_done asked
      exact ⟨rfl, .inl, .inl, id⟩

theorem of_resolvePath {path : Str} (isPath : IsPath path) {world later : World}
    {result : Except Errno (Option NodeId)}
    (execution : Executes (steady settings) world (resolvePath rootId path) result later) :
    Truthful world later := by
  induction isPath generalizing world result later with
  | root =>
      obtain ⟨-, rfl⟩ := steady_of_done execution
      exact refl _
  | @child parent name isParent proper induction =>
      rw [resolvePath_join rootId isParent proper] at execution
      obtain ⟨choice, -, asked⟩ := steady_of_perform execution
      have forgets : Truthful world { world with loading := none } := ⟨rfl, .inl, .inl, id⟩
      refine forgets.trans ?_
      cases cached : world.cache.resolvePathToNodeId (join parent name) with
      | some cachedId =>
          have answered : serve settings choice world (.resolvePathToNodeId (join parent name)) =
              (some cachedId, { world with loading := none }) := by
            simp [serve, cached]
          rw [answered] at asked
          obtain ⟨-, rfl⟩ := steady_of_done asked
          exact refl _
      | none =>
          have answered : serve settings choice world (.resolvePathToNodeId (join parent name)) =
              (none, { world with loading := none }) := by
            simp [serve, cached]
          rw [answered] at asked
          rcases asked.of_bind with ⟨_, -, raised⟩ | ⟨found, middle, resolved, ending⟩
          · exact induction raised
          · refine (induction resolved).trans ?_
            cases found with
            | none =>
                obtain ⟨-, rfl⟩ := steady_of_done ending
                exact refl _
            | some parentId => exact of_findBelow ending

end Truthful

/-- Only directories are listed that one path leads to. -/
abbrev gently (settings : CacheSettings) (rootId : NodeId) (world : World) (request : Request)
    (choice : Choice) : Prop :=
  world.Gentle settings rootId request choice

variable {world later : World}

/-- Looking paths up adds nothing to the cache but what Drive lists. -/
theorem Seen.truthful
    (seen : Seen settings (gently settings rootId) rootId (fun _ _ => False) world later) :
    Truthful world later := by
  have looked := seen.looked
  clear seen
  induction looked with
  | refl => exact .refl _
  | tail _ looksUp induction =>
      obtain ⟨path, result, isPath, execution⟩ := looksUp
      exact induction.trans (.of_resolvePath isPath (steady_of_gentle execution))

theorem Seen.kept (tree : world.drive.IsTree)
    (seen : Seen settings (gently settings rootId) rootId (fun _ _ => False) world later) :
    Kept settings rootId world later := by
  have looked := seen.looked
  clear seen
  induction looked with
  | refl => exact .of_alike tree (.refl _)
  | tail _ looksUp induction =>
      obtain ⟨path, result, isPath, execution⟩ := looksUp
      exact induction.trans tree (.of_resolvePath (induction.drive ▸ tree) isPath execution)

end Truth

/-! ## Calls with their files -/

section Calls

variable {settings : CacheSettings} {allows : World → Request → Choice → Prop} {rootId : NodeId}
  {unused : NodeId → Prop} {drifts : World → World → Prop}

theorem executes_onPaths {α : Type} {program : Op α} {result : Except Errno α}
    {world later : FileWorld}
    (execution : Executes (filingWith settings allows unused drifts) world (onPaths program) result later) :
    ∃ paths, later = { world with paths := paths } ∧
      Executes (looking settings allows drifts) world.paths program result paths := by
  generalize whole : onPaths program = composed at execution
  induction execution generalizing program with
  | done =>
      cases program with
      | done ended =>
          cases whole
          exact ⟨_, rfl, .done⟩
      | ask => cases whole
  | drift drifted _ induction =>
      obtain ⟨paths, drifted, rfl⟩ := drifted
      obtain ⟨last, same, execution⟩ := induction whole
      exact ⟨last, same, .drift drifted execution⟩
  | ask served _ induction =>
      cases program with
      | done => cases whole
      | ask request next =>
          cases whole
          obtain ⟨choice, temp, valid, allowed, -, same⟩ := served
          cases same
          obtain ⟨paths, rfl, execution⟩ := induction rfl
          exact ⟨paths, rfl, .ask ⟨choice, valid, allowed, rfl⟩ execution⟩

theorem paths_of_drifts {world later : FileWorld}
    (drifted : Relation.ReflTransGen (filingWith settings allows unused drifts).drifts world later) :
    ∃ paths, Relation.ReflTransGen drifts world.paths paths ∧
      later = { world with paths := paths } := by
  induction drifted with
  | refl => exact ⟨world.paths, .refl, rfl⟩
  | tail _ last induction =>
      obtain ⟨before, drifted, rfl⟩ := induction
      obtain ⟨paths, once, rfl⟩ := last
      exact ⟨paths, drifted.tail once, rfl⟩

/-- As before, and all temporary files were made. -/
structure Quiet (settings : CacheSettings) (allows : World → Request → Choice → Prop)
    (rootId : NodeId) (drifts : World → World → Prop)
    (world later : FileWorld) : Prop extends AsBefore settings allows rootId drifts world later where
  refused : later.refused = world.refused

namespace Quiet

theorem refl (world : FileWorld) : Quiet settings allows rootId drifts world world :=
  ⟨⟨rfl, rfl, rfl, .refl⟩, rfl⟩

theorem trans {world middle later : FileWorld} (first : Quiet settings allows rootId drifts world middle)
    (second : Quiet settings allows rootId drifts middle later) :
    Quiet settings allows rootId drifts world later where
  openFiles := second.openFiles.trans first.openFiles
  localTemps := second.localTemps.trans first.localTemps
  seen := first.seen.trans second.seen
  refused := second.refused.trans first.refused

theorem of_seen {world : FileWorld} {paths : World}
    (seen : Seen settings allows rootId drifts world.paths paths) :
    Quiet settings allows rootId drifts world { world with paths := paths } :=
  ⟨⟨rfl, rfl, seen⟩, rfl⟩

theorem of_drifts (keeps : KeepsLocalOnly drifts) {world later : FileWorld}
    (drifted : Relation.ReflTransGen (filingWith settings allows unused drifts).drifts world later) :
    Quiet settings allows rootId drifts world later := by
  obtain ⟨paths, pathsDrifted, rfl⟩ := paths_of_drifts drifted
  exact of_seen (.of_drifts keeps pathsDrifted)

theorem of_resolvePath (keeps : KeepsLocalOnly drifts) {path : Str} (isPath : IsPath path)
    {world later : FileWorld} {result : Except Errno (Option NodeId)}
    (execution : Executes (filingWith settings allows unused drifts) world
      (onPaths (resolvePath rootId path)) result later) :
    Quiet settings allows rootId drifts world later := by
  obtain ⟨paths, rfl, looking⟩ := executes_onPaths execution
  exact of_seen (.of_resolvePath keeps isPath looking)

end Quiet

theorem answered_of_perform {α : Type} {access : Access} {next : access.Answer → Act α}
    {result : Except Errno α} {world later : FileWorld}
    (execution : Executes (filingWith settings allows unused drifts) world (perform access >>= next)
      result later) :
    ∃ (before : FileWorld) (choice : Choice) (temp : Option Str),
      Relation.ReflTransGen (filingWith settings allows unused drifts).drifts world before ∧
      choice.New unused access ∧
      Executes (filingWith settings allows unused drifts) (serveAccess settings choice temp before access).2
        (next (serveAccess settings choice temp before access).1) result later := by
  obtain ⟨before, answer, after, drifted, ⟨choice, temp, -, -, new, same⟩, rest⟩ :=
    execution.of_perform
  refine ⟨before, choice, temp, drifted, new, ?_⟩
  rw [same]
  exact rest

variable (keeps : KeepsLocalOnly drifts)

include keeps

end Calls

section Property

variable {settings : CacheSettings} {rootId : NodeId} {unused : NodeId → Prop}

/-- Nobody has an id that can still be given. -/
def FileWorld.Fresh (world : FileWorld) (unused : NodeId → Prop) : Prop :=
  ∀ fileId, unused fileId → (∀ path, world.paths.mapped path ≠ some fileId) ∧
    ∀ path, ¬ world.paths.drive.Lists path fileId

end Property

/-! ## A file that the journal refuses -/

section Samples

instance {settings : CacheSettings} {choice : Choice} {world : FileWorld} :
    (access : Access) → Decidable (choice.ValidFor settings world access)
  | .path request => inferInstanceAs (Decidable (choice.Valid settings world.paths request))
  | .setLocalOnly _ _ | .popLocalOnly _ | .moveLocalOnly _ _ | .mkstemp _ _ | .takeFd
  | .openFile _ _ => .isTrue trivial

end Samples

end FuseDrive.Fuse
