import FuseDrive.Fuse.FailedCalls
import FuseDrive.Pattern

/-!
# Which files are local-only

`create` asks `is_temporary_editor_swap_file` about the last component of the
path, `rename` about the whole path.  The endings of the pattern are found in
both, unless a directory has a line break in its name.  The beginning of the
pattern is only found in the last component, since a path begins with a slash.
So a file that `create` would keep to itself, such as the lock file of an office
program, is not kept when another local-only file is renamed to its name.
-/

namespace FuseDrive.Fuse

open Pattern (EndsWith)
open Program (Executes OnlyAsks perform raise)

/-! ## The pattern -/

def lockPrefix : Str := ['.', '~', 'l', 'o', 'c', 'k']

def swapEndings : List Str :=
  [['.', 's', 'w', 'p'], ['.', 'k', 'a', 't', 'e', '-', 's', 'w', 'p'], ['~']]

/-- `.*ending$` -/
def endingPattern (ending : Str) : Pattern := .seq (.star .dot) (.seq (.text ending) .dollar)

/-- `.*\.swp$|.*\.kate-swp$|.*~$|^\.~lock.*` -/
def swapPattern : Pattern :=
  .alt (endingPattern ['.', 's', 'w', 'p'])
    (.alt (endingPattern ['.', 'k', 'a', 't', 'e', '-', 's', 'w', 'p'])
      (.alt (endingPattern ['~']) (.seq .caret (.seq (.text lockPrefix) (.star .dot)))))

/-- The name ends as that of a swap file does. -/
def HasSwapEnding (name : Str) : Prop := ∃ ending ∈ swapEndings, EndsWith ending name

theorem hasSwapEnding_iff {name : Str} :
    HasSwapEnding name ↔ EndsWith ['.', 's', 'w', 'p'] name ∨
      EndsWith ['.', 'k', 'a', 't', 'e', '-', 's', 'w', 'p'] name ∨ EndsWith ['~'] name := by
  simp [HasSwapEnding, swapEndings]

theorem withoutFinalNewline_break (stem : Str) : withoutFinalNewline (stem ++ ['\n']) = stem := by
  simp [withoutFinalNewline]

theorem withoutFinalNewline_of_notMem {name : Str} (noBreak : '\n' ∉ name) :
    withoutFinalNewline name = name := by
  unfold withoutFinalNewline
  rw [if_neg]
  intro last
  exact noBreak (List.mem_of_getLast? last)

theorem eq_withoutFinalNewline (name : Str) :
    name = withoutFinalNewline name ∨ name = withoutFinalNewline name ++ ['\n'] := by
  unfold withoutFinalNewline
  split
  · rename_i last
    exact .inr (List.dropLast_append_getLast? '\n' last).symm
  · exact .inl rfl

theorem matchesSuffix_iff {ending name : Str} (noBreak : '\n' ∉ ending) :
    matchesSuffix ending name = true ↔ EndsWith ending name := by
  have spelled : matchesSuffix ending name = true ↔
      ending <:+ withoutFinalNewline name ∧ '\n' ∉ withoutFinalNewline name := by
    simp [matchesSuffix]
  rw [spelled]
  constructor
  · rintro ⟨⟨stem, isStem⟩, alsoNoBreak⟩
    refine ⟨stem, fun member => ?_, ?_⟩
    · exact alsoNoBreak (isStem ▸ List.mem_append_left ending member)
    · rw [isStem]
      exact eq_withoutFinalNewline name
  · rintro ⟨stem, stemNoBreak, isName⟩
    have whole : '\n' ∉ stem ++ ending := by
      rw [List.mem_append]
      exact not_or.mpr ⟨stemNoBreak, noBreak⟩
    have cut : withoutFinalNewline name = stem ++ ending := by
      rcases isName with rfl | rfl
      · exact withoutFinalNewline_of_notMem whole
      · exact withoutFinalNewline_break _
    rw [cut]
    exact ⟨List.suffix_append stem ending, whole⟩

theorem isTemporaryEditorSwapFile_iff {name : Str} :
    isTemporaryEditorSwapFile name = true ↔ HasSwapEnding name ∨ lockPrefix <+: name := by
  unfold isTemporaryEditorSwapFile
  rw [Bool.or_eq_true, Bool.or_eq_true, Bool.or_eq_true, matchesSuffix_iff (by decide),
    matchesSuffix_iff (by decide), matchesSuffix_iff (by decide), hasSwapEnding_iff,
    List.isPrefixOf_iff_prefix]
  simp only [or_assoc, lockPrefix]

/-- The test is `re.match` with the pattern. -/
theorem isTemporaryEditorSwapFile_iff_matches {name : Str} :
    isTemporaryEditorSwapFile name = true ↔ swapPattern.MatchesStart name := by
  rw [isTemporaryEditorSwapFile_iff, hasSwapEnding_iff]
  simp only [swapPattern, endingPattern, Pattern.matchesStart_alt, Pattern.matchesStart_ending,
    Pattern.matchesStart_beginning, or_assoc]

/-! ## Paths and their last components -/

/-- The path with its last slash, without the last component. -/
def directories (path : Str) : Str := (path.reverse.dropWhile (· ≠ '/')).reverse

theorem directories_append_basename (path : Str) : directories path ++ basename path = path := by
  unfold directories basename
  rw [← List.reverse_append, List.takeWhile_append_dropWhile, List.reverse_reverse]

theorem slash_mem_directories {path : Str} (absolute : path.head? = some '/') :
    '/' ∈ directories path := by
  have member : '/' ∈ directories path ++ basename path := by
    rw [directories_append_basename]
    exact List.mem_of_mem_head? absolute
  rcases List.mem_append.mp member with inside | last
  · exact inside
  · exact absurd last (slash_notMem_basename path)

/-- The directories of an absolute path end with a slash. -/
theorem getLast?_directories {path : Str} (absolute : path.head? = some '/') :
    (directories path).getLast? = some '/' := by
  have nonempty : directories path ≠ [] := List.ne_nil_of_mem (slash_mem_directories absolute)
  have stops := List.head?_dropWhile_not (fun character => decide (character ≠ '/')) path.reverse
  unfold directories at nonempty ⊢
  rw [List.getLast?_reverse]
  cases first : (path.reverse.dropWhile (· ≠ '/')).head? with
  | none =>
      rw [List.head?_eq_none_iff] at first
      exact absurd (by rw [first, List.reverse_nil]) nonempty
  | some character =>
      rw [first] at stops
      simpa using stops

theorem newline_mem_dirname {path : Str} : '\n' ∈ dirname path ↔ '\n' ∈ directories path := by
  unfold dirname
  change '\n' ∈ (if (directories path).all (· = '/') then directories path
    else ((directories path).reverse.dropWhile (· = '/')).reverse) ↔ _
  split
  · rfl
  · rw [List.mem_reverse]
    constructor
    · intro kept
      exact List.mem_reverse.mp (List.dropWhile_subset _ kept)
    · intro member
      have joined :=
        List.takeWhile_append_dropWhile (p := (· = '/')) (l := (directories path).reverse)
      rw [← List.mem_reverse, ← joined, List.mem_append] at member
      rcases member with stripped | kept
      · have isSlash := List.mem_takeWhile_imp stripped
        simp at isSlash
      · exact kept

/-- An ending without a slash is found in a path if and only if it is found in
the last component, and no directory has a line break in its name. -/
theorem endsWith_append {ending head name : Str} (slash : head.getLast? = some '/')
    (noSlash : '/' ∉ ending) :
    EndsWith ending (head ++ name) ↔ EndsWith ending name ∧ '\n' ∉ head := by
  -- what comes before the ending includes the directories
  have inside {stem tail : Str} (notThere : '/' ∉ tail) (same : head ++ name = stem ++ tail) :
      ∃ rest, stem = head ++ rest ∧ name = rest ++ tail := by
    rcases List.append_eq_append_iff.mp same with ⟨rest, isStem, isName⟩ | ⟨rest, isHead, isTail⟩
    · exact ⟨rest, isStem, isName⟩
    · cases rest with
      | nil => exact ⟨[], by simpa using isHead.symm, by simpa using isTail.symm⟩
      | cons character rest =>
          rw [isHead, List.getLast?_append_cons] at slash
          have member : '/' ∈ tail := by
            rw [isTail]
            exact List.mem_append_left name (List.mem_of_getLast? slash)
          exact absurd member notThere
  have noSlashBreak : '/' ∉ ending ++ ['\n'] := by
    simpa using noSlash
  constructor
  · rintro ⟨stem, noBreak, plain | broken⟩
    · obtain ⟨rest, rfl, isName⟩ := inside noSlash plain
      rw [List.mem_append, not_or] at noBreak
      exact ⟨⟨rest, noBreak.2, .inl isName⟩, noBreak.1⟩
    · rw [List.append_assoc] at broken
      obtain ⟨rest, rfl, isName⟩ := inside noSlashBreak broken
      rw [List.mem_append, not_or] at noBreak
      exact ⟨⟨rest, noBreak.2, .inr (by rw [isName, List.append_assoc])⟩, noBreak.1⟩
  · rintro ⟨⟨stem, noBreak, isName⟩, headNoBreak⟩
    refine ⟨head ++ stem, ?_, ?_⟩
    · rw [List.mem_append]
      exact not_or.mpr ⟨headNoBreak, noBreak⟩
    · rcases isName with rfl | rfl
      · exact .inl (List.append_assoc ..).symm
      · exact .inr (by simp)

/-- What `rename` is told of an absolute path. -/
theorem isTemporaryEditorSwapFile_path {path : Str} (absolute : path.head? = some '/') :
    isTemporaryEditorSwapFile path = true ↔
      HasSwapEnding (basename path) ∧ '\n' ∉ dirname path := by
  have slash := getLast?_directories absolute
  have notLock : ¬ lockPrefix <+: path := by
    rintro ⟨rest, rfl⟩
    cases absolute
  rw [isTemporaryEditorSwapFile_iff, or_iff_left notLock, newline_mem_dirname]
  nth_rewrite 1 [← directories_append_basename path]
  rw [hasSwapEnding_iff, hasSwapEnding_iff, endsWith_append slash (by decide),
    endsWith_append slash (by decide), endsWith_append slash (by decide), ← or_and_right,
    ← or_and_right]

/-! ## Accesses that make no file local-only -/

def Access.AddsNoLocal : Access → Prop
  | .setLocalOnly _ _ | .moveLocalOnly _ _ | .path (.addLocalOnly _) => False
  | _ => True

theorem serve_localOnlyFiles_subset {settings : CacheSettings} {choice : Choice} {world : World}
    {request : Request} (adds : (Access.path request).AddsNoLocal) :
    (serve settings choice world request).2.localOnlyFiles ⊆ world.localOnlyFiles := by
  cases request with
  | addLocalOnly => exact adds.elim
  | dropLocalOnly path => exact List.filter_subset_self _
  | listChildren | createFolder | updateFile | deleteFile =>
      simp only [serve]
      split <;> exact List.Subset.refl _
  | _ => exact List.Subset.refl _

theorem serveAccess_localOnlyFiles_subset {settings : CacheSettings} {choice : Choice}
    {temp : Option Str} {world : FileWorld} {access : Access} (adds : access.AddsNoLocal) :
    (serveAccess settings choice temp world access).2.paths.localOnlyFiles ⊆
      world.paths.localOnlyFiles := by
  cases access with
  | path request => exact serve_localOnlyFiles_subset adds
  | setLocalOnly | moveLocalOnly => exact adds.elim
  | popLocalOnly path => exact List.filter_subset_self _
  | mkstemp => cases temp <;> exact List.Subset.refl _
  | takeFd | openFile => exact List.Subset.refl _

theorem onPaths_addsNoLocal {α : Type} {program : Op α}
    (asks : OnlyAsks (fun request => (Access.path request).AddsNoLocal) program) :
    OnlyAsks Access.AddsNoLocal (onPaths program) := by
  induction asks with
  | done => exact .done
  | ask fine _ induction => exact .ask fine induction

section Programs

variable (rootId : NodeId)

theorem resolvePath_addsNoLocal (path : Str) :
    OnlyAsks (fun request => (Access.path request).AddsNoLocal) (resolvePath rootId path) := by
  refine (resolvePath_onlyAsks path).mono fun request looks => ?_
  cases request with
  | addLocalOnly => exact looks
  | _ => trivial

theorem deleteNode_addsNoLocal (path : Str) :
    OnlyAsks (fun request => (Access.path request).AddsNoLocal) (deleteNode rootId path) := by
  refine (resolvePath_addsNoLocal rootId path).bind fun found => ?_
  cases found with
  | none => exact .done
  | some fileId =>
      refine .ask trivial fun failed => ?_
      cases failed with
      | none => exact .perform trivial
      | some errno => exact .done

theorem renameOnDrive_addsNoLocal (old new : Str) :
    OnlyAsks (fun request => (Access.path request).AddsNoLocal)
      (renameOnDrive rootId old new) := by
  refine .ask trivial fun exceeded => ?_
  cases exceeded with
  | true => exact .done
  | false =>
      refine (resolvePath_addsNoLocal rootId old).bind fun fileId => ?_
      refine (resolvePath_addsNoLocal rootId (dirname new)).bind fun parentId => ?_
      cases fileId with
      | none => exact .done
      | some fileId =>
          cases parentId with
          | none => exact .done
          | some parentId =>
              refine (resolvePath_addsNoLocal rootId (dirname old)).bind fun oldParentId => ?_
              refine .ask trivial fun updated => ?_
              cases updated with
              | false => exact .done
              | true => exact .ask trivial fun _ => .perform trivial

theorem unlink_addsNoLocal (path : Str) :
    OnlyAsks Access.AddsNoLocal (Files.unlink rootId path) := by
  refine .ask trivial fun isLocal => ?_
  cases isLocal with
  | true => exact .perform trivial
  | false =>
      refine .ask trivial fun exceeded => ?_
      cases exceeded with
      | true => exact .done
      | false => exact onPaths_addsNoLocal (deleteNode_addsNoLocal rootId path)

theorem renameOntoDrive_addsNoLocal (old new : Str) (newId : NodeId) :
    OnlyAsks Access.AddsNoLocal (Files.renameOntoDrive rootId old new newId) := by
  refine .ask trivial fun copied => ?_
  cases copied with
  | true => exact (unlink_addsNoLocal rootId old).bind fun _ => .perform trivial
  | false => exact .done

theorem rename_addsNoLocal {new : Str} (notSwap : isTemporaryEditorSwapFile new = false)
    (old : Str) : OnlyAsks Access.AddsNoLocal (Files.rename rootId old new) := by
  have onDrive := onPaths_addsNoLocal (renameOnDrive_addsNoLocal rootId old new)
  refine .ask trivial fun isLocal => ?_
  cases isLocal with
  | false => exact onDrive
  | true =>
      change OnlyAsks _ (if isTemporaryEditorSwapFile new then _ else
        onPaths (resolvePath rootId new) >>= fun found => _ : Act Unit)
      rw [notSwap, if_neg Bool.false_ne_true]
      refine (onPaths_addsNoLocal (resolvePath_addsNoLocal rootId new)).bind fun found => ?_
      cases found with
      | none => exact onDrive
      | some newId => exact renameOntoDrive_addsNoLocal rootId old new newId

end Programs

/-! ## `create` and `rename` -/

/-- A local-only file and its temporary file. -/
structure FileWorld.LocalAt (world : FileWorld) (path tempPath : Str) : Prop where
  isLocal : path ∈ world.paths.localOnlyFiles
  temp : world.localTemps.lookup path = some tempPath

section Property

variable (settings : CacheSettings) (rootId : NodeId) (unused : NodeId → Prop)
  (drifts : World → World → Prop)

/-- From wherever a local-only file is renamed, the call can return, and when it
ends it has returned and the file is local-only at the new path. -/
def RenameKeepsLocal (old new : Str) : Prop :=
  ∀ (world : FileWorld) (tempPath : Str), world.LocalAt old tempPath →
    (∃ later, Executes (filing settings unused drifts) world (Files.rename rootId old new)
      (.ok ()) later) ∧
    ∀ (later : FileWorld) (result : Except Errno Unit),
      Executes (filing settings unused drifts) world (Files.rename rootId old new) result later →
      result = .ok () ∧ later.LocalAt new tempPath

/-- No call puts the new path among the local-only files. -/
def RenameMakesNoLocal (old new : Str) : Prop :=
  ∀ (world later : FileWorld) (result : Except Errno Unit),
    new ∉ world.paths.localOnlyFiles →
    Executes (filing settings unused drifts) world (Files.rename rootId old new) result later →
    new ∉ later.paths.localOnlyFiles

/-- `create` can return a handle, and every handle it returns is that of a
local-only file. -/
def CreateMakesLocal (path : Str) : Prop :=
  ∀ world : FileWorld,
    (∃ (later : FileWorld) (fd : Nat),
      Executes (filing settings unused drifts) world (Files.create rootId path) (.ok fd) later) ∧
    ∀ (later : FileWorld) (fd : Nat),
      Executes (filing settings unused drifts) world (Files.create rootId path) (.ok fd) later →
      ∃ tempPath, later.LocalAt path tempPath ∧
        later.openFiles.lookup fd = some (.localOnly path tempPath true true)

end Property

section Calls

variable {settings : CacheSettings} {rootId : NodeId} {unused : NodeId → Prop}
  {drifts : World → World → Prop}

theorem FileWorld.LocalAt.drift (keeps : KeepsLocalOnly drifts) {world later : FileWorld}
    {path tempPath : Str} (localAt : world.LocalAt path tempPath)
    (drifted : Relation.ReflTransGen (filing settings unused drifts).drifts world later) :
    later.LocalAt path tempPath := by
  obtain ⟨paths, pathsDrifted, rfl⟩ := paths_of_drifts drifted
  refine ⟨?_, localAt.temp⟩
  change path ∈ paths.localOnlyFiles
  rw [keeps.of_drifts pathsDrifted]
  exact localAt.isLocal

theorem openFiles_of_drifts {world later : FileWorld}
    (drifted : Relation.ReflTransGen (filing settings unused drifts).drifts world later) :
    later.openFiles = world.openFiles := by
  obtain ⟨paths, -, rfl⟩ := paths_of_drifts drifted
  rfl

theorem isLocalOnly_served {path tempPath : Str} {world : FileWorld}
    (localAt : world.LocalAt path tempPath) :
    (filing settings unused drifts).serves world (.path (.isLocalOnly path)) true world := by
  refine ⟨calm, none, trivial, trivial, trivial, ?_⟩
  simp only [serveAccess, serve, localAt.isLocal, decide_true]

theorem localAt_of_rename (keeps : KeepsLocalOnly drifts) {old new tempPath : Str}
    (isSwap : isTemporaryEditorSwapFile new = true) {world later : FileWorld}
    {result : Except Errno Unit} (localAt : world.LocalAt old tempPath)
    (execution : Executes (filing settings unused drifts) world (Files.rename rootId old new)
      result later) :
    result = .ok () ∧ later.LocalAt new tempPath := by
  obtain ⟨before, choice, temp, drifted, -, rest⟩ := answered_of_perform execution
  have stillAt := localAt.drift keeps drifted
  change Executes _ before (if decide (old ∈ before.paths.localOnlyFiles) then
    (if isTemporaryEditorSwapFile new then perform (Access.moveLocalOnly old new) else _) else _ :
      Act Unit) _ _ at rest
  rw [decide_eq_true stillAt.isLocal, if_pos rfl, if_pos isSwap] at rest
  obtain ⟨asked, answer, moved, toAsked, ⟨_, _, -, -, -, served⟩, ending⟩ := rest.of_ask
  obtain ⟨isResult, toLater⟩ := ending.of_done
  have askedAt := stillAt.drift keeps toAsked
  have movedAt : moved.LocalAt new tempPath := by
    cases served
    constructor
    · exact List.mem_insert_self
    · simp only [askedAt.temp, AList.lookup_insert]
  exact ⟨isResult, movedAt.drift keeps toLater⟩

theorem renameKeepsLocal_of_swap (keeps : KeepsLocalOnly drifts) {old new : Str}
    (isSwap : isTemporaryEditorSwapFile new = true) :
    RenameKeepsLocal settings rootId unused drifts old new := by
  intro world tempPath localAt
  let moved := (serveAccess settings calm none world (.moveLocalOnly old new)).2
  refine ⟨⟨moved, .ask (isLocalOnly_served localAt) ?_⟩, fun later result execution => ?_⟩
  · change Executes _ _ (if isTemporaryEditorSwapFile new then
      perform (Access.moveLocalOnly old new) else _ : Act Unit) _ _
    rw [if_pos isSwap]
    exact .ask ⟨calm, none, trivial, trivial, trivial, rfl⟩ .done
  · exact localAt_of_rename keeps isSwap localAt execution

theorem localAt_of_create (keeps : KeepsLocalOnly drifts) {path : Str}
    (isSwap : isTemporaryEditorSwapFile (basename path) = true) {world later : FileWorld}
    {fd : Nat}
    (execution : Executes (filing settings unused drifts) world (Files.create rootId path)
      (.ok fd) later) :
    ∃ tempPath, later.LocalAt path tempPath ∧
      later.openFiles.lookup fd = some (.localOnly path tempPath true true) := by
  unfold Files.create at execution
  rw [if_pos isSwap] at execution
  obtain ⟨before, choice, temp, drifted, -, making⟩ := answered_of_perform execution
  cases temp with
  | none => cases making.of_done.1
  | some tempPath =>
      obtain ⟨setting, choice, temp, toSetting, -, numbering⟩ := answered_of_perform making
      obtain ⟨taking, _, _, toTaking, -, opening⟩ := answered_of_perform numbering
      obtain ⟨asked, _, _, toAsked, -, ending⟩ := answered_of_perform opening
      obtain ⟨isResult, toLater⟩ := ending.of_done
      cases isResult
      have setAt : (serveAccess settings choice temp setting
          (.setLocalOnly path tempPath)).2.LocalAt path tempPath :=
        ⟨List.mem_insert_self, AList.lookup_insert _⟩
      have takenAt := setAt.drift keeps toTaking
      have askedAt : asked.LocalAt path tempPath := by
        refine FileWorld.LocalAt.drift keeps ?_ toAsked
        exact ⟨takenAt.isLocal, takenAt.temp⟩
      refine ⟨tempPath, ?_, ?_⟩
      · refine FileWorld.LocalAt.drift keeps ?_ toLater
        exact ⟨askedAt.isLocal, askedAt.temp⟩
      · rw [openFiles_of_drifts toLater]
        exact AList.lookup_insert _

theorem renameMakesNoLocal_of_notSwap (keeps : KeepsLocalOnly drifts) {old new : Str}
    (notSwap : isTemporaryEditorSwapFile new = false) :
    RenameMakesNoLocal settings rootId unused drifts old new := by
  intro world later result notThere execution
  refine execution.keeps (fun world => new ∉ world.paths.localOnlyFiles) ?_ ?_
    (rename_addsNoLocal rootId notSwap old) notThere
  · rintro before _ absent ⟨paths, drifted, rfl⟩
    change new ∉ paths.localOnlyFiles
    rw [keeps drifted]
    exact absent
  · rintro before access answer after absent adds ⟨choice, temp, -, -, -, same⟩ member
    have within := @serveAccess_localOnlyFiles_subset settings choice temp before access adds
    rw [same] at within
    exact absent (within member)

theorem createMakesLocal_of_swap (keeps : KeepsLocalOnly drifts) {path : Str}
    (isSwap : isTemporaryEditorSwapFile (basename path) = true) :
    CreateMakesLocal settings rootId unused drifts path := by
  refine fun world => ⟨?_, fun later fd execution => localAt_of_create keeps isSwap execution⟩
  unfold Files.create
  rw [if_pos isSwap]
  let made := (serveAccess settings calm none world (.setLocalOnly path [])).2
  refine ⟨{ made with
    openFiles := world.openFiles.insert world.nextFd (.localOnly path [] true true)
    nextFd := world.nextFd + 1 }, world.nextFd, ?_⟩
  refine .ask ⟨calm, some [], trivial, trivial, trivial, rfl⟩ ?_
  refine .ask ⟨calm, none, trivial, trivial, trivial, rfl⟩ ?_
  refine .ask ⟨calm, none, trivial, trivial, trivial, rfl⟩ ?_
  exact .ask ⟨calm, none, trivial, trivial, trivial, rfl⟩ .done

theorem created_of_createBelow {parentId : NodeId} {path : Str} {world later : FileWorld}
    {fd : Nat}
    (execution : Executes (filing settings unused drifts) world (Files.createBelow parentId path)
      (.ok fd) later) :
    ∃ tempPath fakeId,
      later.openFiles.lookup fd =
        some (.created path tempPath fakeId parentId (basename path)) := by
  obtain ⟨_, _, _, -, -, mapping⟩ := answered_of_perform execution
  obtain ⟨_, _, _, -, -, numbering⟩ := answered_of_perform mapping
  obtain ⟨_, _, _, -, -, making⟩ := answered_of_perform numbering
  obtain ⟨_, _, temp, -, -, rest⟩ := answered_of_perform making
  cases temp with
  | none => cases rest.of_done.1
  | some tempPath =>
      obtain ⟨_, _, _, -, -, ending⟩ := answered_of_perform rest
      obtain ⟨isResult, toLater⟩ := ending.of_done
      cases isResult
      rw [openFiles_of_drifts toLater]
      exact ⟨_, _, AList.lookup_insert _⟩

theorem created_of_create {path : Str}
    (notSwap : isTemporaryEditorSwapFile (basename path) = false) {world later : FileWorld}
    {fd : Nat}
    (execution : Executes (filing settings unused drifts) world (Files.create rootId path)
      (.ok fd) later) :
    ∃ tempPath fakeId parentId,
      later.openFiles.lookup fd =
        some (.created path tempPath fakeId parentId (basename path)) := by
  unfold Files.create at execution
  rw [notSwap, if_neg Bool.false_ne_true] at execution
  obtain ⟨before, choice, temp, -, -, allowing⟩ := answered_of_perform execution
  generalize (serveAccess settings choice temp before (.path .isQuotaExceeded)).1 = exceeded
    at allowing
  cases exceeded with
  | true => cases allowing.of_done.1
  | false =>
      rcases allowing.of_bind with ⟨error, impossible, -⟩ | ⟨found, middle, -, below⟩
      · cases impossible
      · cases found with
        | none => cases below.of_done.1
        | some parentId =>
            obtain ⟨tempPath, fakeId, isCreated⟩ := created_of_createBelow below
            exact ⟨tempPath, fakeId, parentId, isCreated⟩

/-- A path that is the root or that the cache has at its id is found at once. -/
theorem executes_found {α : Type} {path : Str} (absolute : path.head? = some '/')
    {world later : FileWorld} {result : Except Errno α} {next : Option NodeId → Act α}
    (rested : world.paths.loading = none)
    (cached : path ≠ ['/'] → world.paths.mapped path = some rootId)
    (rest : Executes (filing settings unused drifts) world (next (some rootId)) result later) :
    Executes (filing settings unused drifts) world (onPaths (resolvePath rootId path) >>= next)
      result later := by
  have long : 0 < path.length := by
    cases path with
    | nil => cases absolute
    | cons => exact Nat.zero_lt_succ _
  obtain ⟨limit, isLength⟩ := Nat.exists_eq_add_one.mpr long
  unfold resolvePath
  rw [isLength, resolveWithin]
  by_cases isRoot : path = ['/']
  · rw [if_pos isRoot]
    exact rest
  · rw [if_neg isRoot]
    have found : world.paths.cache.resolvePathToNodeId path = some rootId := cached isRoot
    have served : (filing settings unused drifts).serves world
        (.path (.resolvePathToNodeId path)) (some rootId) world := by
      refine ⟨calm, none, trivial, trivial, trivial, ?_⟩
      simp only [serveAccess, serve, found, ← rested]
    exact .ask served rest

/-- A mount that knows one path, with the local-only files given. -/
def knowing (settings : CacheSettings) (rootId : NodeId) (path : Str) (localTemps : Dict Str Str) :
    FileWorld where
  paths := { World.start settings rootId 0 ⟨[]⟩ with
    cache := PathCache.mapPathToNodeId settings none ⟨0, .empty, .empty, ∅⟩ path rootId
    localOnlyFiles := localTemps.keys }
  localTemps := localTemps
  openFiles := ∅
  nextFd := 1000
  refused := []

theorem mapped_knowing (path : Str) (localTemps : Dict Str Str) :
    (knowing settings rootId path localTemps).paths.mapped path = some rootId := by
  refine (PathCache.resolve_mapPathToNodeId settings _ none path path rootId).trans ?_
  rw [if_pos rfl]

theorem localAt_knowing (path : Str) {localTemps : Dict Str Str} {local' tempPath : Str}
    (found : localTemps.lookup local' = some tempPath) :
    (knowing settings rootId path localTemps).LocalAt local' tempPath := by
  constructor
  · refine AList.mem_keys.mp (AList.lookup_isSome.mp ?_)
    rw [found]
    rfl
  · exact found

/-- Where the new path is found, the file is to be copied, which can fail. -/
theorem rename_copies {old new tempPath : Str} (absolute : new.head? = some '/')
    (notSwap : isTemporaryEditorSwapFile new = false) {world : FileWorld}
    (localAt : world.LocalAt old tempPath) (rested : world.paths.loading = none)
    (mapped : world.paths.mapped new = some rootId) :
    Executes (filing settings unused drifts) world (Files.rename rootId old new)
      (.error .exception) world := by
  have refused : (filing settings unused drifts).serves world
      (.path (.copyAndEnqueue old rootId)) false world :=
    ⟨{ calm with fails := some .eio }, none, trivial, trivial, trivial, rfl⟩
  refine .ask (isLocalOnly_served localAt) ?_
  change Executes _ _ (if isTemporaryEditorSwapFile new then _ else
    onPaths (resolvePath rootId new) >>= fun found => _ : Act Unit) _ _
  rw [notSwap, if_neg Bool.false_ne_true]
  refine executes_found absolute rested (fun _ => mapped) ?_
  exact .ask refused .done

theorem renameKeepsLocal_iff (keeps : KeepsLocalOnly drifts) {old new : Str}
    (absolute : new.head? = some '/') :
    RenameKeepsLocal settings rootId unused drifts old new ↔
      isTemporaryEditorSwapFile new = true := by
  refine ⟨fun kept => ?_, renameKeepsLocal_of_swap keeps⟩
  by_contra notSwap
  have oldAt : (knowing settings rootId new (AList.insert old [] ∅)).LocalAt old [] :=
    localAt_knowing new (AList.lookup_insert _)
  have failed : Executes (filing settings unused drifts) _ (Files.rename rootId old new)
      (.error .exception) _ :=
    rename_copies absolute (Bool.eq_false_iff.mpr notSwap) oldAt rfl (mapped_knowing new _)
  cases ((kept _ _ oldAt).2 _ _ failed).1

theorem createMakesLocal_iff (keeps : KeepsLocalOnly drifts) {path : Str} :
    CreateMakesLocal settings rootId unused drifts path ↔
      isTemporaryEditorSwapFile (basename path) = true := by
  refine ⟨fun made => ?_, createMakesLocal_of_swap keeps⟩
  by_contra notSwap
  obtain ⟨⟨later, fd, execution⟩, allLocal⟩ := made (knowing settings rootId path ∅)
  obtain ⟨_, _, _, isCreated⟩ := created_of_create (Bool.eq_false_iff.mpr notSwap) execution
  obtain ⟨tempPath, -, isLocal⟩ := allLocal later fd execution
  rw [isCreated] at isLocal
  cases isLocal

end Calls

/-! ## Where they agree -/

/-- Where the last component ends as a swap file, no directory has a line break
in its name, and where it does not, it does not begin as a lock file. -/
def NamedAlike (path : Str) : Prop :=
  (HasSwapEnding (basename path) → '\n' ∉ dirname path) ∧
    (¬ HasSwapEnding (basename path) → ¬ lockPrefix <+: basename path)

/-- What `rename` is told is also what `create` is told. -/
theorem isTemporaryEditorSwapFile_basename {path : Str} (absolute : path.head? = some '/')
    (isSwap : isTemporaryEditorSwapFile path = true) :
    isTemporaryEditorSwapFile (basename path) = true :=
  isTemporaryEditorSwapFile_iff.mpr (.inl ((isTemporaryEditorSwapFile_path absolute).mp isSwap).1)

theorem namedAlike_iff {path : Str} (absolute : path.head? = some '/') :
    NamedAlike path ↔
      (isTemporaryEditorSwapFile path = true ↔ isTemporaryEditorSwapFile (basename path) = true) := by
  rw [isTemporaryEditorSwapFile_path absolute, isTemporaryEditorSwapFile_iff]
  unfold NamedAlike
  tauto

section Agreement

variable {settings : CacheSettings} {rootId : NodeId} {unused : NodeId → Prop}
  {drifts : World → World → Prop}

/-- Where `rename` and `create` do not agree, a new file is kept but a renamed
one never is. -/
theorem swapNames_agree_iff (keeps : KeepsLocalOnly drifts) {new : Str}
    (absolute : new.head? = some '/') (old : Str) :
    ((RenameKeepsLocal settings rootId unused drifts old new ↔
        CreateMakesLocal settings rootId unused drifts new) ↔ NamedAlike new) ∧
      (isTemporaryEditorSwapFile new = isTemporaryEditorSwapFile (basename new) ↔
        NamedAlike new) ∧
      (¬ NamedAlike new → CreateMakesLocal settings rootId unused drifts new ∧
        RenameMakesNoLocal settings rootId unused drifts old new) := by
  rw [renameKeepsLocal_iff keeps absolute, createMakesLocal_iff keeps,
    namedAlike_iff absolute]
  refine ⟨Iff.rfl, Bool.eq_iff_iff, fun apart => ?_⟩
  have notSwap : ¬ isTemporaryEditorSwapFile new = true := by
    intro isSwap
    have alsoSwap := isTemporaryEditorSwapFile_basename absolute isSwap
    exact apart ⟨fun _ => alsoSwap, fun _ => isSwap⟩
  refine ⟨?_, renameMakesNoLocal_of_notSwap keeps (Bool.eq_false_iff.mpr notSwap)⟩
  by_contra notNew
  exact apart ⟨fun isSwap => absurd isSwap notSwap, fun isSwap => absurd isSwap notNew⟩

/-- The swap file of an editor and the lock file of an office program. -/
def swapPath : Str := ['/', 'd', '/', 'a', '.', 's', 'w', 'p']

def lockPath : Str := ['/', 'd', '/', '.', '~', 'l', 'o', 'c', 'k', '.', 'a', '#']

theorem swapNames_agree_iff_swapPath :
    (RenameKeepsLocal defaultSettings sampleRoot (· = calm.newId) (fun _ _ => False) lockPath
        swapPath ↔
      CreateMakesLocal defaultSettings sampleRoot (· = calm.newId) (fun _ _ => False) swapPath) ∧
    isTemporaryEditorSwapFile swapPath = isTemporaryEditorSwapFile (basename swapPath) := by
  have keeps : KeepsLocalOnly (fun _ _ => False) := fun _ _ drifted => drifted.elim
  have absolute : swapPath.head? = some '/' := by decide
  have named : NamedAlike swapPath := ⟨fun _ => by decide, fun _ => by decide⟩
  obtain ⟨calls, tests, -⟩ := swapNames_agree_iff keeps absolute lockPath
  exact ⟨calls.mpr named, tests.mpr named⟩

theorem lockPath_disagrees :
    ¬ (RenameKeepsLocal defaultSettings sampleRoot (· = calm.newId) (fun _ _ => False) swapPath
          lockPath ↔
        CreateMakesLocal defaultSettings sampleRoot (· = calm.newId) (fun _ _ => False) lockPath) ∧
      isTemporaryEditorSwapFile lockPath ≠ isTemporaryEditorSwapFile (basename lockPath) := by
  have keeps : KeepsLocalOnly (fun _ _ => False) := fun _ _ drifted => drifted.elim
  refine ⟨?_, by decide⟩
  rw [renameKeepsLocal_iff keeps (by decide), createMakesLocal_iff keeps]
  decide

end Agreement

end FuseDrive.Fuse
