import FuseDrive.Fuse.Renaming
import Mathlib.Data.List.TakeWhile

/-!
# What a listing shows

`readdir` maps what Drive lists and then shows the set of children the cache
keeps for the path.  The set only grows by mapping and shrinks by the
invalidation of single paths; it has no lifetime and no link to the directory
it was filled for.  So what a fresh listing shows depends on every access since
the mount: a name that was once mapped below the path is shown until that very
path is invalidated.
-/

namespace FuseDrive.Fuse

open Program (Executes perform)

/-- What `readdir` does once the path is resolved. -/
def listAndShow (dirId : NodeId) (path : Str) : Op (List Str) := do
  loadChildren dirId path
  let children ← perform (Request.getChildrenPaths path)
  let entries := ['.'] :: ['.', '.'] :: children.map basename
  if path = ['/'] ∧ ['s', 't', 'a', 't', 's'] ∉ entries then
    pure (entries ++ [['s', 't', 'a', 't', 's']])
  else pure entries

/-- `.`, `..` and the `stats` of the root. -/
def Reserved (path name : Str) : Prop :=
  name = ['.'] ∨ name = ['.', '.'] ∨ path = ['/'] ∧ name = ['s', 't', 'a', 't', 's']

/-- The entries are the names Drive listed and those of created files that are
not uploaded yet. -/
def NoGhosts (path : Str) (items : List Item) (unfinished : Str → Prop) (entries : List Str) :
    Prop :=
  ∀ name, ¬ Reserved path name →
    (name ∈ entries ↔ name ∈ items.map Item.name ∨ unfinished name)

/-- After these accesses, the last one first, a path that was mapped has not been
invalidated since. -/
def Remembers : List Request → Str → Prop
  | [], _ => False
  | .mapPathToNodeId path _ :: earlier, child => child = path ∨ Remembers earlier child
  | .invalidatePath path :: earlier, child => child ≠ path ∧ Remembers earlier child
  | _ :: earlier, child => Remembers earlier child

/-- A path directly below another one. -/
def DirectlyBelow (parent child : Str) : Prop := child ≠ ['/'] ∧ dirname child = parent

/-- Nothing else is remembered below the path when Drive is asked. -/
structure NothingElse (accesses : List Request) (path : Str) (items : List Item)
    (unfinished : Str → Prop) : Prop where
  /-- Every listed name can be shown. -/
  names : ∀ item ∈ items, '/' ∉ item.name ∧ (item.name = [] → path = ['/'] →
    ∃ child, DirectlyBelow path child ∧ Remembers accesses child ∧ basename child = [])
  /-- What is remembered is listed now, or still to be uploaded. -/
  old : ∀ child, DirectlyBelow path child → Remembers accesses child →
    ¬ Reserved path (basename child) →
      basename child ∈ items.map Item.name ∨ unfinished (basename child)
  /-- What is still to be uploaded is remembered or listed. -/
  new : ∀ name, unfinished name → ¬ Reserved path name → name ∈ items.map Item.name ∨
    ∃ child, DirectlyBelow path child ∧ Remembers accesses child ∧ basename child = name

/-! ## Paths of listed names -/

theorem IsPath.shows {path name : Str} (isPath : IsPath path) (noSlash : '/' ∉ name)
    (notRoot : name = [] → path ≠ ['/']) :
    join path name ≠ ['/'] ∧ dirname (join path name) = path ∧
      basename (join path name) = name := by
  by_cases empty : name = []
  · subst empty
    obtain rfl | ⟨start, last, rfl, notSlash⟩ := isPath.root_or_endsInName
    · exact absurd rfl (notRoot rfl)
    · have joined : join (start ++ [last]) [] = (start ++ [last]) ++ ['/'] := by
        simp [join, notSlash]
      rw [joined]
      refine ⟨?_, ?_, ?_⟩
      · intro same
        have lengths := congrArg List.length same
        simp at lengths
      · simp [dirname, notSlash]
      · simp [basename]
  · have proper : ProperName name := ⟨empty, noSlash⟩
    exact ⟨isPath.join_ne_root proper, isPath.dirname_join proper, isPath.basename_join proper⟩

/-! ## The set of children -/

section Sets

variable {settings : CacheSettings} {world : World}

/-- Time passes and others change Drive; any access may fail and any entry be
evicted. -/
abbrev unguarded (settings : CacheSettings) :
    Program.Environment World Request Request.Answer :=
  environment settings (fun _ _ _ => True) (fun _ _ => True)

/-- What goes by itself is neither in the sets nor known. -/
structure World.Drifts (world later : World) : Prop where
  sets : later.cache.parentPathToChildrenPaths = world.cache.parentPathToChildrenPaths
  known : later.known = world.known
  loaded : ∀ dirId, later.Loaded dirId → world.Loaded dirId

theorem World.Drifts.of_drifts {later : World}
    (drifts : Relation.ReflTransGen (unguarded settings).drifts world later) :
    world.Drifts later := by
  induction drifts with
  | refl => exact ⟨rfl, rfl, fun _ => id⟩
  | tail _ drifted induction =>
      rcases drifted with ⟨duration, -, rfl⟩ | ⟨drive, rfl⟩
      · exact ⟨induction.sets, induction.known, fun dirId loaded =>
          induction.loaded dirId (PathCache.loaded_of_tick _ loaded)⟩
      · exact ⟨induction.sets, induction.known, induction.loaded⟩

theorem World.Drifts.mem_getChildrenPaths {later : World} (drifts : world.Drifts later)
    {parent child : Str} : child ∈ later.cache.getChildrenPaths parent ↔
      child ∈ world.cache.getChildrenPaths parent := by
  unfold PathCache.getChildrenPaths
  rw [drifts.sets]

theorem drifts_of_done {α : Type} {ended result : Except Errno α} {finish : World}
    (execution : Executes (unguarded settings) world (.done ended) result finish) :
    result = ended ∧ world.Drifts finish := by
  obtain ⟨same, drifts⟩ := execution.of_done
  exact ⟨same, .of_drifts drifts⟩

theorem served_of_perform {α : Type} {request : Request} {next : request.Answer → Op α}
    {result : Except Errno α} {finish : World}
    (execution : Executes (unguarded settings) world (perform request >>= next) result finish) :
    ∃ before choice, world.Drifts before ∧ Executes (unguarded settings)
      (serve settings choice before request).2
      (next (serve settings choice before request).1) result finish := by
  obtain ⟨before, answer, after, drifts, served, rest⟩ := execution.of_perform
  obtain ⟨choice, -, -, same⟩ := served
  refine ⟨before, choice, .of_drifts drifts, ?_⟩
  rw [same]
  exact rest

/-- What the loop of `_load_children` adds to the sets. -/
theorem getChildrenPaths_of_mapChildren {path parent child : Str} {items : List Item}
    {finish : World}
    (execution : Executes (unguarded settings) world (mapChildren path items) (.ok ()) finish) :
    finish.known = world.known ∧ (child ∈ finish.cache.getChildrenPaths parent ↔
      child ∈ world.cache.getChildrenPaths parent ∨
        ∃ item ∈ items, child = join path item.name ∧ DirectlyBelow parent child) := by
  induction items generalizing world with
  | nil =>
      obtain ⟨-, drifts⟩ := drifts_of_done execution
      refine ⟨drifts.known, ?_⟩
      rw [drifts.mem_getChildrenPaths]
      simp
  | cons item items induction =>
      obtain ⟨before, choice, drifts, rest⟩ := served_of_perform execution
      obtain ⟨sameKnown, shown⟩ := induction rest
      refine ⟨sameKnown.trans drifts.known, ?_⟩
      rw [shown]
      have mapped := before.cache.mem_getChildrenPaths_map settings choice.victim
        (join path item.name) parent child item.fileId
      show child ∈ (before.cache.mapPathToNodeId settings choice.victim (join path item.name)
        item.fileId).getChildrenPaths parent ∨ _ ↔ _
      rw [mapped, drifts.mem_getChildrenPaths, or_assoc]
      refine or_congr_right ?_
      constructor
      · rintro (⟨rfl, notRoot, below⟩ | ⟨other, member, facts⟩)
        · exact ⟨item, List.mem_cons_self, rfl, notRoot, below⟩
        · exact ⟨other, List.mem_cons_of_mem _ member, facts⟩
      · rintro ⟨other, member, same, notRoot, below⟩
        rcases List.mem_cons.mp member with rfl | later
        · exact .inl ⟨same, same ▸ notRoot, same ▸ below⟩
        · exact .inr ⟨other, later, same, notRoot, below⟩

theorem listChildren_relist (tree : DriveTree) (dirId : NodeId) (items : List Item) :
    (tree.relist dirId items).listChildren dirId = items := by
  unfold DriveTree.relist DriveTree.listChildren
  rw [List.filter_append, List.filter_filter, List.map_append]
  have noOld : (tree.edges.filter fun edge =>
      decide (edge.parent = dirId) && decide (edge.parent ≠ dirId)) = [] := by
    simp
  rw [noOld]
  simp [List.filter_map, Function.comp_def]

/-- A listing that is not loaded yet is known afterwards, and maps what it
lists. -/
theorem getChildrenPaths_of_loadChildren {path parent child : Str} {dirId : NodeId}
    {finish : World} (notLoaded : ¬ world.Loaded dirId)
    (execution : Executes (unguarded settings) world (loadChildren dirId path) (.ok ()) finish) :
    child ∈ finish.cache.getChildrenPaths parent ↔
      child ∈ world.cache.getChildrenPaths parent ∨
        ∃ item ∈ finish.known.listChildren dirId,
          child = join path item.name ∧ DirectlyBelow parent child := by
  obtain ⟨checked, _, toChecked, checking⟩ := served_of_perform execution
  have stillNotLoaded : checked.cache.isDirectoryChildrenLoaded dirId = false :=
    Bool.eq_false_iff.mpr fun loaded => notLoaded (toChecked.loaded dirId loaded)
  change Executes (unguarded settings) checked
    (if checked.cache.isDirectoryChildrenLoaded dirId then _ else _ : Op Unit) _ _ at checking
  rw [stillNotLoaded, if_neg Bool.false_ne_true] at checking
  obtain ⟨listing, choice, toListing, answered⟩ := served_of_perform checking
  cases fails : choice.fails with
  | some errno =>
      rw [serve_listChildren_failed fails] at answered
      cases (drifts_of_done answered).1
  | none =>
      rw [serve_listChildren fails] at answered
      rcases answered.of_bind with ⟨_, impossible, -⟩ | ⟨_, mapped, mapping, marking⟩
      · cases impossible
      obtain ⟨sameKnown, mapsListed⟩ := @getChildrenPaths_of_mapChildren _ _ _ parent child
        _ _ mapping
      change Executes _ _ (perform (Request.markDirectoryChildrenLoaded dirId) >>= pure : Op Unit)
        _ _ at marking
      obtain ⟨marked, mark, toMarked, ended⟩ := served_of_perform marking
      obtain ⟨-, toFinish⟩ := drifts_of_done ended
      have known : finish.known.listChildren dirId = listing.drive.listChildren dirId := by
        rw [toFinish.known]
        change marked.known.listChildren dirId = _
        rw [toMarked.known, sameKnown]
        exact listChildren_relist _ _ _
      rw [toFinish.mem_getChildrenPaths, known]
      change child ∈ marked.cache.getChildrenPaths parent ↔ _
      rw [toMarked.mem_getChildrenPaths, mapsListed]
      change child ∈ listing.cache.getChildrenPaths parent ∨ _ ↔ _
      rw [toListing.mem_getChildrenPaths, toChecked.mem_getChildrenPaths]

theorem listAndShow_shows {path : Str} {dirId : NodeId} {finish : World} {entries : List Str}
    (notLoaded : ¬ world.Loaded dirId)
    (execution : Executes (unguarded settings) world (listAndShow dirId path) (.ok entries)
      finish) :
    ∃ children : List Str, (∀ child, child ∈ children ↔
        child ∈ world.cache.getChildrenPaths path ∨
          ∃ item ∈ finish.known.listChildren dirId, child = join path item.name ∧
            DirectlyBelow path child) ∧
      ∀ name, ¬ Reserved path name → (name ∈ entries ↔ name ∈ children.map basename) := by
  rcases execution.of_bind with ⟨_, impossible, -⟩ | ⟨_, loaded, loading, showing⟩
  · cases impossible
  obtain ⟨shown, _, toShown, ending⟩ := served_of_perform showing
  have sets (child : Str) := @getChildrenPaths_of_loadChildren _ _ path path child _ _
    notLoaded loading
  let children := shown.cache.getChildrenPaths path
  let all := ['.'] :: ['.', '.'] :: children.map basename
  change Executes _ _ (if path = ['/'] ∧ ['s', 't', 'a', 't', 's'] ∉ all then
    pure (all ++ [['s', 't', 'a', 't', 's']]) else pure all : Op (List Str)) _ _ at ending
  have ended : entries = (if path = ['/'] ∧ ['s', 't', 'a', 't', 's'] ∉ all then
      all ++ [['s', 't', 'a', 't', 's']] else all) ∧ World.Drifts { shown with loading := none }
        finish := by
    split at ending
    · rename_i root
      obtain ⟨same, drifts⟩ := drifts_of_done ending
      exact ⟨(Except.ok.inj same).trans (if_pos root).symm, drifts⟩
    · rename_i notRoot
      obtain ⟨same, drifts⟩ := drifts_of_done ending
      exact ⟨(Except.ok.inj same).trans (if_neg notRoot).symm, drifts⟩
  obtain ⟨rfl, toFinish⟩ := ended
  have sameKnown : finish.known = loaded.known := toFinish.known.trans toShown.known
  refine ⟨children, fun child => ?_, fun name notReserved => ?_⟩
  · rw [sameKnown, ← sets child]
    exact toShown.mem_getChildrenPaths
  · have notDot : name ≠ ['.'] := fun same => notReserved (.inl same)
    have notDots : name ≠ ['.', '.'] := fun same => notReserved (.inr (.inl same))
    have inAll : name ∈ all ↔ name ∈ children.map basename := by
      simp only [all, List.mem_cons, notDot, notDots, false_or]
    split
    · rename_i root
      have notStats : name ≠ ['s', 't', 'a', 't', 's'] :=
        fun same => notReserved (.inr (.inr ⟨root.1, same⟩))
      rw [List.mem_append, inAll, List.mem_singleton, or_iff_left notStats]
    · exact inAll

theorem basename_of_listed {path child name : Str} (isPath : IsPath path) (noSlash : '/' ∉ name)
    (made : child = join path name) (notRoot : child ≠ ['/']) : basename child = name := by
  subst made
  refine (isPath.shows noSlash ?_).2.2
  rintro rfl rfl
  exact notRoot rfl

end Sets

/-! ## Runs with their accesses -/

section Runs

variable {settings : CacheSettings}

/-- The accesses are recorded, the last one first. -/
def recorded (settings : CacheSettings) :
    Program.Environment (World × List Request) Request Request.Answer where
  serves state request answer later :=
    (unguarded settings).serves state.1 request answer later.1 ∧ later.2 = request :: state.2
  drifts state later := (unguarded settings).drifts state.1 later.1 ∧ later.2 = state.2

/-- One operation, with a result or with an error. -/
def PerformsRecorded (settings : CacheSettings) (rootId : NodeId)
    (state later : World × List Request) : Prop :=
  ∃ (operation : Operation) (result : Except Errno Unit), operation.Proper ∧
    Executes (recorded settings) state (operation.program rootId) result later

theorem Executes.of_recorded {α : Type} {program : Op α} {result : Except Errno α}
    {state later : World × List Request}
    (execution : Executes (recorded settings) state program result later) :
    Executes (unguarded settings) state.1 program result later.1 := by
  induction execution with
  | done => exact .done
  | drift drifted _ induction => exact .drift drifted.1 induction
  | ask served _ induction => exact .ask served.1 induction

/-- The sets of children hold what the accesses remember. -/
structure SetsRemember (state : World × List Request) : Prop where
  nodup : ∀ parent, (state.1.cache.getChildrenPaths parent).Nodup
  holds : ∀ {parent child}, child ∈ state.1.cache.getChildrenPaths parent ↔
    DirectlyBelow parent child ∧ Remembers state.2 child

namespace SetsRemember

variable {world later : World} {accesses : List Request}

/-- An access that leaves the sets alone is remembered as nothing. -/
theorem congr (sets : SetsRemember (world, accesses)) {request : Request}
    (same : later.cache.parentPathToChildrenPaths = world.cache.parentPathToChildrenPaths)
    (forgets : ∀ child, Remembers (request :: accesses) child ↔ Remembers accesses child) :
    SetsRemember (later, request :: accesses) := by
  have sameSet (parent : Str) :
      later.cache.getChildrenPaths parent = world.cache.getChildrenPaths parent := by
    unfold PathCache.getChildrenPaths
    rw [same]
  constructor
  · intro parent
    exact sameSet parent ▸ sets.nodup parent
  · intro parent child
    show child ∈ later.cache.getChildrenPaths parent ↔ _ ∧ Remembers (request :: accesses) child
    rw [sameSet, forgets]
    exact sets.holds

theorem map (sets : SetsRemember (world, accesses)) (choice : Choice) (path : Str)
    (fileId : NodeId) :
    SetsRemember ((serve settings choice world (.mapPathToNodeId path fileId)).2,
      .mapPathToNodeId path fileId :: accesses) := by
  constructor
  · intro parent
    show ((world.cache.mapPathToNodeId settings choice.victim path fileId).getChildrenPaths
      parent).Nodup
    unfold PathCache.getChildrenPaths PathCache.mapPathToNodeId PathCache.changeChildren
    split
    · exact sets.nodup parent
    · simp only [Dict.lookup_insert_eq]
      split
      · exact (sets.nodup (dirname path)).insert
      · exact sets.nodup parent
  · intro parent child
    show child ∈ (world.cache.mapPathToNodeId settings choice.victim path fileId).getChildrenPaths
      parent ↔ DirectlyBelow parent child ∧ (child = path ∨ Remembers accesses child)
    rw [PathCache.mem_getChildrenPaths_map, and_or_left, or_comm]
    refine or_congr ?_ sets.holds
    constructor
    · rintro ⟨rfl, below⟩
      exact ⟨below, rfl⟩
    · rintro ⟨below, rfl⟩
      exact ⟨rfl, below⟩

theorem invalidate (sets : SetsRemember (world, accesses)) (choice : Choice) (path : Str) :
    SetsRemember ((serve settings choice world (.invalidatePath path)).2,
      .invalidatePath path :: accesses) := by
  have shrunk (parent : Str) : (world.cache.invalidatePath path).getChildrenPaths parent =
      if path ≠ ['/'] ∧ parent = dirname path then (world.cache.getChildrenPaths parent).erase path
      else world.cache.getChildrenPaths parent := by
    unfold PathCache.getChildrenPaths PathCache.invalidatePath PathCache.changeChildren
    by_cases isRoot : path = ['/']
    · simp [isRoot]
    · by_cases same : parent = dirname path
      · subst same
        simp [isRoot, PathCache.getChildrenPaths]
      · simp [isRoot, same]
  constructor
  · intro parent
    show ((world.cache.invalidatePath path).getChildrenPaths parent).Nodup
    rw [shrunk]
    split
    · exact (sets.nodup parent).erase path
    · exact sets.nodup parent
  · intro parent child
    show child ∈ (world.cache.invalidatePath path).getChildrenPaths parent ↔
      DirectlyBelow parent child ∧ child ≠ path ∧ Remembers accesses child
    rw [shrunk, and_left_comm]
    split
    · rw [(sets.nodup parent).mem_erase_iff]
      exact and_congr_right fun _ => sets.holds
    · rename_i notHere
      refine ⟨fun member => ⟨?_, sets.holds.mp member⟩, fun facts => sets.holds.mpr facts.2⟩
      rintro rfl
      obtain ⟨⟨notRoot, here⟩, -⟩ := sets.holds.mp member
      exact notHere ⟨notRoot, here.symm⟩

theorem serve (sets : SetsRemember (world, accesses)) (choice : Choice) (request : Request) :
    SetsRemember ((Fuse.serve settings choice world request).2, request :: accesses) := by
  cases request with
  | mapPathToNodeId path fileId => exact sets.map choice path fileId
  | invalidatePath path => exact sets.invalidate choice path
  | listChildren | createFolder | updateFile =>
      refine sets.congr ?_ fun child => Iff.rfl
      unfold Fuse.serve
      split
      · rfl
      · rfl
  | deleteFile fileId =>
      refine sets.congr ?_ fun child => Iff.rfl
      obtain ⟨fails, -, -, -⟩ := choice
      cases fails with
      | none => rfl
      | some errno => rfl
  | _ => exact sets.congr rfl fun child => Iff.rfl

theorem moves {state later : World × List Request} (sets : SetsRemember state)
    (moved : (recorded settings).Moves state later) : SetsRemember later := by
  obtain ⟨world, accesses⟩ := state
  obtain ⟨later, after⟩ := later
  rcases moved with ⟨drifted, same⟩ | ⟨request, answer, ⟨choice, -, -, served⟩, same⟩
  · cases same
    rcases drifted with ⟨duration, -, rfl⟩ | ⟨drive, rfl⟩
    · exact ⟨sets.nodup, sets.holds⟩
    · exact ⟨sets.nodup, sets.holds⟩
  · cases same
    have became : later = (Fuse.serve settings choice world request).2 := by rw [served]
    exact became ▸ sets.serve choice request

theorem executes {α : Type} {program : Op α} {result : Except Errno α}
    {state later : World × List Request} (sets : SetsRemember state)
    (execution : Executes (recorded settings) state program result later) :
    SetsRemember later := by
  have moves := execution.moves
  clear execution
  induction moves with
  | refl => exact sets
  | tail _ moved induction => exact induction.moves moved

theorem of_reached {rootId : NodeId} {now : Nat} {drive : DriveTree}
    {state : World × List Request}
    (reached : Relation.ReflTransGen (PerformsRecorded settings rootId)
      (World.start settings rootId now drive, []) state) : SetsRemember state := by
  induction reached with
  | refl =>
      constructor
      · intro parent
        exact List.nodup_nil
      · intro parent child
        constructor
        · intro member
          cases member
        · intro facts
          exact facts.2.elim
  | tail _ performed induction =>
      obtain ⟨operation, result, -, execution⟩ := performed
      exact induction.executes execution

end SetsRemember

/-- In every run a fresh listing shows exactly what Drive listed and what is
still to be uploaded if and only if nothing else was mapped below the path and
not invalidated since.  `known` has what Drive listed. -/
theorem readdir_noGhosts_iff {rootId dirId : NodeId} {now : Nat} {drive : DriveTree}
    {state asked finish : World × List Request} {path : Str} {entries : List Str}
    {unfinished : Str → Prop}
    (reached : Relation.ReflTransGen (PerformsRecorded settings rootId)
      (World.start settings rootId now drive, []) state)
    (isPath : IsPath path)
    (resolved : Executes (recorded settings) state (resolvePath rootId path) (.ok (some dirId))
      asked)
    (notLoaded : ¬ asked.1.Loaded dirId)
    (shows : Executes (recorded settings) asked (listAndShow dirId path) (.ok entries) finish) :
    NoGhosts path (finish.1.known.listChildren dirId) unfinished entries ↔
      NothingElse asked.2 path (finish.1.known.listChildren dirId) unfinished := by
  have sets := (SetsRemember.of_reached reached).executes resolved
  obtain ⟨children, inSet, shown⟩ := listAndShow_shows notLoaded (Executes.of_recorded shows)
  simp only [sets.holds] at inSet
  constructor
  · intro noGhosts
    have noSlash : ∀ item ∈ finish.1.known.listChildren dirId, '/' ∉ item.name := by
      intro item listed slash
      have notReserved : ¬ Reserved path item.name := by
        rintro (same | same | ⟨-, same⟩) <;> simp [same] at slash
      have isShown := (noGhosts item.name notReserved).mpr
        (.inl (List.mem_map_of_mem (f := Item.name) listed))
      obtain ⟨child, -, same⟩ := List.mem_map.mp ((shown _ notReserved).mp isShown)
      exact slash_notMem_basename child (same ▸ slash)
    refine ⟨fun item listed => ⟨noSlash item listed, fun empty root => ?_⟩, ?_, ?_⟩
    · have notReserved : ¬ Reserved path [] := by
        rintro (same | same | ⟨-, same⟩) <;> cases same
      have isShown := (noGhosts [] notReserved).mpr
        (.inl (List.mem_map.mpr ⟨item, listed, empty⟩))
      obtain ⟨child, member, same⟩ := List.mem_map.mp ((shown _ notReserved).mp isShown)
      rcases (inSet child).mp member with was | ⟨other, alsoListed, made, notRoot, -⟩
      · exact ⟨child, was.1, was.2, same⟩
      · have named := basename_of_listed isPath (noSlash other alsoListed) made notRoot
        rw [same] at named
        rw [← named, root] at made
        exact absurd made notRoot
    · intro child below remembered notReserved
      have member := List.mem_map_of_mem (f := basename)
        ((inSet child).mpr (.inl ⟨below, remembered⟩))
      exact (noGhosts _ notReserved).mp ((shown _ notReserved).mpr member)
    · intro name toUpload notReserved
      have isShown := (noGhosts name notReserved).mpr (.inr toUpload)
      obtain ⟨child, member, rfl⟩ := List.mem_map.mp ((shown _ notReserved).mp isShown)
      rcases (inSet child).mp member with was | ⟨item, listed, made, notRoot, -⟩
      · exact .inr ⟨child, was.1, was.2, rfl⟩
      · rw [basename_of_listed isPath (noSlash item listed) made notRoot]
        exact .inl (List.mem_map_of_mem listed)
  · intro nothingElse name notReserved
    rw [shown name notReserved]
    constructor
    · intro isShown
      obtain ⟨child, member, rfl⟩ := List.mem_map.mp isShown
      rcases (inSet child).mp member with was | ⟨item, listed, made, notRoot, -⟩
      · exact nothingElse.old child was.1 was.2 notReserved
      · rw [basename_of_listed isPath (nothingElse.names item listed).1 made notRoot]
        exact .inl (List.mem_map_of_mem listed)
    · intro wanted
      have fromSet (was : ∃ child, DirectlyBelow path child ∧ Remembers asked.2 child ∧
          basename child = name) : name ∈ children.map basename := by
        obtain ⟨child, below, remembered, rfl⟩ := was
        exact List.mem_map_of_mem ((inSet child).mpr (.inl ⟨below, remembered⟩))
      have fromDrive (isListed : name ∈ (finish.1.known.listChildren dirId).map Item.name) :
          name ∈ children.map basename := by
        obtain ⟨item, listed, rfl⟩ := List.mem_map.mp isListed
        obtain ⟨noSlash, empty⟩ := nothingElse.names item listed
        by_cases atRoot : item.name = [] ∧ path = ['/']
        · refine fromSet ?_
          rw [atRoot.1]
          exact empty atRoot.1 atRoot.2
        · have isChild := isPath.shows noSlash fun isEmpty isRoot => atRoot ⟨isEmpty, isRoot⟩
          refine List.mem_map.mpr ⟨join path item.name, (inSet _).mpr (.inr ?_), isChild.2.2⟩
          exact ⟨item, listed, rfl, isChild.1, isChild.2.1⟩
      rcases wanted with isListed | toUpload
      · exact fromDrive isListed
      · exact (nothingElse.new name toUpload notReserved).elim fromDrive fromSet

end Runs

/-! ## A name that is gone -/

/-- Serve calmly and record the access. -/
def serveRecorded (settings : CacheSettings) (state : World × List Request)
    (request : Request) : request.Answer × (World × List Request) :=
  ((serve settings calm state.1 request).1, (serve settings calm state.1 request).2,
    request :: state.2)

theorem executes_recorded {settings : CacheSettings} {α : Type} {state : World × List Request}
    {program : Op α}
    (passed : Program.Meets (fun (state : World × List Request) request =>
      calm.Valid settings state.1 request) (serveRecorded settings) state program) :
    Executes (recorded settings) state program
      (Program.play (serveRecorded settings) state program).1
      (Program.play (serveRecorded settings) state program).2 := by
  refine Executes.of_meets (fun {state request} valid => ?_) passed
  exact ⟨⟨calm, valid, trivial, rfl⟩, rfl⟩

/-- The mount with the file `/a` on Drive, which has not asked anything. -/
def ghostStart : World × List Request := (World.start defaultSettings sampleRoot 0 sampleDrive, [])

/-- A listing of the root. -/
def ghostListed : Except Errno (List Str) × (World × List Request) :=
  Program.play (serveRecorded defaultSettings) ghostStart (listAndShow sampleRoot ['/'])

/-- Somebody deletes `/a` on Drive, and the lifetime of the flag passes. -/
def ghostForgotten : World × List Request :=
  (World.tick { ghostListed.2.1 with drive := ⟨[]⟩ } 60, ghostListed.2.2)

/-- The next listing of the root. -/
def ghostShown : Except Errno (List Str) × (World × List Request) :=
  Program.play (serveRecorded defaultSettings) ghostForgotten (listAndShow sampleRoot ['/'])

/-- The mount after one more operation. -/
def ghostAfter (operation : Operation) (state : World × List Request) : World × List Request :=
  (Program.play (serveRecorded defaultSettings) state (operation.program sampleRoot)).2

theorem performs_ghostAfter {operation : Operation} (proper : operation.Proper)
    {state : World × List Request}
    (passed : Program.Meets (fun (state : World × List Request) request =>
      calm.Valid defaultSettings state.1 request) (serveRecorded defaultSettings) state
      (operation.program sampleRoot)) :
    PerformsRecorded defaultSettings sampleRoot state (ghostAfter operation state) :=
  ⟨operation, _, proper, executes_recorded passed⟩

/-- The root was listed, and `/b` made. -/
def ghostMade : World × List Request :=
  ghostAfter (.create ['/', 'b']) (ghostAfter (.readdir ['/']) ghostStart)

/-- Then `/a` was deleted. -/
def ghostDeleted : World × List Request := ghostAfter (.unlink ['/', 'a']) ghostMade

def ghostRested : World × List Request := (World.tick ghostDeleted.1 60, ghostDeleted.2)

/-- A listing of the root once the lifetime of its flag has passed. -/
def ghostRelisted : Except Errno (List Str) × (World × List Request) :=
  Program.play (serveRecorded defaultSettings) ghostRested (listAndShow sampleRoot ['/'])

/-- Drive lists nothing by then, and `/b` is still to be uploaded. -/
theorem readdir_noGhosts_iff_worked :
    ghostRelisted.2.1.known.listChildren sampleRoot = [] ∧
      (NoGhosts ['/'] (ghostRelisted.2.1.known.listChildren sampleRoot) (· = ['b'])
          [['.'], ['.', '.'], ['b'], ['s', 't', 'a', 't', 's']] ↔
        NothingElse ghostRested.2 ['/'] (ghostRelisted.2.1.known.listChildren sampleRoot)
          (· = ['b'])) := by
  have readdirProper : Operation.Proper (.readdir ['/']) := IsPath.root
  have createProper : Operation.Proper (.create ['/', 'b']) :=
    ⟨isPath_single (by decide), by decide⟩
  have unlinkProper : Operation.Proper (.unlink ['/', 'a']) :=
    ⟨isPath_single (by decide), by decide⟩
  have reached : Relation.ReflTransGen (PerformsRecorded defaultSettings sampleRoot) ghostStart
      ghostDeleted :=
    .tail (.tail (.single (performs_ghostAfter readdirProper (by decide)))
      (performs_ghostAfter createProper (by decide)))
      (performs_ghostAfter unlinkProper (by decide))
  have expires : (recorded defaultSettings).drifts ghostDeleted ghostRested :=
    ⟨.inl ⟨60, trivial, rfl⟩, rfl⟩
  have resolved : Executes (recorded defaultSettings) ghostDeleted
      (resolvePath sampleRoot ['/']) (.ok (some sampleRoot)) ghostRested := .drift expires .done
  have shows : Executes (recorded defaultSettings) ghostRested (listAndShow sampleRoot ['/'])
      (.ok [['.'], ['.', '.'], ['b'], ['s', 't', 'a', 't', 's']]) ghostRelisted.2 :=
    executes_recorded (by decide)
  exact ⟨by decide, readdir_noGhosts_iff reached .root resolved (by decide) shows⟩

/-- Not so in every run, even if no file is created: after a listing, a deletion
by somebody else and the lifetime of the flag, the next listing finds nothing
and shows the name all the same. -/
theorem readdir_shows_ghost :
    ¬ ∀ (settings : CacheSettings) (rootId dirId : NodeId) (now : Nat) (drive : DriveTree)
      (state asked finish : World × List Request) (path : Str) (entries : List Str),
      Relation.ReflTransGen (PerformsRecorded settings rootId)
        (World.start settings rootId now drive, []) state →
      (∀ parentId name, Request.newLocalId parentId name ∉ asked.2) →
      IsPath path →
      Executes (recorded settings) state (resolvePath rootId path) (.ok (some dirId)) asked →
      ¬ asked.1.Loaded dirId →
      Executes (recorded settings) asked (listAndShow dirId path) (.ok entries) finish →
        NoGhosts path (finish.1.known.listChildren dirId) (fun _ => False) entries := by
  intro always
  have first : Executes (recorded defaultSettings) ghostStart
      ((Operation.readdir ['/']).program sampleRoot) (.ok ()) ghostListed.2 :=
    executes_recorded (by decide)
  have reached : Relation.ReflTransGen (PerformsRecorded defaultSettings sampleRoot)
      ghostStart ghostListed.2 := .single ⟨.readdir ['/'], .ok (), .root, first⟩
  have deleted : (recorded defaultSettings).drifts ghostListed.2
      ({ ghostListed.2.1 with drive := ⟨[]⟩ }, ghostListed.2.2) := ⟨.inr ⟨⟨[]⟩, rfl⟩, rfl⟩
  have expired : (recorded defaultSettings).drifts
      ({ ghostListed.2.1 with drive := ⟨[]⟩ }, ghostListed.2.2) ghostForgotten :=
    ⟨.inl ⟨60, trivial, rfl⟩, rfl⟩
  have resolved : Executes (recorded defaultSettings) ghostListed.2
      (resolvePath sampleRoot ['/']) (.ok (some sampleRoot)) ghostForgotten :=
    .drift deleted (.drift expired .done)
  have shows : Executes (recorded defaultSettings) ghostForgotten (listAndShow sampleRoot ['/'])
      (.ok [['.'], ['.', '.'], ['a'], ['s', 't', 'a', 't', 's']]) ghostShown.2 :=
    executes_recorded (by decide)
  have noCreation : ∀ parentId name, Request.newLocalId parentId name ∉ ghostForgotten.2 := by
    intro parentId name
    show Request.newLocalId parentId name ∉
      [.getChildrenPaths ['/'], .markDirectoryChildrenLoaded sampleRoot,
        .mapPathToNodeId ['/', 'a'] sampleFile, .listChildren sampleRoot ['/'],
        .isDirectoryChildrenLoaded sampleRoot]
    simp
  have noGhosts := always _ _ _ _ _ _ _ _ _ _ reached noCreation .root resolved (by decide) shows
  have listed : ghostShown.2.1.known.listChildren sampleRoot = [] := by decide
  rw [listed] at noGhosts
  have notReserved : ¬ Reserved ['/'] ['a'] := by
    unfold Reserved
    decide
  exact absurd ((noGhosts ['a'] notReserved).mp (by decide)) (by simp)

end FuseDrive.Fuse
