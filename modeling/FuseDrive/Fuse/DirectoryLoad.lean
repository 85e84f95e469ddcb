import FuseDrive.Fuse.LoadedFlagRuns

/-!
# What loading a directory touches

`_load_children` joins the path of a directory with names that a remote user
chose, and the cache takes the directory of the joined path for the parent.
The two agree where the name has no slash; elsewhere the load maps paths of
other directories.  A full map gives up further paths.
-/

namespace FuseDrive.Fuse

open Program (play)

/-! ## The load as a sequence of touches -/

/-- Each request is served by the next choice. -/
def serveNext (settings : CacheSettings) (state : World × (Nat → Choice))
    (request : Request) : request.Answer × (World × (Nat → Choice)) :=
  let served := serve settings (state.2 0) state.1 request
  (served.1, served.2, fun index => state.2 (index + 1))

/-- The cache after `_load_children`, where each access goes as chosen. -/
def cacheAfterLoad (settings : CacheSettings) (world : World) (choices : Nat → Choice)
    (parentId : NodeId) (parentPath : Str) : PathCache :=
  (play (serveNext settings) (world, choices) (loadChildren parentId parentPath)).2.1.cache

/-- The paths that the loop gives a new resolution or none, in order: what the
map evicts for an item, and the path of the item. -/
def touches (parentPath : Str) : List Item → (Nat → Choice) → List (Str × Option NodeId)
  | [], _ => []
  | item :: items, choices =>
      ((choices 0).victim.toList.map fun victim => (victim, none)) ++
        (join parentPath item.name, some item.fileId) ::
          touches parentPath items fun index => choices (index + 1)

def lastTouch : List (Str × Option NodeId) → Str → Option (Option NodeId)
  | [], _ => none
  | touch :: later, path =>
      (lastTouch later path).or (if touch.1 = path then some touch.2 else none)

theorem lastTouch_append (first later : List (Str × Option NodeId)) (path : Str) :
    lastTouch (first ++ later) path = (lastTouch later path).or (lastTouch first path) := by
  induction first with
  | nil => rw [List.nil_append, lastTouch, Option.or_none]
  | cons touch first induction =>
      rw [List.cons_append, lastTouch, induction, lastTouch, Option.or_assoc]

theorem lastTouch_victim (victim : Option Str) (path : Str) :
    lastTouch (victim.toList.map fun other => (other, none)) path =
      if victim = some path then some none else none := by
  cases victim with
  | none => rfl
  | some other =>
      simp only [Option.toList_some, List.map_cons, List.map_nil, lastTouch, Option.none_or,
        Option.some.injEq]

theorem resolve_pass (settings : CacheSettings) (cache : PathCache) (victim : Option Str)
    (path other : Str) (fileId : NodeId) :
    (cache.mapPathToNodeId settings victim path fileId).resolvePathToNodeId other =
      (lastTouch ((victim.toList.map fun evicted => (evicted, none)) ++ [(path, some fileId)])
        other).getD (cache.resolvePathToNodeId other) := by
  rw [cache.resolve_mapPathToNodeId, lastTouch_append, lastTouch_victim, lastTouch]
  by_cases same : other = path
  · rw [if_pos same, if_pos same.symm]
    rfl
  · rw [if_neg same, if_neg (Ne.symm same)]
    split <;> rfl

/-- What the loop does to the cache. -/
structure Mapped (parentPath : Str) (items : List Item) (choices : Nat → Choice)
    (before after : PathCache) : Prop where
  resolve : ∀ path, after.resolvePathToNodeId path =
    (lastTouch (touches parentPath items choices) path).getD (before.resolvePathToNodeId path)
  children : ∀ directory child, child ∈ after.getChildrenPaths directory ↔
    child ∈ before.getChildrenPaths directory ∨
      ∃ item ∈ items, child = join parentPath item.name ∧ child ≠ ['/'] ∧
        dirname child = directory

theorem mapped_mapChildren (settings : CacheSettings) (parentPath : Str) (items : List Item)
    (world : World) (choices : Nat → Choice) :
    (play (serveNext settings) (world, choices) (mapChildren parentPath items)).1 = .ok () ∧
      Mapped parentPath items choices world.cache
        (play (serveNext settings) (world, choices) (mapChildren parentPath items)).2.1.cache := by
  induction items generalizing world choices with
  | nil =>
      refine ⟨rfl, ?_⟩
      constructor
      · intro path
        rfl
      · intro directory child
        refine (or_iff_left ?_).symm
        rintro ⟨item, member, _⟩
        cases member
  | cons item items induction =>
      obtain ⟨ended, later⟩ := induction
        (serve settings (choices 0) world
          (.mapPathToNodeId (join parentPath item.name) item.fileId)).2
        (fun index => choices (index + 1))
      rw [mapChildren, Program.play_perform]
      refine ⟨ended, ?_⟩
      constructor
      · intro path
        rw [serveNext, later.resolve path, touches, List.append_cons, lastTouch_append]
        rw [show ((serve settings (choices 0) world
            (.mapPathToNodeId (join parentPath item.name) item.fileId)).2).cache =
          world.cache.mapPathToNodeId settings (choices 0).victim (join parentPath item.name)
            item.fileId from rfl, resolve_pass]
        cases lastTouch (touches parentPath items fun index => choices (index + 1)) path with
        | some value => rfl
        | none => rfl
      · intro directory child
        rw [serveNext, later.children directory child]
        rw [show ((serve settings (choices 0) world
            (.mapPathToNodeId (join parentPath item.name) item.fileId)).2).cache =
          world.cache.mapPathToNodeId settings (choices 0).victim (join parentPath item.name)
            item.fileId from rfl, PathCache.mem_getChildrenPaths_map]
        constructor
        · rintro ((known | ⟨rfl, notRoot, isDirectory⟩) | ⟨other, member, found⟩)
          · exact Or.inl known
          · exact Or.inr ⟨item, List.mem_cons_self, rfl, notRoot, isDirectory⟩
          · exact Or.inr ⟨other, List.mem_cons_of_mem item member, found⟩
        · rintro (known | ⟨other, member, isChild, notRoot, isDirectory⟩)
          · exact Or.inl (Or.inl known)
          · obtain rfl | member := List.mem_cons.mp member
            · exact Or.inl (Or.inr ⟨isChild, isChild ▸ notRoot, isChild ▸ isDirectory⟩)
            · exact Or.inr ⟨other, member, isChild, notRoot, isDirectory⟩

/-! ## The whole load -/

section Load

variable {settings : CacheSettings} {world : World} {choices : Nat → Choice}
  {parentId : NodeId} {parentPath : Str}

theorem cacheAfterLoad_of_loaded (loaded : world.Loaded parentId) :
    cacheAfterLoad settings world choices parentId parentPath = world.cache := by
  have answer : (serveNext settings (world, choices)
      (.isDirectoryChildrenLoaded parentId)).1 = true := loaded
  rw [cacheAfterLoad, loadChildren, Program.play_perform, answer, if_pos rfl]
  rfl

theorem cacheAfterLoad_eq (notLoaded : ¬ world.Loaded parentId) :
    cacheAfterLoad settings world choices parentId parentPath =
      (play (serveNext settings) (world, fun index => choices (index + 1)) (do
        match ← Program.perform (Request.listChildren parentId parentPath) with
        | none => Program.raise .exception
        | some items =>
            mapChildren parentPath items
            Program.perform (Request.markDirectoryChildrenLoaded parentId))).2.1.cache := by
  have answer : (serveNext settings (world, choices)
      (.isDirectoryChildrenLoaded parentId)).1 = false := Bool.not_eq_true _ ▸ notLoaded
  rw [cacheAfterLoad, loadChildren, Program.play_perform, answer, if_neg Bool.false_ne_true]
  rfl

theorem cacheAfterLoad_of_failed (failed : (choices 1).fails ≠ none) :
    cacheAfterLoad settings world choices parentId parentPath = world.cache := by
  by_cases loaded : world.Loaded parentId
  · exact cacheAfterLoad_of_loaded loaded
  · obtain ⟨errno, fails⟩ := Option.ne_none_iff_exists'.mp failed
    have answer := @serve_listChildren_failed settings (choices 1) world parentId parentPath
      errno fails
    rw [cacheAfterLoad_eq loaded, Program.play_perform, serveNext, answer]
    rfl

theorem mapped_load (notLoaded : ¬ world.Loaded parentId) (listed : (choices 1).fails = none) :
    Mapped parentPath (world.drive.listChildren parentId) (fun index => choices (index + 2))
      world.cache (cacheAfterLoad settings world choices parentId parentPath) := by
  have answer := @serve_listChildren settings (choices 1) world parentId parentPath listed
  rw [cacheAfterLoad_eq notLoaded, Program.play_perform, serveNext, answer]
  dsimp only
  have mapping := mapped_mapChildren settings parentPath (world.drive.listChildren parentId)
    { world with
      known := world.known.relist parentId (world.drive.listChildren parentId)
      loading := some ⟨parentId, parentPath, []⟩ }
    (fun index => choices (index + 2))
  rw [Program.play_bind]
  match outcome : play (serveNext settings) ({ world with
      known := world.known.relist parentId (world.drive.listChildren parentId)
      loading := some ⟨parentId, parentPath, []⟩ }, fun index => choices (index + 2))
      (mapChildren parentPath (world.drive.listChildren parentId)) with
  | (.error errno, later) =>
      rw [outcome] at mapping
      cases mapping.1
  | (.ok _, later) =>
      rw [outcome] at mapping
      exact ⟨mapping.2.resolve, mapping.2.children⟩

end Load

/-! ## The frame -/

/-- Only paths of the directory get another resolution, and only its own set
of children gets new entries. -/
structure LoadFramed (parentPath : Str) (before after : PathCache) : Prop where
  resolution : ∀ path, dirname path ≠ parentPath →
    after.resolvePathToNodeId path = before.resolvePathToNodeId path
  children : ∀ directory, directory ≠ parentPath →
    ∀ child ∈ after.getChildrenPaths directory, child ∈ before.getChildrenPaths directory

/-- A path of another directory is touched last, if at all, by mapping it to
the id it has, or by evicting it again where it has none.  Where it is a joined
one its directory knows it. -/
structure StaysInside (parentPath : Str) (cache : PathCache) (items : List Item)
    (choices : Nat → Choice) : Prop where
  resolution : ∀ path, dirname path ≠ parentPath → ∀ value,
    lastTouch (touches parentPath items choices) path = some value →
      value = cache.resolvePathToNodeId path
  children : ∀ item ∈ items,
    join parentPath item.name = ['/'] ∨ dirname (join parentPath item.name) = parentPath ∨
      join parentPath item.name ∈ cache.getChildrenPaths (dirname (join parentPath item.name))

theorem Mapped.framed_iff {parentPath : Str} {items : List Item} {choices : Nat → Choice}
    {before after : PathCache} (mapped : Mapped parentPath items choices before after) :
    LoadFramed parentPath before after ↔ StaysInside parentPath before items choices := by
  constructor
  · intro framed
    constructor
    · intro path elsewhere value touched
      have same := framed.resolution path elsewhere
      rw [mapped.resolve, touched] at same
      exact same
    · intro item member
      by_cases isRoot : join parentPath item.name = ['/']
      · exact Or.inl isRoot
      · by_cases inside : dirname (join parentPath item.name) = parentPath
        · exact Or.inr (Or.inl inside)
        · refine Or.inr (Or.inr (framed.children _ inside _ ?_))
          exact (mapped.children _ _).mpr (Or.inr ⟨item, member, rfl, isRoot, rfl⟩)
  · intro stays
    constructor
    · intro path elsewhere
      rw [mapped.resolve]
      match touched : lastTouch (touches parentPath items choices) path with
      | none => rfl
      | some value => exact stays.resolution path elsewhere value touched
    · intro directory elsewhere child member
      obtain known | ⟨item, listed, rfl, notRoot, rfl⟩ := (mapped.children _ _).mp member
      · exact known
      · obtain isRoot | inside | known := stays.children item listed
        · exact absurd isRoot notRoot
        · exact absurd inside elsewhere
        · exact known

theorem LoadFramed.refl (parentPath : Str) (cache : PathCache) :
    LoadFramed parentPath cache cache :=
  ⟨fun _ _ => rfl, fun _ _ _ member => member⟩

theorem mem_of_lastTouch {touched : List (Str × Option NodeId)} {path : Str}
    {value : Option NodeId} (last : lastTouch touched path = some value) :
    (path, value) ∈ touched := by
  induction touched with
  | nil => cases last
  | cons touch later induction =>
      rw [lastTouch, Option.or_eq_some_iff] at last
      obtain isLater | ⟨_, here⟩ := last
      · exact List.mem_cons_of_mem touch (induction isLater)
      · split at here
        · rename_i same
          cases here
          rw [← same]
          exact List.mem_cons_self
        · cases here

theorem of_mem_touches {parentPath path : Str} {items : List Item} {choices : Nat → Choice}
    {value : Option NodeId} (member : (path, value) ∈ touches parentPath items choices) :
    (∃ item ∈ items, path = join parentPath item.name) ∨
      ∃ index, (choices index).victim = some path := by
  induction items generalizing choices with
  | nil => cases member
  | cons item items induction =>
      rw [touches, List.mem_append, List.mem_cons] at member
      obtain isEvicted | isItem | later := member
      · obtain ⟨victim, chosen, same⟩ := List.mem_map.mp isEvicted
        cases same
        exact Or.inr ⟨0, Option.mem_toList.mp chosen⟩
      · exact Or.inl ⟨item, List.mem_cons_self, congrArg Prod.fst isItem⟩
      · obtain ⟨other, listed, same⟩ | ⟨index, evicted⟩ := induction later
        · exact Or.inl ⟨other, List.mem_cons_of_mem item listed, same⟩
        · exact Or.inr ⟨index + 1, evicted⟩

/-- Names without slashes stay inside where no other path is evicted. -/
theorem staysInside_of_properNames {parentPath : Str} {cache : PathCache} {items : List Item}
    {choices : Nat → Choice} (isPath : IsPath parentPath)
    (proper : ∀ item ∈ items, ProperName item.name)
    (room : ∀ index victim, (choices index).victim = some victim → dirname victim = parentPath) :
    StaysInside parentPath cache items choices := by
  constructor
  · intro path elsewhere value touched
    obtain ⟨item, listed, rfl⟩ | ⟨index, evicted⟩ := of_mem_touches (mem_of_lastTouch touched)
    · exact absurd (isPath.dirname_join (proper item listed)) elsewhere
    · exact absurd (room index path evicted) elsewhere
  · intro item listed
    exact Or.inr (Or.inl (isPath.dirname_join (proper item listed)))

/-- Loading a directory affects only that directory exactly if it was loaded
before, or its listing fails, or the listing stays inside. -/
theorem loadChildren_framed_iff (settings : CacheSettings) (world : World)
    (choices : Nat → Choice) (parentId : NodeId) (parentPath : Str) :
    LoadFramed parentPath world.cache
        (cacheAfterLoad settings world choices parentId parentPath) ↔
      world.Loaded parentId ∨ (choices 1).fails ≠ none ∨
        StaysInside parentPath world.cache (world.drive.listChildren parentId)
          (fun index => choices (index + 2)) := by
  by_cases loaded : world.Loaded parentId
  · rw [cacheAfterLoad_of_loaded loaded]
    exact iff_of_true (LoadFramed.refl _ _) (Or.inl loaded)
  · by_cases failed : (choices 1).fails ≠ none
    · rw [cacheAfterLoad_of_failed failed]
      exact iff_of_true (LoadFramed.refl _ _) (Or.inr (Or.inl failed))
    · rw [(mapped_load loaded (not_not.mp failed)).framed_iff, or_iff_right loaded,
        or_iff_right failed]

/-- A file at the root, and a directory that someone else shares with a file
named after its path. -/
def sharedWorld : World :=
  { World.start defaultSettings sampleRoot 0
      ⟨[⟨⟨['s'], by decide⟩, "/mail".toList, ⟨['e'], by decide⟩⟩]⟩ with
    cache := PathCache.mapPathToNodeId defaultSettings none
      ⟨0, .empty, .empty, ∅⟩ "/mail".toList ⟨['m'], by decide⟩ }

/-- The name that starts with a slash redirects the path of the file. -/
theorem loadChildren_redirects_path :
    ¬ LoadFramed "/shared".toList sharedWorld.cache
      (cacheAfterLoad defaultSettings sharedWorld (fun _ => calm) ⟨['s'], by decide⟩
        "/shared".toList) := by
  intro framed
  have redirected : (cacheAfterLoad defaultSettings sharedWorld (fun _ => calm)
      ⟨['s'], by decide⟩ "/shared".toList).resolvePathToNodeId "/mail".toList =
        some ⟨['e'], by decide⟩ := by decide
  have before : sharedWorld.cache.resolvePathToNodeId "/mail".toList =
      some ⟨['m'], by decide⟩ := by decide
  have same := framed.resolution "/mail".toList (by decide)
  rw [redirected, before] at same
  cases same

end FuseDrive.Fuse
