import FuseDrive.Fuse.Paths
import FuseDrive.TTLCache

/-!
# Paths in the metadata cache

`MemoryMetadataCache` keeps which id a path has and which directories were
listed in two maps of the same lifetime and size, the first by path and the
second by id.  The sets of children are never bounded.
-/

namespace FuseDrive.Fuse

/-- A file id.  It is never empty, so `if cached_id` asks whether there is one. -/
abbrev NodeId := { text : Str // text ≠ [] }

structure CacheSettings where
  ttl : Nat
  maxsize : Nat
  positive : 0 < ttl

/-- The maps of the cache, with the time its timers read. -/
structure PathCache where
  now : Nat
  pathToNodeId : TTLCache Str NodeId
  fullyLoadedDirectories : TTLCache NodeId Unit
  parentPathToChildrenPaths : Dict Str (List Str)

namespace PathCache

def resolvePathToNodeId (cache : PathCache) (path : Str) : Option NodeId :=
  cache.pathToNodeId.get cache.now path

def getChildrenPaths (cache : PathCache) (parentPath : Str) : List Str :=
  (cache.parentPathToChildrenPaths.lookup parentPath).getD []

/-- The set of the directory of the path after `change`. -/
def changeChildren (cache : PathCache) (path : Str) (change : List Str → List Str) :
    Dict Str (List Str) :=
  if path = ['/'] then cache.parentPathToChildrenPaths
  else cache.parentPathToChildrenPaths.insert (dirname path)
    (change (cache.getChildrenPaths (dirname path)))

/-- `victim` is the path the map evicts. -/
def mapPathToNodeId (settings : CacheSettings) (victim : Option Str) (cache : PathCache)
    (path : Str) (fileId : NodeId) : PathCache :=
  { cache with
    pathToNodeId := cache.pathToNodeId.set settings.ttl cache.now victim path fileId
    parentPathToChildrenPaths := cache.changeChildren path (·.insert path) }

def invalidatePath (cache : PathCache) (path : Str) : PathCache :=
  { cache with
    pathToNodeId := cache.pathToNodeId.pop path
    parentPathToChildrenPaths := cache.changeChildren path (·.erase path) }

def isDirectoryChildrenLoaded (cache : PathCache) (dirId : NodeId) : Bool :=
  (cache.fullyLoadedDirectories.get cache.now dirId).isSome

/-- `victim` is the directory the map evicts. -/
def markDirectoryChildrenLoaded (settings : CacheSettings) (victim : Option NodeId)
    (cache : PathCache) (dirId : NodeId) : PathCache :=
  { cache with
    fullyLoadedDirectories :=
      cache.fullyLoadedDirectories.set settings.ttl cache.now victim dirId () }

/-- Time passes. -/
def tick (cache : PathCache) (duration : Nat) : PathCache :=
  { cache with now := cache.now + duration }

/-! ## What the operations do to the two maps -/

section Updates

variable (settings : CacheSettings) (cache : PathCache)

theorem resolve_mapPathToNodeId (victim : Option Str) (path other : Str) (fileId : NodeId) :
    (cache.mapPathToNodeId settings victim path fileId).resolvePathToNodeId other =
      if other = path then some fileId
      else if victim = some other then none
      else cache.resolvePathToNodeId other :=
  TTLCache.get_set settings.positive _ _ _ _ _ _

@[simp] theorem loaded_mapPathToNodeId (victim : Option Str) (path : Str)
    (fileId dirId : NodeId) :
    (cache.mapPathToNodeId settings victim path fileId).isDirectoryChildrenLoaded dirId =
      cache.isDirectoryChildrenLoaded dirId := rfl

theorem resolve_invalidatePath (path other : Str) :
    (cache.invalidatePath path).resolvePathToNodeId other =
      if other = path then none else cache.resolvePathToNodeId other :=
  TTLCache.get_pop _ _ _ _

@[simp] theorem loaded_invalidatePath (path : Str) (dirId : NodeId) :
    (cache.invalidatePath path).isDirectoryChildrenLoaded dirId =
      cache.isDirectoryChildrenLoaded dirId := rfl

@[simp] theorem resolve_markDirectoryChildrenLoaded (victim : Option NodeId) (dirId : NodeId)
    (path : Str) :
    (cache.markDirectoryChildrenLoaded settings victim dirId).resolvePathToNodeId path =
      cache.resolvePathToNodeId path := rfl

theorem loaded_markDirectoryChildrenLoaded (victim : Option NodeId) (dirId other : NodeId) :
    (cache.markDirectoryChildrenLoaded settings victim dirId).isDirectoryChildrenLoaded other =
      if other = dirId then true
      else if victim = some other then false
      else cache.isDirectoryChildrenLoaded other := by
  unfold isDirectoryChildrenLoaded markDirectoryChildrenLoaded
  rw [TTLCache.get_set settings.positive]
  split
  · rfl
  · split <;> rfl

theorem resolve_of_tick {duration : Nat} {path : Str} {fileId : NodeId}
    (found : (cache.tick duration).resolvePathToNodeId path = some fileId) :
    cache.resolvePathToNodeId path = some fileId :=
  TTLCache.get_of_le (Nat.le_add_right _ _) found

theorem loaded_of_tick {duration : Nat} {dirId : NodeId}
    (loaded : (cache.tick duration).isDirectoryChildrenLoaded dirId = true) :
    cache.isDirectoryChildrenLoaded dirId = true := by
  unfold isDirectoryChildrenLoaded at loaded ⊢
  rw [Option.isSome_iff_exists] at loaded ⊢
  obtain ⟨value, found⟩ := loaded
  exact ⟨value, TTLCache.get_of_le (Nat.le_add_right _ _) found⟩

theorem mem_getChildrenPaths_map (victim : Option Str) (path parent child : Str)
    (fileId : NodeId) :
    child ∈ (cache.mapPathToNodeId settings victim path fileId).getChildrenPaths parent ↔
      child ∈ cache.getChildrenPaths parent ∨
        child = path ∧ path ≠ ['/'] ∧ dirname path = parent := by
  unfold getChildrenPaths mapPathToNodeId changeChildren
  by_cases isRoot : path = ['/']
  · simp [isRoot]
  · simp only [if_neg isRoot, Dict.lookup_insert_eq]
    by_cases same : parent = dirname path
    · subst same
      simp [isRoot, getChildrenPaths, List.mem_insert_iff, or_comm]
    · simp [same, Ne.symm same]

end Updates

end PathCache

end FuseDrive.Fuse
