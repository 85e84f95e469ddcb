import FuseDrive.Dict
import Mathlib.Logic.Function.Basic

/-!
# The metadata cache

`MemoryMetadataCache` hands out the very `DriveNodeMetadata` objects it holds,
and `FuseOps.release` assigns to their fields, so the cache maps a file id to
an object and the fields live in a heap.  Whether `set_metadata` calls
`on_metadata_changed` depends on the object it replaces, which is gone once its
time to live has passed.
-/

namespace FuseDrive

structure DriveNodeMetadata where
  fileId : Str
  name : Str
  isDirectory : Bool
  size : Nat
  modifiedAtTimestamp : Nat
deriving DecidableEq

/-- `_node_id_to_metadata_map` without the entries that have expired, over a
heap of objects. -/
structure MemoryMetadataCache where
  nodeIdToMetadata : Dict Str Nat
  objects : Nat → DriveNodeMetadata
  nextObject : Nat

namespace MemoryMetadataCache

def getMetadata (cache : MemoryMetadataCache) (fileId : Str) : Option DriveNodeMetadata :=
  (cache.nodeIdToMetadata.lookup fileId).map cache.objects

/-- The storage makes a new object. -/
def allocate (cache : MemoryMetadataCache) (node : DriveNodeMetadata) :
    MemoryMetadataCache :=
  { cache with
    objects := Function.update cache.objects cache.nextObject node
    nextObject := cache.nextObject + 1 }

/-- `set_metadata` calls `on_metadata_changed`. -/
def changes (cache : MemoryMetadataCache) (fileId : Str) (object : Nat) : Bool :=
  match cache.getMetadata fileId with
  | some old =>
      !(cache.objects object).isDirectory &&
        old.modifiedAtTimestamp != (cache.objects object).modifiedAtTimestamp
  | none => false

/-- What `set_metadata` does to the map. -/
def setMetadata (cache : MemoryMetadataCache) (fileId : Str) (object : Nat) :
    MemoryMetadataCache :=
  { cache with nodeIdToMetadata := cache.nodeIdToMetadata.insert fileId object }

/-- An entry expires, is evicted or is popped by `invalidate_path`. -/
def expire (cache : MemoryMetadataCache) (fileId : Str) : MemoryMetadataCache :=
  { cache with nodeIdToMetadata := cache.nodeIdToMetadata.erase fileId }

/-- The assignments of `release` to an object. -/
def assign (cache : MemoryMetadataCache) (object size now : Nat) : MemoryMetadataCache :=
  { cache with
    objects := Function.update cache.objects object
      { cache.objects object with size := size, modifiedAtTimestamp := now } }

end MemoryMetadataCache

end FuseDrive
