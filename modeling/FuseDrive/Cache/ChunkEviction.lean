import FuseDrive.Dict
import Mathlib.Data.Finset.Erase
import Mathlib.Data.Finset.Insert

/-!
# The memory chunk cache

`InMemoryChunkEvictionCache` is an `OrderedDict` of chunks with limits on
their number and on their bytes.  The dictionary is modelled with the most
recently used entry first, so that moving a key to the end is inserting it
anew and the eviction takes the last entry.
-/

namespace FuseDrive.Cache

/-- The counters and gauges the cache keeps in the `MetricsRegistry`. -/
structure EvictionMetrics where
  prefetchHits : Nat
  prefetchWaste : Nat
  cacheEvictions : Nat
  cacheSizeChunks : Nat
  cacheSizeBytes : Int
  cacheMemoryUsage : Int
deriving DecidableEq

structure InMemoryChunkEvictionCache (κ β : Type) where
  maxChunks : Nat
  maxMemoryBytes : Nat
  cache : Dict κ (List β)
  prefetchStatus : Finset κ
  currentBytes : Int
  metrics : EvictionMetrics

namespace InMemoryChunkEvictionCache

variable {κ β : Type} [DecidableEq κ]

/-- `__init__`. -/
def new (maxChunks maxMemoryBytes : Nat) : InMemoryChunkEvictionCache κ β where
  maxChunks := maxChunks
  maxMemoryBytes := maxMemoryBytes
  cache := ∅
  prefetchStatus := ∅
  currentBytes := 0
  metrics := ⟨0, 0, 0, 0, 0, 0⟩

def get (memory : InMemoryChunkEvictionCache κ β) (key : κ) :
    Option (List β) × InMemoryChunkEvictionCache κ β :=
  match memory.cache.lookup key with
  | some value =>
      let moved := { memory with cache := memory.cache.insert key value }
      if key ∈ memory.prefetchStatus then
        (some value, { moved with
          prefetchStatus := memory.prefetchStatus.erase key
          metrics := { memory.metrics with
            prefetchHits := memory.metrics.prefetchHits + 1 } })
      else (some value, moved)
  | none => (none, memory)

def updateMetrics (memory : InMemoryChunkEvictionCache κ β) :
    InMemoryChunkEvictionCache κ β :=
  { memory with
    metrics := { memory.metrics with
      cacheSizeChunks := memory.cache.entries.length
      cacheSizeBytes := memory.currentBytes
      cacheMemoryUsage := memory.currentBytes } }

/-- The limits `_evict_if_needed` restores. -/
def overLimit (memory : InMemoryChunkEvictionCache κ β) : Bool :=
  memory.maxChunks < memory.cache.entries.length ∨
    memory.maxMemoryBytes < memory.currentBytes

/-- Everything but the least recently used entry. -/
def dropOldest (cache : Dict κ (List β)) : Dict κ (List β) :=
  ⟨cache.entries.dropLast, cache.nodupKeys.sublist (List.dropLast_sublist cache.entries)⟩

/-- One round of the loop of `_evict_if_needed`. -/
def evictOldest (memory : InMemoryChunkEvictionCache κ β) (key : κ) (value : List β) :
    InMemoryChunkEvictionCache κ β :=
  { memory with
    cache := dropOldest memory.cache
    currentBytes := memory.currentBytes - value.length
    prefetchStatus := memory.prefetchStatus.erase key
    metrics := { memory.metrics with
      prefetchWaste := memory.metrics.prefetchWaste +
        if key ∈ memory.prefetchStatus then 1 else 0
      cacheEvictions := memory.metrics.cacheEvictions + 1 } }

/-- At most `rounds` rounds of the loop; every round drops an entry. -/
def evictRounds : Nat → InMemoryChunkEvictionCache κ β → InMemoryChunkEvictionCache κ β
  | 0, memory => memory
  | rounds + 1, memory =>
      match memory.cache.entries.getLast? with
      | some ⟨key, value⟩ =>
          if memory.overLimit then evictRounds rounds (memory.evictOldest key value)
          else memory
      | none => memory

def evictIfNeeded (memory : InMemoryChunkEvictionCache κ β) :
    InMemoryChunkEvictionCache κ β :=
  evictRounds memory.cache.entries.length memory

/-- The removal both `put` and `invalidate` start with. -/
def remove (memory : InMemoryChunkEvictionCache κ β) (key : κ) (value : List β) :
    InMemoryChunkEvictionCache κ β :=
  { memory with
    prefetchStatus := memory.prefetchStatus.erase key
    currentBytes := memory.currentBytes - value.length
    cache := memory.cache.erase key }

/-- The insertion of `put`. -/
def store (memory : InMemoryChunkEvictionCache κ β) (key : κ) (value : List β)
    (isPrefetch : Bool) : InMemoryChunkEvictionCache κ β :=
  { memory with
    cache := memory.cache.insert key value
    prefetchStatus :=
      if isPrefetch then insert key memory.prefetchStatus else memory.prefetchStatus
    currentBytes := memory.currentBytes + value.length }

/-- The removal of the value that `put` replaces. -/
def removeOld (memory : InMemoryChunkEvictionCache κ β) (key : κ) :
    InMemoryChunkEvictionCache κ β :=
  match memory.cache.lookup key with
  | some old => memory.remove key old
  | none => memory

def put (memory : InMemoryChunkEvictionCache κ β) (key : κ) (value : List β)
    (isPrefetch : Bool) : InMemoryChunkEvictionCache κ β :=
  (((memory.removeOld key).store key value isPrefetch).evictIfNeeded).updateMetrics

def invalidate (memory : InMemoryChunkEvictionCache κ β) (key : κ) :
    InMemoryChunkEvictionCache κ β :=
  match memory.cache.lookup key with
  | some value => (memory.remove key value).updateMetrics
  | none => memory

/-! ## Lookups -/

theorem get_fst (memory : InMemoryChunkEvictionCache κ β) (key : κ) :
    (memory.get key).1 = memory.cache.lookup key := by
  unfold get
  split
  · rename_i value present
    split <;> exact present.symm
  · rename_i absent
    exact absent.symm

theorem get_lookup (memory : InMemoryChunkEvictionCache κ β) (key other : κ) :
    (memory.get key).2.cache.lookup other = memory.cache.lookup other := by
  have moved (value : List β) (present : memory.cache.lookup key = some value) :
      (memory.cache.insert key value).lookup other = memory.cache.lookup other := by
    rw [Dict.lookup_insert_eq]
    split
    · rename_i same
      rw [same, present]
    · rfl
  unfold get
  split
  · split <;> exact moved _ ‹_›
  · rfl

theorem lookup_dropOldest {cache : Dict κ (List β)} {key : κ} {value : List β}
    (present : (dropOldest cache).lookup key = some value) :
    cache.lookup key = some value := by
  have member : (⟨key, value⟩ : Sigma fun _ : κ => List β) ∈ cache.entries.dropLast :=
    (AList.mem_lookup_iff (s := dropOldest cache)).mp present
  exact AList.mem_lookup_iff.mpr (List.dropLast_subset _ member)

theorem lookup_evictRounds {rounds : Nat} {memory : InMemoryChunkEvictionCache κ β}
    {key : κ} {value : List β}
    (present : (evictRounds rounds memory).cache.lookup key = some value) :
    memory.cache.lookup key = some value := by
  induction rounds generalizing memory with
  | zero => exact present
  | succ rounds induction =>
      unfold evictRounds at present
      split at present
      · split at present
        · exact lookup_dropOldest (induction present)
        · exact present
      · exact present

theorem removeOld_lookup (memory : InMemoryChunkEvictionCache κ β) (key other : κ) :
    (memory.removeOld key).cache.lookup other =
      if other = key then none else memory.cache.lookup other := by
  unfold removeOld
  split
  · exact Dict.lookup_erase_eq memory.cache key other
  · split
    · rename_i absent same
      rw [same, absent]
    · rfl

theorem lookup_put {memory : InMemoryChunkEvictionCache κ β} {key other : κ}
    {value found : List β} {isPrefetch : Bool}
    (present : (memory.put key value isPrefetch).cache.lookup other = some found) :
    (other = key ∧ found = value) ∨ memory.cache.lookup other = some found := by
  have stored : ((memory.removeOld key).store key value isPrefetch).cache.lookup other =
      some found := lookup_evictRounds present
  have insertion := Dict.lookup_insert_eq (memory.removeOld key).cache key other value
  rw [store, insertion, removeOld_lookup] at stored
  by_cases same : other = key
  · rw [if_pos same, Option.some.injEq] at stored
    exact Or.inl ⟨same, stored.symm⟩
  · rw [if_neg same, if_neg same] at stored
    exact Or.inr stored

theorem invalidate_lookup (memory : InMemoryChunkEvictionCache κ β) (key other : κ) :
    (memory.invalidate key).cache.lookup other =
      if other = key then none else memory.cache.lookup other := by
  have same : (memory.invalidate key).cache = (memory.removeOld key).cache := by
    unfold invalidate removeOld
    split <;> rfl
  rw [same, removeOld_lookup]

theorem foldl_invalidate_lookup (memory : InMemoryChunkEvictionCache κ β)
    (keys : List κ) (other : κ) :
    (keys.foldl invalidate memory).cache.lookup other =
      if other ∈ keys then none else memory.cache.lookup other := by
  induction keys generalizing memory with
  | nil => simp
  | cons key keys induction =>
      rw [List.foldl_cons, induction, invalidate_lookup]
      by_cases same : other = key <;> by_cases member : other ∈ keys <;>
        simp [same, member]

end InMemoryChunkEvictionCache

end FuseDrive.Cache
