import FuseDrive.Cache.EvictionOrder
import Mathlib.Data.Finset.Card
import Mathlib.Data.Finset.Filter

/-!
# The accounts of the memory cache

The byte counter, the marks of the prefetched entries and the gauges are kept
by hand next to the dictionary.  `Performed` says once what an operation does
to the marks and their two counters; the balance over a whole history is an
induction over it.
-/

namespace FuseDrive.Cache

namespace CacheOperation

variable {κ β : Type}

def key : CacheOperation κ β → κ
  | .get key => key
  | .put key _ _ => key
  | .invalidate key => key

/-- The operation is a `get`. -/
def reads : CacheOperation κ β → Bool
  | .get _ => true
  | _ => false

/-- The operation is a `put`. -/
def stores : CacheOperation κ β → Bool
  | .put _ _ _ => true
  | _ => false

/-- The operation is a `put` with `is_prefetch=True`. -/
def prefetches : CacheOperation κ β → Bool
  | .put _ _ isPrefetch => isPrefetch
  | _ => false

end CacheOperation

namespace InMemoryChunkEvictionCache

open FuseDrive.Recency

variable {κ β : Type} [DecidableEq κ]

/-- Only cached keys are marked as prefetched and not yet read. -/
def Marked (memory : InMemoryChunkEvictionCache κ β) : Prop :=
  ∀ key ∈ memory.prefetchStatus, key ∈ memory.cache

/-! ## The marks through the loop of the eviction -/

theorem mem_of_mem_evictRounds {rounds : Nat} {memory : InMemoryChunkEvictionCache κ β}
    {key : κ} (member : key ∈ (evictRounds rounds memory).cache) : key ∈ memory.cache := by
  obtain ⟨value, present⟩ := Option.isSome_iff_exists.mp (AList.lookup_isSome.mpr member)
  exact AList.lookup_isSome.mp (Option.isSome_iff_exists.mpr
    ⟨value, lookup_evictRounds present⟩)

omit [DecidableEq κ] in
/-- The evicted entry is cached no more, and every other one still is. -/
theorem mem_dropOldest {cache : Dict κ (List β)} {key other : κ} {value : List β}
    (last : cache.entries.getLast? = some ⟨key, value⟩) :
    other ∈ dropOldest cache ↔ other ∈ cache ∧ other ≠ key := by
  have keys : cache.keys = (dropOldest cache).keys ++ [key] := by
    rw [AList.keys, ← List.dropLast_append_getLast? _ last, List.keys, List.map_append]
    rfl
  have nodup := cache.keys_nodup
  rw [keys, List.nodup_append] at nodup
  rw [AList.mem_keys, AList.mem_keys, keys, List.mem_append, List.mem_singleton]
  constructor
  · intro member
    exact ⟨Or.inl member, nodup.2.2 other member key (List.mem_singleton_self key)⟩
  · rintro ⟨member | same, different⟩
    · exact member
    · exact absurd same different

theorem marked_evictOldest {memory : InMemoryChunkEvictionCache κ β} {key : κ}
    {value : List β} (last : memory.cache.entries.getLast? = some ⟨key, value⟩)
    (marked : memory.Marked) : (memory.evictOldest key value).Marked := by
  intro other member
  obtain ⟨different, isMarked⟩ := Finset.mem_erase.mp member
  exact (mem_dropOldest last).mpr ⟨marked other isMarked, different⟩

/-- The loop keeps the marks of what stays cached, and counts every other one. -/
structure MarksEvicted (before after : InMemoryChunkEvictionCache κ β) : Prop where
  marks : after.prefetchStatus = before.prefetchStatus.filter (· ∈ after.cache)
  waste : after.metrics.prefetchWaste + after.prefetchStatus.card =
    before.metrics.prefetchWaste + before.prefetchStatus.card
  hits : after.metrics.prefetchHits = before.metrics.prefetchHits

theorem MarksEvicted.refl {memory : InMemoryChunkEvictionCache κ β} (marked : memory.Marked) :
    MarksEvicted memory memory := by
  constructor
  · exact (Finset.filter_true_of_mem marked).symm
  · rfl
  · rfl

theorem marksEvicted_evictRounds (rounds : Nat) {memory : InMemoryChunkEvictionCache κ β}
    (marked : memory.Marked) : MarksEvicted memory (evictRounds rounds memory) := by
  induction rounds generalizing memory with
  | zero => exact MarksEvicted.refl marked
  | succ rounds induction =>
      unfold evictRounds
      split
      · rename_i key value last
        split
        · have later := induction (marked_evictOldest last marked)
          have gone : key ∉ (evictRounds rounds (memory.evictOldest key value)).cache := by
            intro member
            exact ((mem_dropOldest last).mp (mem_of_mem_evictRounds member)).2 rfl
          constructor
          · have marks : (memory.evictOldest key value).prefetchStatus =
                memory.prefetchStatus.erase key := rfl
            rw [later.marks, marks, Finset.filter_erase, Finset.erase_eq_of_notMem]
            intro member
            exact gone (Finset.mem_filter.mp member).2
          · rw [later.waste]
            simp only [evictOldest]
            by_cases isMarked : key ∈ memory.prefetchStatus
            · have card := Finset.card_erase_add_one isMarked
              rw [if_pos isMarked]
              omega
            · rw [if_neg isMarked, Finset.erase_eq_of_notMem isMarked, Nat.add_zero]
          · exact later.hits
        · exact MarksEvicted.refl marked
      · exact MarksEvicted.refl marked

/-! ## The marks after an operation -/

/-- The marks an operation leaves if nothing is evicted. -/
def keptMarks (memory : InMemoryChunkEvictionCache κ β) (operation : CacheOperation κ β) :
    Finset κ :=
  if operation.prefetches then insert operation.key (memory.prefetchStatus.erase operation.key)
  else memory.prefetchStatus.erase operation.key

/-- What an operation does to the marks and to the counters of their fates. -/
structure Performed (before : InMemoryChunkEvictionCache κ β) (operation : CacheOperation κ β)
    (after : InMemoryChunkEvictionCache κ β) : Prop where
  marks : after.prefetchStatus = (before.keptMarks operation).filter (· ∈ after.cache)
  waste : after.metrics.prefetchWaste + after.prefetchStatus.card =
    before.metrics.prefetchWaste + (before.keptMarks operation).card
  hits : after.metrics.prefetchHits = before.metrics.prefetchHits +
    if operation.reads ∧ operation.key ∈ before.prefetchStatus then 1 else 0

theorem prefetchStatus_removeOld {memory : InMemoryChunkEvictionCache κ β} (key : κ)
    (marked : memory.Marked) :
    (memory.removeOld key).prefetchStatus = memory.prefetchStatus.erase key := by
  unfold removeOld
  split
  · rfl
  · rename_i absent
    refine (Finset.erase_eq_of_notMem fun isMarked => ?_).symm
    exact AList.lookup_eq_none.mp absent (marked key isMarked)

theorem counters_removeOld (memory : InMemoryChunkEvictionCache κ β) (key : κ) :
    (memory.removeOld key).metrics = memory.metrics := by
  unfold removeOld
  split <;> rfl

theorem performed_get {memory : InMemoryChunkEvictionCache κ β} (key : κ)
    (marked : memory.Marked) :
    Performed memory (.get key) (memory.get key).2 := by
  have kept : ∀ other ∈ memory.prefetchStatus.erase key, other ∈ (memory.get key).2.cache := by
    intro other member
    rw [← AList.lookup_isSome, get_lookup, AList.lookup_isSome]
    exact marked other (Finset.mem_of_mem_erase member)
  have same : (memory.get key).2.prefetchStatus = memory.prefetchStatus.erase key ∧
      (memory.get key).2.metrics.prefetchWaste = memory.metrics.prefetchWaste ∧
      (memory.get key).2.metrics.prefetchHits = memory.metrics.prefetchHits +
        if key ∈ memory.prefetchStatus then 1 else 0 := by
    unfold get
    split
    · split
      · exact ⟨rfl, rfl, rfl⟩
      · rename_i unmarked
        exact ⟨(Finset.erase_eq_of_notMem unmarked).symm, rfl, rfl⟩
    · rename_i absent
      have unmarked : key ∉ memory.prefetchStatus := fun isMarked =>
        AList.lookup_eq_none.mp absent (marked key isMarked)
      exact ⟨(Finset.erase_eq_of_notMem unmarked).symm, rfl, by rw [if_neg unmarked]; rfl⟩
  obtain ⟨marks, waste, hits⟩ := same
  constructor
  · rw [marks]
    exact (Finset.filter_true_of_mem kept).symm
  · rw [marks, waste]
    rfl
  · rw [hits]
    simp only [CacheOperation.reads, CacheOperation.key, true_and]

theorem performed_invalidate {memory : InMemoryChunkEvictionCache κ β} (key : κ)
    (marked : memory.Marked) :
    Performed memory (.invalidate key) (memory.invalidate key) := by
  have kept : ∀ other ∈ memory.prefetchStatus.erase key,
      other ∈ (memory.invalidate key).cache := by
    intro other member
    obtain ⟨different, isMarked⟩ := Finset.mem_erase.mp member
    rw [← AList.lookup_isSome, invalidate_lookup, if_neg different, AList.lookup_isSome]
    exact marked other isMarked
  have marks : (memory.invalidate key).prefetchStatus = memory.prefetchStatus.erase key := by
    rw [← prefetchStatus_removeOld key marked]
    unfold invalidate removeOld
    split <;> rfl
  have counters : (memory.invalidate key).metrics.prefetchWaste =
      memory.metrics.prefetchWaste ∧
      (memory.invalidate key).metrics.prefetchHits = memory.metrics.prefetchHits := by
    unfold invalidate
    split <;> exact ⟨rfl, rfl⟩
  constructor
  · rw [marks]
    exact (Finset.filter_true_of_mem kept).symm
  · rw [marks, counters.1]
    rfl
  · exact counters.2

theorem marked_store {memory : InMemoryChunkEvictionCache κ β} (key : κ) (value : List β)
    (isPrefetch : Bool) (marked : memory.Marked) :
    ((memory.removeOld key).store key value isPrefetch).Marked := by
  intro other member
  have cached : other = key ∨ other ∈ memory.prefetchStatus.erase key := by
    rw [store, prefetchStatus_removeOld key marked] at member
    cases isPrefetch with
    | true => exact Finset.mem_insert.mp member
    | false => exact Or.inr member
  rw [← AList.lookup_isSome, store, Dict.lookup_insert_eq]
  split
  · rfl
  · rename_i different
    obtain same | isMarked := cached
    · exact absurd same different
    · rw [removeOld_lookup, if_neg different, AList.lookup_isSome]
      exact marked other (Finset.mem_of_mem_erase isMarked)

theorem performed_put {memory : InMemoryChunkEvictionCache κ β} (key : κ) (value : List β)
    (isPrefetch : Bool) (marked : memory.Marked) :
    Performed memory (.put key value isPrefetch) (memory.put key value isPrefetch) := by
  have evicted : MarksEvicted ((memory.removeOld key).store key value isPrefetch)
      (((memory.removeOld key).store key value isPrefetch).evictIfNeeded) :=
    marksEvicted_evictRounds _ (marked_store key value isPrefetch marked)
  have kept : ((memory.removeOld key).store key value isPrefetch).prefetchStatus =
      memory.keptMarks (.put key value isPrefetch) := by
    rw [store, prefetchStatus_removeOld key marked]
    rfl
  have counters : ((memory.removeOld key).store key value isPrefetch).metrics =
      memory.metrics := counters_removeOld memory key
  constructor
  · rw [← kept]
    exact evicted.marks
  · rw [← kept, ← counters]
    exact evicted.waste
  · rw [← counters]
    exact evicted.hits

theorem performed_perform {memory : InMemoryChunkEvictionCache κ β}
    (operation : CacheOperation κ β) (marked : memory.Marked) :
    Performed memory operation (memory.perform operation) := by
  cases operation with
  | get key => exact performed_get key marked
  | put key value isPrefetch => exact performed_put key value isPrefetch marked
  | invalidate key => exact performed_invalidate key marked

theorem Performed.marked {before after : InMemoryChunkEvictionCache κ β}
    {operation : CacheOperation κ β} (performed : Performed before operation after) :
    after.Marked := by
  intro key member
  rw [performed.marks] at member
  exact (Finset.mem_filter.mp member).2

/-! ## Bytes and gauges -/

/-- The bytes of all cached values. -/
def cachedBytes (memory : InMemoryChunkEvictionCache κ β) : Nat :=
  (memory.cache.entries.map fun entry => entry.2.length).sum

omit [DecidableEq κ] in
theorem total_byRecency (memory : InMemoryChunkEvictionCache κ β) :
    total List.length memory.byRecency = memory.cachedBytes := by
  rw [total, byRecency, order, List.map_reverse, List.sum_reverse, List.map_map]
  rfl

/-- The gauges show the current number of entries and bytes. -/
structure Gauged (memory : InMemoryChunkEvictionCache κ β) : Prop where
  chunks : memory.metrics.cacheSizeChunks = memory.cache.entries.length
  bytes : memory.metrics.cacheSizeBytes = memory.cachedBytes
  usage : memory.metrics.cacheMemoryUsage = memory.cachedBytes

structure Accounted (memory : InMemoryChunkEvictionCache κ β) : Prop where
  counted : memory.Counted
  marked : memory.Marked

omit [DecidableEq κ] in
theorem Accounted.currentBytes {memory : InMemoryChunkEvictionCache κ β}
    (accounted : memory.Accounted) : memory.currentBytes = memory.cachedBytes := by
  rw [← total_byRecency]
  exact accounted.counted

omit [DecidableEq κ] in
theorem gauged_updateMetrics {memory : InMemoryChunkEvictionCache κ β}
    (counted : memory.Counted) : memory.updateMetrics.Gauged := by
  have bytes : memory.currentBytes = memory.cachedBytes := by
    rw [← total_byRecency]
    exact counted
  constructor
  · rfl
  · exact bytes
  · exact bytes

theorem gauged_get {memory : InMemoryChunkEvictionCache κ β} (key : κ)
    (gauged : memory.Gauged) : (memory.get key).2.Gauged := by
  match lookup : memory.cache.lookup key with
  | none =>
      rw [get_of_absent lookup]
      exact gauged
  | some value =>
      have used := byRecency_get_of_present lookup
      have member := mem_order.mpr lookup
      have bytes : (memory.get key).2.cachedBytes = memory.cachedBytes := by
        rw [← total_byRecency, ← total_byRecency, used, use, total_append]
        exact total_without List.length (nodup_order memory.cache) member
      have chunks : (memory.get key).2.cache.entries.length = memory.cache.entries.length := by
        rw [← length_order, ← length_order]
        change (memory.get key).2.byRecency.length = memory.byRecency.length
        rw [used, use, List.length_append]
        exact length_without (nodup_order memory.cache) member
      have unchanged : (memory.get key).2.metrics.cacheSizeChunks =
            memory.metrics.cacheSizeChunks ∧
          (memory.get key).2.metrics.cacheSizeBytes = memory.metrics.cacheSizeBytes ∧
          (memory.get key).2.metrics.cacheMemoryUsage = memory.metrics.cacheMemoryUsage := by
        unfold get
        rw [lookup]
        dsimp only
        split <;> exact ⟨rfl, rfl, rfl⟩
      constructor
      · rw [unchanged.1, gauged.chunks, chunks]
      · rw [unchanged.2.1, gauged.bytes, bytes]
      · rw [unchanged.2.2, gauged.usage, bytes]

theorem gauged_invalidate {memory : InMemoryChunkEvictionCache κ β} (key : κ)
    (counted : memory.Counted) (gauged : memory.Gauged) : (memory.invalidate key).Gauged := by
  unfold invalidate
  split
  · rename_i value present
    exact gauged_updateMetrics (counted_remove present counted)
  · exact gauged

theorem gauged_put {memory : InMemoryChunkEvictionCache κ β} (key : κ) (value : List β)
    (isPrefetch : Bool) (counted : memory.Counted) :
    (memory.put key value isPrefetch).Gauged :=
  gauged_updateMetrics
    (evicted_evictRounds (Nat.le_refl _) (counted_store key value isPrefetch counted)).counted

theorem accounted_perform {memory : InMemoryChunkEvictionCache κ β}
    (operation : CacheOperation κ β) (accounted : memory.Accounted) :
    (memory.perform operation).Accounted := by
  have within : CountedWithin memory.maxChunks memory.maxMemoryBytes memory :=
    ⟨rfl, rfl, accounted.counted⟩
  constructor
  · exact (countedWithin_perform operation within).counted
  · exact (performed_perform operation accounted.marked).marked

theorem gauged_perform {memory : InMemoryChunkEvictionCache κ β}
    (operation : CacheOperation κ β) (accounted : memory.Accounted)
    (gauged : operation.stores = false → memory.Gauged) :
    (memory.perform operation).Gauged := by
  cases operation with
  | get key => exact gauged_get key (gauged rfl)
  | put key value isPrefetch => exact gauged_put key value isPrefetch accounted.counted
  | invalidate key => exact gauged_invalidate key accounted.counted (gauged rfl)

/-! ## Whole files -/

section Files

variable {φ ι : Type} [DecidableEq φ] [DecidableEq ι]

/-- The operations of the cache, and the part of `invalidate_file_chunks_cache`
that deletes all chunks of a file from it. -/
inductive FileOperation (φ ι β : Type) where
  | single (operation : CacheOperation (φ × ι) β)
  | invalidateFile (fileId : φ)

namespace FileOperation

/-- The operation is a `put`. -/
def stores : FileOperation φ ι β → Bool
  | .single operation => operation.stores
  | .invalidateFile _ => false

end FileOperation

/-- `keys_to_delete`, from the least to the most recently used. -/
def keysToDelete (memory : InMemoryChunkEvictionCache (φ × ι) β) (fileId : φ) :
    List (φ × ι) :=
  memory.cache.keys.reverse.filter fun key => key.1 = fileId

def performFile (memory : InMemoryChunkEvictionCache (φ × ι) β) :
    FileOperation φ ι β → InMemoryChunkEvictionCache (φ × ι) β
  | .single operation => memory.perform operation
  | .invalidateFile fileId => (memory.keysToDelete fileId).foldl invalidate memory

theorem accounted_foldl_invalidate {memory : InMemoryChunkEvictionCache κ β}
    (keys : List κ) (accounted : memory.Accounted) :
    (keys.foldl invalidate memory).Accounted ∧
      (memory.Gauged → (keys.foldl invalidate memory).Gauged) := by
  induction keys generalizing memory with
  | nil => exact ⟨accounted, id⟩
  | cons key keys induction =>
      obtain ⟨later, gauges⟩ := induction (accounted_perform (.invalidate key) accounted)
      exact ⟨later, fun gauged => gauges (gauged_invalidate key accounted.counted gauged)⟩

theorem accounted_performFile {memory : InMemoryChunkEvictionCache (φ × ι) β}
    (operation : FileOperation φ ι β) (accounted : memory.Accounted) :
    (memory.performFile operation).Accounted ∧
      ((operation.stores = false → memory.Gauged) → (memory.performFile operation).Gauged) := by
  cases operation with
  | single operation =>
      exact ⟨accounted_perform operation accounted, gauged_perform operation accounted⟩
  | invalidateFile fileId =>
      obtain ⟨later, gauges⟩ := accounted_foldl_invalidate (memory.keysToDelete fileId) accounted
      exact ⟨later, fun gauged => gauges (gauged rfl)⟩

theorem accounted_performFiles {memory : InMemoryChunkEvictionCache (φ × ι) β}
    (operations : List (FileOperation φ ι β)) (accounted : memory.Accounted) :
    (operations.foldl performFile memory).Accounted ∧
      (memory.Gauged ∨ (∃ operation ∈ operations, operation.stores) →
        (operations.foldl performFile memory).Gauged) := by
  induction operations generalizing memory with
  | nil =>
      refine ⟨accounted, ?_⟩
      rintro (gauged | ⟨operation, member, _⟩)
      · exact gauged
      · cases member
  | cons operation operations induction =>
      obtain ⟨performed, gauges⟩ := accounted_performFile operation accounted
      obtain ⟨later, kept⟩ := induction performed
      refine ⟨later, fun before => kept ?_⟩
      match kind : operation.stores with
      | true =>
          refine Or.inl (gauges fun notStoring => ?_)
          rw [kind] at notStoring
          cases notStoring
      | false =>
          obtain gauged | ⟨other, member, stores⟩ := before
          · exact Or.inl (gauges fun _ => gauged)
          · obtain rfl | member := List.mem_cons.mp member
            · rw [kind] at stores
              cases stores
            · exact Or.inr ⟨other, member, stores⟩

/-- In every state of a new cache the bytes are counted, only cached chunks
are marked, and the gauges are right once a chunk was stored. -/
theorem accounts_of_every_history (maxChunks maxMemoryBytes : Nat)
    (registry : EvictionMetrics) (operations : List (FileOperation φ ι β)) :
    let memory := operations.foldl performFile (newIn maxChunks maxMemoryBytes registry)
    memory.currentBytes = memory.cachedBytes ∧
      (∀ key ∈ memory.prefetchStatus, key ∈ memory.cache) ∧
      ((∃ operation ∈ operations, operation.stores) → memory.Gauged) := by
  intro memory
  have empty : (newIn maxChunks maxMemoryBytes registry :
      InMemoryChunkEvictionCache (φ × ι) β).Accounted := by
    constructor
    · rfl
    · intro key member
      cases member
  obtain ⟨accounted, gauges⟩ := accounted_performFiles operations empty
  exact ⟨accounted.currentBytes, accounted.marked, fun stored => gauges (Or.inr stored)⟩

end Files

end InMemoryChunkEvictionCache

end FuseDrive.Cache
