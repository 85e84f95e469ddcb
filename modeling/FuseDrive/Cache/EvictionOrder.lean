import FuseDrive.Cache.ChunkEviction
import FuseDrive.Recency

/-!
# The memory cache is a bounded list by recency

The cache keeps its bytes in a counter of its own, and the loop of the
eviction reads that counter.  As long as it is the sum of the cached bytes,
the loop trims the list by recency to the longest suffix within both limits.
-/

namespace FuseDrive.Cache

/-- The operations of the cache; item assignment is a `put` without prefetch,
item deletion an `invalidate` and item access a `get`. -/
inductive CacheOperation (κ β : Type) where
  | get (key : κ)
  | put (key : κ) (value : List β) (isPrefetch : Bool)
  | invalidate (key : κ)

namespace InMemoryChunkEvictionCache

open FuseDrive.Recency

variable {κ β : Type} [DecidableEq κ]

def perform (memory : InMemoryChunkEvictionCache κ β) :
    CacheOperation κ β → InMemoryChunkEvictionCache κ β
  | .get key => (memory.get key).2
  | .put key value isPrefetch => memory.put key value isPrefetch
  | .invalidate key => memory.invalidate key

def performAll (memory : InMemoryChunkEvictionCache κ β)
    (operations : List (CacheOperation κ β)) : InMemoryChunkEvictionCache κ β :=
  operations.foldl perform memory

theorem performAll_invariant {invariant : InMemoryChunkEvictionCache κ β → Prop}
    (preserved : ∀ {memory} (operation), invariant memory → invariant (memory.perform operation))
    {memory : InMemoryChunkEvictionCache κ β} (operations : List (CacheOperation κ β))
    (initial : invariant memory) : invariant (memory.performAll operations) := by
  induction operations generalizing memory with
  | nil => exact initial
  | cons operation operations induction => exact induction (preserved operation initial)

/-- The entries from the least to the most recently used one. -/
def byRecency (memory : InMemoryChunkEvictionCache κ β) : List (κ × List β) :=
  order memory.cache

/-- The limits of the cache on a list of entries. -/
abbrev Fits (memory : InMemoryChunkEvictionCache κ β) : List (κ × List β) → Prop :=
  Within List.length memory.maxChunks memory.maxMemoryBytes

/-- The byte counter is the sum of the cached bytes. -/
def Counted (memory : InMemoryChunkEvictionCache κ β) : Prop :=
  memory.currentBytes = total List.length memory.byRecency

/-! ## The loop of the eviction -/

omit [DecidableEq κ] in
theorem overLimit_iff {memory : InMemoryChunkEvictionCache κ β} (counted : memory.Counted) :
    memory.overLimit = true ↔ ¬ memory.Fits memory.byRecency := by
  rw [overLimit, decide_eq_true_iff, counted, Int.ofNat_lt, not_within, byRecency, length_order]

/-- What the loop makes of the cache. -/
structure Evicted (before after : InMemoryChunkEvictionCache κ β) : Prop where
  maxChunks : after.maxChunks = before.maxChunks
  maxMemoryBytes : after.maxMemoryBytes = before.maxMemoryBytes
  counted : after.Counted
  trimmed : after.byRecency = trim before.Fits before.byRecency
  evictions : after.metrics.cacheEvictions + after.byRecency.length =
    before.metrics.cacheEvictions + before.byRecency.length

theorem byRecency_evictOldest {memory : InMemoryChunkEvictionCache κ β} {key : κ}
    {value : List β} (last : memory.cache.entries.getLast? = some ⟨key, value⟩) :
    memory.byRecency = (key, value) :: (memory.evictOldest key value).byRecency :=
  order_eq_cons last

theorem counted_evictOldest {memory : InMemoryChunkEvictionCache κ β} {key : κ}
    {value : List β} (last : memory.cache.entries.getLast? = some ⟨key, value⟩)
    (counted : memory.Counted) : (memory.evictOldest key value).Counted := by
  have sum : memory.currentBytes = _ := counted
  rw [byRecency_evictOldest last, total_cons, Int.natCast_add] at sum
  have left : (memory.evictOldest key value).currentBytes =
      memory.currentBytes - value.length := rfl
  rw [Counted, left, sum, Int.add_comm]
  exact Int.add_sub_cancel _ _

theorem evicted_evictRounds {rounds : Nat} {memory : InMemoryChunkEvictionCache κ β}
    (enough : memory.cache.entries.length ≤ rounds) (counted : memory.Counted) :
    Evicted memory (evictRounds rounds memory) := by
  have settled (within : memory.byRecency = trim memory.Fits memory.byRecency) :
      Evicted memory memory := ⟨rfl, rfl, counted, within, rfl⟩
  induction rounds generalizing memory with
  | zero =>
      have empty : memory.byRecency = [] :=
        order_eq_nil (List.length_eq_zero_iff.mp (Nat.le_zero.mp enough))
      exact settled (by rw [empty]; rfl)
  | succ rounds induction =>
      unfold evictRounds
      split
      · rename_i key value last
        have oldest := byRecency_evictOldest last
        split
        · rename_i exceeds
          have exceeding := (overLimit_iff counted).mp exceeds
          have smaller : (memory.evictOldest key value).cache.entries.length ≤ rounds := by
            rw [← length_order, ← byRecency]
            rw [← length_order, ← byRecency, oldest, List.length_cons] at enough
            exact Nat.le_of_succ_le_succ enough
          have later := induction smaller (counted_evictOldest last counted)
            fun within => ⟨rfl, rfl, counted_evictOldest last counted, within, rfl⟩
          constructor
          · exact later.maxChunks
          · exact later.maxMemoryBytes
          · exact later.counted
          · rw [later.trimmed, oldest]
            rw [oldest] at exceeding
            exact (trim_of_not_fits _ exceeding).symm
          · rw [later.evictions, oldest, List.length_cons]
            simp only [evictOldest]
            omega
        · rename_i within
          refine settled (trim_of_fits _ ?_).symm
          exact not_not.mp fun exceeding => within ((overLimit_iff counted).mpr exceeding)
      · rename_i absent
        refine settled ?_
        rw [byRecency, order_eq_nil (List.getLast?_eq_none_iff.mp absent)]
        rfl

/-! ## The operations -/

theorem counted_remove {memory : InMemoryChunkEvictionCache κ β} {key : κ} {value : List β}
    (present : memory.cache.lookup key = some value) (counted : memory.Counted) :
    (memory.remove key value).Counted := by
  have sum : memory.currentBytes = _ := counted
  have left : (memory.remove key value).currentBytes =
      memory.currentBytes - value.length := rfl
  have order : (memory.remove key value).byRecency = without key memory.byRecency :=
    order_erase memory.cache key
  have total := total_without List.length (nodup_order memory.cache) (mem_order.mpr present)
  rw [Counted, left, sum, order, byRecency, ← total, Int.natCast_add]
  exact Int.add_sub_cancel _ _

theorem without_absent {memory : InMemoryChunkEvictionCache κ β} {key : κ}
    (absent : memory.cache.lookup key = none) : without key memory.byRecency = memory.byRecency := by
  apply without_of_absent
  intro entry member same
  have present : memory.cache.lookup entry.1 = some entry.2 := mem_order.mp member
  rw [same, absent] at present
  cases present

theorem counted_removeOld {memory : InMemoryChunkEvictionCache κ β} (key : κ)
    (counted : memory.Counted) : (memory.removeOld key).Counted := by
  unfold removeOld
  split
  · rename_i old present
    exact counted_remove present counted
  · exact counted

theorem byRecency_removeOld (memory : InMemoryChunkEvictionCache κ β) (key : κ) :
    (memory.removeOld key).byRecency = without key memory.byRecency := by
  unfold removeOld
  split
  · exact order_erase memory.cache key
  · rename_i absent
    exact (without_absent absent).symm

theorem byRecency_store (memory : InMemoryChunkEvictionCache κ β) (key : κ) (value : List β)
    (isPrefetch : Bool) : ((memory.removeOld key).store key value isPrefetch).byRecency =
      use key value memory.byRecency := by
  have stored : ((memory.removeOld key).store key value isPrefetch).byRecency =
      use key value (memory.removeOld key).byRecency := order_insert _ key value
  have again : without key (without key memory.byRecency) = without key memory.byRecency := by
    apply without_of_absent
    intro entry member
    exact of_decide_eq_true (List.mem_filter.mp member).2
  rw [stored, use, byRecency_removeOld, again, use]

theorem counted_store {memory : InMemoryChunkEvictionCache κ β} (key : κ) (value : List β)
    (isPrefetch : Bool) (counted : memory.Counted) :
    ((memory.removeOld key).store key value isPrefetch).Counted := by
  have sum : (memory.removeOld key).currentBytes = _ := counted_removeOld key counted
  have more : ((memory.removeOld key).store key value isPrefetch).currentBytes =
      (memory.removeOld key).currentBytes + value.length := rfl
  rw [Counted, byRecency_store, use, ← byRecency_removeOld, more, sum, total_append,
    Int.natCast_add]
  rfl

theorem evicted_put {memory : InMemoryChunkEvictionCache κ β} (key : κ) (value : List β)
    (isPrefetch : Bool) (counted : memory.Counted) :
    Evicted ((memory.removeOld key).store key value isPrefetch)
      (memory.put key value isPrefetch) := by
  have evicted := evicted_evictRounds (Nat.le_refl _) (counted_store key value isPrefetch counted)
  exact ⟨evicted.maxChunks, evicted.maxMemoryBytes, evicted.counted, evicted.trimmed,
    evicted.evictions⟩

theorem byRecency_get_of_present {memory : InMemoryChunkEvictionCache κ β} {key : κ}
    {value : List β} (present : memory.cache.lookup key = some value) :
    (memory.get key).2.byRecency = use key value memory.byRecency := by
  have moved : order (memory.cache.insert key value) = use key value memory.byRecency :=
    order_insert memory.cache key value
  unfold get
  rw [present]
  dsimp only
  split <;> exact moved

theorem get_of_absent {memory : InMemoryChunkEvictionCache κ β} {key : κ}
    (absent : memory.cache.lookup key = none) : memory.get key = (none, memory) := by
  unfold get
  rw [absent]

theorem byRecency_invalidate (memory : InMemoryChunkEvictionCache κ β) (key : κ) :
    (memory.invalidate key).byRecency = without key memory.byRecency := by
  unfold invalidate
  split
  · exact order_erase memory.cache key
  · rename_i absent
    exact (without_absent absent).symm

theorem evictions_get (memory : InMemoryChunkEvictionCache κ β) (key : κ) :
    (memory.get key).2.metrics.cacheEvictions = memory.metrics.cacheEvictions := by
  unfold get
  split
  · split <;> rfl
  · rfl

theorem evictions_removeOld (memory : InMemoryChunkEvictionCache κ β) (key : κ) :
    (memory.removeOld key).metrics.cacheEvictions = memory.metrics.cacheEvictions := by
  unfold removeOld
  split <;> rfl

theorem evictions_invalidate (memory : InMemoryChunkEvictionCache κ β) (key : κ) :
    (memory.invalidate key).metrics.cacheEvictions = memory.metrics.cacheEvictions := by
  unfold invalidate
  split <;> rfl

/-! ## Whole histories -/

/-- A new cache in a registry whose counters may have been used before. -/
def newIn (maxChunks maxMemoryBytes : Nat) (registry : EvictionMetrics) :
    InMemoryChunkEvictionCache κ β :=
  { new maxChunks maxMemoryBytes with metrics := registry }

structure CountedWithin (maxChunks maxMemoryBytes : Nat)
    (memory : InMemoryChunkEvictionCache κ β) : Prop where
  maxChunks : memory.maxChunks = maxChunks
  maxMemoryBytes : memory.maxMemoryBytes = maxMemoryBytes
  counted : memory.Counted

omit [DecidableEq κ] in
theorem countedWithin_newIn (maxChunks maxMemoryBytes : Nat) (registry : EvictionMetrics) :
    CountedWithin maxChunks maxMemoryBytes
      (newIn maxChunks maxMemoryBytes registry : InMemoryChunkEvictionCache κ β) :=
  ⟨rfl, rfl, rfl⟩

theorem countedWithin_get {maxChunks maxMemoryBytes : Nat}
    {memory : InMemoryChunkEvictionCache κ β} (key : κ)
    (within : CountedWithin maxChunks maxMemoryBytes memory) :
    CountedWithin maxChunks maxMemoryBytes (memory.get key).2 := by
  match lookup : memory.cache.lookup key with
  | none =>
      rw [get_of_absent lookup]
      exact within
  | some value =>
      have used := byRecency_get_of_present lookup
      have bytes := total_without List.length (nodup_order memory.cache) (mem_order.mpr lookup)
      have unchanged : (memory.get key).2.currentBytes = memory.currentBytes ∧
          (memory.get key).2.maxChunks = memory.maxChunks ∧
          (memory.get key).2.maxMemoryBytes = memory.maxMemoryBytes := by
        unfold get
        rw [lookup]
        dsimp only
        split <;> exact ⟨rfl, rfl, rfl⟩
      constructor
      · exact unchanged.2.1.trans within.maxChunks
      · exact unchanged.2.2.trans within.maxMemoryBytes
      · have sum : memory.currentBytes = _ := within.counted
        rw [Counted, used, use, total_append, unchanged.1, sum]
        exact congrArg Nat.cast bytes.symm

theorem countedWithin_put {maxChunks maxMemoryBytes : Nat}
    {memory : InMemoryChunkEvictionCache κ β} (key : κ) (value : List β) (isPrefetch : Bool)
    (within : CountedWithin maxChunks maxMemoryBytes memory) :
    CountedWithin maxChunks maxMemoryBytes (memory.put key value isPrefetch) := by
  have evicted := evicted_put key value isPrefetch within.counted
  have limits : (memory.removeOld key).maxChunks = memory.maxChunks ∧
      (memory.removeOld key).maxMemoryBytes = memory.maxMemoryBytes := by
    unfold removeOld
    split <;> exact ⟨rfl, rfl⟩
  constructor
  · exact (evicted.maxChunks.trans limits.1).trans within.maxChunks
  · exact (evicted.maxMemoryBytes.trans limits.2).trans within.maxMemoryBytes
  · exact evicted.counted

theorem countedWithin_invalidate {maxChunks maxMemoryBytes : Nat}
    {memory : InMemoryChunkEvictionCache κ β} (key : κ)
    (within : CountedWithin maxChunks maxMemoryBytes memory) :
    CountedWithin maxChunks maxMemoryBytes (memory.invalidate key) := by
  unfold invalidate
  split
  · rename_i value present
    exact ⟨within.maxChunks, within.maxMemoryBytes, counted_remove present within.counted⟩
  · exact within

theorem countedWithin_perform {maxChunks maxMemoryBytes : Nat}
    {memory : InMemoryChunkEvictionCache κ β} (operation : CacheOperation κ β)
    (within : CountedWithin maxChunks maxMemoryBytes memory) :
    CountedWithin maxChunks maxMemoryBytes (memory.perform operation) := by
  cases operation with
  | get key => exact countedWithin_get key within
  | put key value isPrefetch => exact countedWithin_put key value isPrefetch within
  | invalidate key => exact countedWithin_invalidate key within

/-- The operations of a cache are those of a list by recency: a look moves
its entry to the end, and storing one keeps the longest suffix within the
limits. -/
structure BoundedByRecency (maxChunks maxMemoryBytes : Nat)
    (memory : InMemoryChunkEvictionCache κ β) : Prop where
  get_present : ∀ key value, (key, value) ∈ memory.byRecency →
    (memory.get key).1 = some value ∧
      (memory.get key).2.byRecency = without key memory.byRecency ++ [(key, value)]
  get_absent : ∀ key, (∀ value, (key, value) ∉ memory.byRecency) →
    memory.get key = (none, memory)
  invalidate : ∀ key, (memory.invalidate key).byRecency = without key memory.byRecency
  put : ∀ key value isPrefetch,
    LongestSuffix
      (fun list => list.length ≤ maxChunks ∧ total List.length list ≤ maxMemoryBytes)
      (without key memory.byRecency ++ [(key, value)])
      (memory.put key value isPrefetch).byRecency
  evictions_get : ∀ key,
    (memory.get key).2.metrics.cacheEvictions = memory.metrics.cacheEvictions
  evictions_invalidate : ∀ key,
    (memory.invalidate key).metrics.cacheEvictions = memory.metrics.cacheEvictions
  evictions_put : ∀ key value isPrefetch,
    (memory.put key value isPrefetch).metrics.cacheEvictions +
        (memory.put key value isPrefetch).byRecency.length =
      memory.metrics.cacheEvictions + (without key memory.byRecency ++ [(key, value)]).length

theorem longestSuffix_put {maxChunks maxMemoryBytes : Nat}
    {memory : InMemoryChunkEvictionCache κ β} (key : κ) (value : List β) (isPrefetch : Bool)
    (within : CountedWithin maxChunks maxMemoryBytes memory) :
    LongestSuffix (Within List.length maxChunks maxMemoryBytes)
      (use key value memory.byRecency) (memory.put key value isPrefetch).byRecency := by
  have evicted := evicted_put key value isPrefetch within.counted
  have limits : Within List.length
      ((memory.removeOld key).store key value isPrefetch).maxChunks
      ((memory.removeOld key).store key value isPrefetch).maxMemoryBytes =
        @Within κ (List β) List.length maxChunks maxMemoryBytes := by
    unfold removeOld
    split <;> exact congrArg₂ (Within List.length) within.maxChunks within.maxMemoryBytes
  have trimmed : (memory.put key value isPrefetch).byRecency =
      trim (Within List.length maxChunks maxMemoryBytes) (use key value memory.byRecency) := by
    rw [evicted.trimmed, byRecency_store]
    simp only [Fits, limits]
  rw [trimmed]
  exact longestSuffix_trim _ ⟨Nat.zero_le _, Nat.zero_le _⟩ _

/-- After any operations the cache is a list by recency within its limits. -/
theorem performAll_bounded_by_recency (maxChunks maxMemoryBytes : Nat)
    (registry : EvictionMetrics) (operations : List (CacheOperation κ β)) :
    BoundedByRecency maxChunks maxMemoryBytes
      ((newIn maxChunks maxMemoryBytes registry).performAll operations) := by
  have within : CountedWithin maxChunks maxMemoryBytes
      ((newIn maxChunks maxMemoryBytes registry).performAll operations) :=
    performAll_invariant countedWithin_perform operations (countedWithin_newIn _ _ registry)
  constructor
  · intro key value member
    have present := mem_order.mp member
    exact ⟨(get_fst _ key).trans present, byRecency_get_of_present present⟩
  · intro key absent
    apply get_of_absent
    exact Option.eq_none_iff_forall_ne_some.mpr fun value present =>
      absent value (mem_order.mpr present)
  · exact byRecency_invalidate _
  · intro key value isPrefetch
    exact longestSuffix_put key value isPrefetch within
  · exact evictions_get _
  · exact evictions_invalidate _
  · intro key value isPrefetch
    have evicted := evicted_put key value isPrefetch within.counted
    rw [evicted.evictions, byRecency_store]
    have removed := evictions_removeOld
      ((newIn maxChunks maxMemoryBytes registry).performAll operations) key
    exact congrArg (· + _) removed

end InMemoryChunkEvictionCache

end FuseDrive.Cache
