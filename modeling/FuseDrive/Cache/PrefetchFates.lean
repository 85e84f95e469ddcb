import FuseDrive.Cache.EvictionAccounts

/-!
# The fates of the prefetched chunks

Every `put` with `is_prefetch=True` makes one unread entry.  What becomes of
it is read off the operations that follow and the keys that are cached, not
off the marks: it is read, or evicted unread, or overwritten or invalidated
unread, or it is still unread.  The counters of the registry count the first
two, and the marks are the last.
-/

namespace FuseDrive.Cache

/-- What has become of an entry that was prefetched. -/
inductive PrefetchFate where
  | unread
  | hit
  | wasted
  | lost
deriving DecidableEq

namespace CacheOperation

variable {κ β : Type}

/-- What an operation makes of an unread entry with its own key. -/
def fateOfKey : CacheOperation κ β → PrefetchFate
  | .get _ => .hit
  | .put _ _ _ => .lost
  | .invalidate _ => .lost

theorem fateOfKey_eq_hit (operation : CacheOperation κ β) :
    operation.fateOfKey = .hit ↔ operation.reads = true := by
  cases operation <;> simp [fateOfKey, reads]

end CacheOperation

namespace InMemoryChunkEvictionCache

variable {κ β : Type} [DecidableEq κ]

/-- The fate of an unread entry that is cached before the operations. -/
def fate (key : κ) : InMemoryChunkEvictionCache κ β → List (CacheOperation κ β) → PrefetchFate
  | _, [] => .unread
  | memory, operation :: operations =>
      if operation.key = key then operation.fateOfKey
      else if key ∈ (memory.perform operation).cache then
        fate key (memory.perform operation) operations
      else .wasted

/-- The fate of an entry that may be evicted by the `put` that stores it. -/
def fateOfStored (key : κ) (memory : InMemoryChunkEvictionCache κ β)
    (operations : List (CacheOperation κ β)) : PrefetchFate :=
  if key ∈ memory.cache then fate key memory operations else .wasted

/-- The fates of the entries that the operations prefetch, one for each `put`
with `is_prefetch=True`. -/
def fates : InMemoryChunkEvictionCache κ β → List (CacheOperation κ β) → List PrefetchFate
  | _, [] => []
  | memory, operation :: operations =>
      let after := memory.perform operation
      if operation.prefetches then
        fateOfStored operation.key after operations :: fates after operations
      else fates after operations

/-- The marked entries whose fate is the given one. -/
def pending (outcome : PrefetchFate) (memory : InMemoryChunkEvictionCache κ β)
    (operations : List (CacheOperation κ β)) : Nat :=
  (memory.prefetchStatus.filter fun key => fate key memory operations = outcome).card

/-- The counter of a fate; nothing counts the unread and the lost ones. -/
def counter (memory : InMemoryChunkEvictionCache κ β) : PrefetchFate → Nat
  | .unread => 0
  | .hit => memory.metrics.prefetchHits
  | .wasted => memory.metrics.prefetchWaste
  | .lost => 0

/-! ## One operation -/

/-- The marked entries of a fate before an operation: the one with its key,
and the others by what becomes of them afterwards. -/
theorem pending_cons (outcome : PrefetchFate) (memory : InMemoryChunkEvictionCache κ β)
    (operation : CacheOperation κ β) (operations : List (CacheOperation κ β)) :
    pending outcome memory (operation :: operations) =
      (if operation.key ∈ memory.prefetchStatus ∧ operation.fateOfKey = outcome then 1 else 0) +
        ((memory.prefetchStatus.erase operation.key).filter fun key =>
          fateOfStored key (memory.perform operation) operations = outcome).card := by
  have others : (memory.prefetchStatus.erase operation.key).filter
        (fun key => fate key memory (operation :: operations) = outcome) =
      (memory.prefetchStatus.erase operation.key).filter fun key =>
        fateOfStored key (memory.perform operation) operations = outcome := by
    apply Finset.filter_congr
    intro key member
    have different : operation.key ≠ key := (Finset.ne_of_mem_erase member).symm
    rw [fate, if_neg different, fateOfStored]
  have own : fate operation.key memory (operation :: operations) = operation.fateOfKey :=
    if_pos rfl
  rw [pending, ← others, Finset.filter_erase]
  by_cases counts : operation.key ∈ memory.prefetchStatus ∧ operation.fateOfKey = outcome
  · rw [if_pos counts, Nat.add_comm, Finset.card_erase_add_one]
    exact Finset.mem_filter.mpr ⟨counts.1, own.trans counts.2⟩
  · rw [if_neg counts, Nat.zero_add, Finset.erase_eq_of_notMem]
    intro member
    obtain ⟨isMarked, isOutcome⟩ := Finset.mem_filter.mp member
    exact counts ⟨isMarked, own.symm.trans isOutcome⟩

/-- The marks an operation leaves, with the entry it prefetches itself. -/
theorem card_keptMarks_filter (memory : InMemoryChunkEvictionCache κ β)
    (operation : CacheOperation κ β) (chosen : κ → Prop) [DecidablePred chosen] :
    ((memory.keptMarks operation).filter chosen).card =
      (if operation.prefetches ∧ chosen operation.key then 1 else 0) +
        ((memory.prefetchStatus.erase operation.key).filter chosen).card := by
  have fresh : operation.key ∉ (memory.prefetchStatus.erase operation.key).filter chosen := by
    intro member
    exact Finset.notMem_erase _ _ (Finset.mem_filter.mp member).1
  unfold keptMarks
  by_cases prefetching : operation.prefetches
  · rw [if_pos prefetching, Finset.filter_insert]
    by_cases isChosen : chosen operation.key
    · rw [if_pos isChosen, if_pos ⟨prefetching, isChosen⟩,
        Finset.card_insert_of_notMem fresh, Nat.add_comm]
    · rw [if_neg isChosen, if_neg fun both => isChosen both.2, Nat.zero_add]
  · rw [if_neg prefetching, if_neg fun both => prefetching both.1, Nat.zero_add]

theorem count_fates_cons (outcome : PrefetchFate) (memory : InMemoryChunkEvictionCache κ β)
    (operation : CacheOperation κ β) (operations : List (CacheOperation κ β)) :
    (fates memory (operation :: operations)).count outcome =
      (if operation.prefetches ∧
          fateOfStored operation.key (memory.perform operation) operations = outcome
        then 1 else 0) +
        (fates (memory.perform operation) operations).count outcome := by
  rw [fates]
  by_cases prefetching : operation.prefetches
  · rw [if_pos prefetching, List.count_cons, Nat.add_comm]
    simp only [prefetching, true_and, beq_iff_eq]
  · rw [if_neg prefetching, if_neg fun both => prefetching both.1, Nat.zero_add]

/-- Of the entries an operation leaves, those that stay cached await their
fate and those that do not are wasted. -/
theorem card_fateOfStored (outcome : PrefetchFate) (memory : InMemoryChunkEvictionCache κ β)
    (operations : List (CacheOperation κ β)) (kept : Finset κ) :
    (kept.filter fun key => fateOfStored key memory operations = outcome).card =
      ((kept.filter (· ∈ memory.cache)).filter fun key =>
        fate key memory operations = outcome).card +
        if outcome = .wasted then (kept.filter (· ∉ memory.cache)).card else 0 := by
  have split := Finset.card_filter_add_card_filter_not
    (s := kept.filter fun key => fateOfStored key memory operations = outcome)
    (· ∈ memory.cache)
  rw [← split]
  congr 1
  · rw [Finset.filter_comm]
    apply congrArg Finset.card
    apply Finset.filter_congr
    intro key member
    rw [fateOfStored, if_pos (Finset.mem_filter.mp member).2]
  · have gone : ∀ key ∈ kept.filter (· ∉ memory.cache),
        fateOfStored key memory operations = .wasted := by
      intro key member
      exact if_neg (Finset.mem_filter.mp member).2
    rw [Finset.filter_comm]
    by_cases wasted : outcome = .wasted
    · rw [if_pos wasted, Finset.filter_true_of_mem]
      intro key member
      rw [gone key member, wasted]
    · rw [if_neg wasted, Finset.card_eq_zero, Finset.filter_eq_empty_iff]
      intro key member same
      exact wasted (same.symm.trans (gone key member))

theorem counter_perform {memory : InMemoryChunkEvictionCache κ β} {outcome : PrefetchFate}
    (operation : CacheOperation κ β) (marked : memory.Marked) (counted : outcome ≠ .lost) :
    (memory.perform operation).counter outcome = memory.counter outcome +
      (if operation.key ∈ memory.prefetchStatus ∧ operation.fateOfKey = outcome then 1 else 0) +
      if outcome = .wasted then
        ((memory.keptMarks operation).filter (· ∉ (memory.perform operation).cache)).card
      else 0 := by
  have performed := performed_perform operation marked
  have never (other : PrefetchFate) (notHit : other ≠ .hit) (notLost : other ≠ .lost) :
      operation.fateOfKey ≠ other := by
    cases operation with
    | get key => exact notHit.symm
    | put key value isPrefetch => exact notLost.symm
    | invalidate key => exact notLost.symm
  cases outcome with
  | unread => rw [if_neg fun both => never .unread nofun nofun both.2, if_neg nofun]; rfl
  | hit =>
      have reads : (operation.reads = true ∧ operation.key ∈ memory.prefetchStatus) ↔
          operation.key ∈ memory.prefetchStatus ∧ operation.fateOfKey = .hit := by
        rw [operation.fateOfKey_eq_hit, And.comm]
      have notWasted : PrefetchFate.hit ≠ .wasted := nofun
      rw [if_neg notWasted, Nat.add_zero, counter, counter, performed.hits]
      simp only [reads]
  | wasted =>
      have cards := Finset.card_filter_add_card_filter_not (s := memory.keptMarks operation)
        (· ∈ (memory.perform operation).cache)
      have waste := performed.waste
      rw [performed.marks] at waste
      rw [if_neg fun both => never .wasted nofun nofun both.2, if_pos rfl, counter, counter]
      omega
  | lost => exact absurd rfl counted

/-- The balance of a fate: what is counted, what awaits it and what is still
to be prefetched. -/
def balance (outcome : PrefetchFate) (memory : InMemoryChunkEvictionCache κ β)
    (operations : List (CacheOperation κ β)) : Nat :=
  memory.counter outcome + pending outcome memory operations +
    (fates memory operations).count outcome

/-- An operation keeps the balance of every fate but `lost`. -/
theorem balance_perform {memory : InMemoryChunkEvictionCache κ β} {outcome : PrefetchFate}
    (operation : CacheOperation κ β) (operations : List (CacheOperation κ β))
    (marked : memory.Marked) (counted : outcome ≠ .lost) :
    balance outcome (memory.perform operation) operations =
      balance outcome memory (operation :: operations) := by
  have later := counter_perform operation marked counted
  have stored := card_fateOfStored outcome (memory.perform operation) operations
    (memory.keptMarks operation)
  have kept := card_keptMarks_filter memory operation
    fun key => fateOfStored key (memory.perform operation) operations = outcome
  have awaited : pending outcome (memory.perform operation) operations =
      (((memory.keptMarks operation).filter (· ∈ (memory.perform operation).cache)).filter
        fun key => fate key (memory.perform operation) operations = outcome).card := by
    rw [pending, (performed_perform operation marked).marks]
  rw [balance, balance, pending_cons, count_fates_cons, later, awaited]
  omega

/-! ## Whole histories -/

theorem balance_performAll {memory : InMemoryChunkEvictionCache κ β} {outcome : PrefetchFate}
    (operations : List (CacheOperation κ β)) (marked : memory.Marked)
    (counted : outcome ≠ .lost) :
    balance outcome (memory.performAll operations) [] = balance outcome memory operations := by
  induction operations generalizing memory with
  | nil => rfl
  | cons operation operations induction =>
      rw [← balance_perform operation operations marked counted]
      exact induction (performed_perform operation marked).marked

theorem length_fates (memory : InMemoryChunkEvictionCache κ β)
    (operations : List (CacheOperation κ β)) :
    (fates memory operations).length = operations.countP CacheOperation.prefetches := by
  induction operations generalizing memory with
  | nil => rfl
  | cons operation operations induction =>
      rw [fates, List.countP_cons]
      by_cases prefetching : operation.prefetches
      · rw [if_pos prefetching, if_pos prefetching, List.length_cons, induction]
      · rw [if_neg prefetching, if_neg prefetching, induction, Nat.add_zero]

theorem length_eq_counts (outcomes : List PrefetchFate) :
    outcomes.length = outcomes.count .hit + outcomes.count .wasted + outcomes.count .unread +
      outcomes.count .lost := by
  induction outcomes with
  | nil => rfl
  | cons outcome outcomes induction =>
      rw [List.length_cons, induction]
      cases outcome <;> simp <;> omega

/-- In every history of a new cache each counter is the number of prefetched
entries with its fate, the marks are the entries still unread, and with the
lost ones they make up all that was prefetched. -/
theorem prefetches_have_one_fate (maxChunks maxMemoryBytes : Nat)
    (operations : List (CacheOperation κ β)) :
    let start : InMemoryChunkEvictionCache κ β := new maxChunks maxMemoryBytes
    let memory := start.performAll operations
    let outcomes := fates start operations
    memory.metrics.prefetchHits = outcomes.count .hit ∧
      memory.metrics.prefetchWaste = outcomes.count .wasted ∧
      memory.prefetchStatus.card = outcomes.count .unread ∧
      operations.countP CacheOperation.prefetches =
        memory.metrics.prefetchHits + memory.metrics.prefetchWaste +
          memory.prefetchStatus.card + outcomes.count .lost := by
  intro start memory outcomes
  have marked : start.Marked := by
    intro key member
    cases member
  -- Nothing is marked at the start, and at the end every mark is unread.
  have settled (outcome : PrefetchFate) (counted : outcome ≠ .lost) :
      memory.counter outcome + (if outcome = .unread then memory.prefetchStatus.card else 0) =
        start.counter outcome + outcomes.count outcome := by
    have balanced := balance_performAll operations marked counted
    have final : pending outcome memory [] =
        if outcome = .unread then memory.prefetchStatus.card else 0 := by
      rw [pending]
      split
      · rename_i unread
        rw [unread]
        exact congrArg Finset.card (Finset.filter_true_of_mem fun key _ => rfl)
      · rename_i different
        rw [Finset.card_eq_zero, Finset.filter_eq_empty_iff]
        intro key _ same
        exact different same.symm
    rw [← final]
    exact balanced
  have hits : memory.metrics.prefetchHits = outcomes.count .hit := by
    simpa [counter, start, new] using settled .hit nofun
  have waste : memory.metrics.prefetchWaste = outcomes.count .wasted := by
    simpa [counter, start, new] using settled .wasted nofun
  have unread : memory.prefetchStatus.card = outcomes.count .unread := by
    simpa [counter] using settled .unread nofun
  refine ⟨hits, waste, unread, ?_⟩
  rw [hits, waste, unread, ← length_fates start operations]
  exact length_eq_counts outcomes

end InMemoryChunkEvictionCache

end FuseDrive.Cache
