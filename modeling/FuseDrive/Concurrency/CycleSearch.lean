import FuseDrive.Concurrency.LockManager

/-!
# What the search for a cycle finds

`_detect_cycle` follows the registered owners of a lock and the marks of the
waiting threads.  It raises exactly when a lock on the way is owned by the
requesting thread, other than the requested lock of a shared request, and its
stack runs empty within the fuel of the model.

The search leaves out what the requesting thread waits for itself.  As that
thread has no mark, the locks on the way are all that can be reached.
-/

namespace FuseDrive.Concurrency

variable {τ : Type} [DecidableEq τ]

/-- The thread is a registered owner of the lock. -/
def Owns (allocations : Dict Str (Dict τ Nat)) (lock : Str) (owner : τ) : Prop :=
  0 < ((ownersOf allocations lock).lookup owner).getD 0

theorem owns_iff_mem {allocations : Dict Str (Dict τ Nat)} {lock : Str} {owner : τ} :
    Owns allocations lock owner ↔
      ∃ count, 0 < count ∧ ⟨owner, count⟩ ∈ (ownersOf allocations lock).entries := by
  unfold Owns
  constructor
  · intro positive
    cases found : (ownersOf allocations lock).lookup owner with
    | none =>
        rw [found] at positive
        cases positive
    | some count =>
        rw [found] at positive
        exact ⟨count, positive, AList.mem_lookup_iff.mp found⟩
  · rintro ⟨count, positive, member⟩
    rw [show (ownersOf allocations lock).lookup owner = some count from
      AList.mem_lookup_iff.mpr member]
    exact positive

section Search

variable (allocations : Dict Str (Dict τ Nat)) (waiting : Dict τ Str) (start : τ) (target : Str)

/-- The search visits the thread as an owner. -/
inductive Met : τ → Prop where
  | owner {owner : τ} (owns : Owns allocations target owner) (distinct : owner ≠ start) :
      Met owner
  | next {owner other : τ} {lock : Str} (met : Met owner)
      (waits : waiting.lookup owner = some lock) (nonempty : lock ≠ [])
      (owns : Owns allocations lock other) (distinct : other ≠ start) : Met other

variable {allocations waiting start target} in
theorem Met.ne {owner : τ} (met : Met allocations waiting start target owner) : owner ≠ start := by
  cases met with
  | owner _ distinct => exact distinct
  | next _ _ _ _ distinct => exact distinct

/-- The search visits the lock. -/
def MeetsLock (lock : Str) : Prop :=
  lock = target ∨ ∃ owner, Met allocations waiting start target owner ∧
    waiting.lookup owner = some lock ∧ lock ≠ []

/-- The waiting threads that the search has not visited. -/
def unvisited (visitedThreads : List τ) : Nat :=
  (waiting.keys.filter (· ∉ visitedThreads)).length

variable {allocations waiting start target}

variable (waiting) in
theorem unvisited_cons_le (owner : τ) (visitedThreads : List τ) :
    unvisited waiting (owner :: visitedThreads) ≤ unvisited waiting visitedThreads := by
  apply List.Sublist.length_le
  apply List.monotone_filter_right
  intro thread absent
  simp only [List.mem_cons, not_or, decide_eq_true_eq] at absent ⊢
  exact absent.2

/-- A waiting thread that is visited for the first time pays for its push. -/
theorem unvisited_cons_lt {owner : τ} {lock : Str} {visitedThreads : List τ}
    (waits : waiting.lookup owner = some lock) (absent : owner ∉ visitedThreads) :
    unvisited waiting (owner :: visitedThreads) < unvisited waiting visitedThreads := by
  have member : owner ∈ waiting.keys :=
    AList.mem_keys.mp (AList.lookup_isSome.mp (by simp [waits]))
  have narrowed : waiting.keys.filter (· ∉ owner :: visitedThreads) =
      (waiting.keys.filter (· ∉ visitedThreads)).filter (· ≠ owner) := by
    rw [List.filter_filter]
    apply List.filter_congr
    intro thread _
    simp
  unfold unvisited
  rw [narrowed]
  apply List.length_filter_lt_length_iff_exists.mpr
  exact ⟨owner, List.mem_filter.mpr ⟨member, by simpa using absent⟩, by simp⟩

/-- The lock an owner is marked as waiting for, if the search follows the
mark. -/
def follows (waiting : Dict τ Str) (owner : τ) : List Str :=
  match waiting.lookup owner with
  | some lock => if lock = [] then [] else [lock]
  | none => []

theorem mem_follows {owner : τ} {lock : Str} :
    lock ∈ follows waiting owner ↔ waiting.lookup owner = some lock ∧ lock ≠ [] := by
  unfold follows
  cases found : waiting.lookup owner with
  | none => simp
  | some waitingFor =>
      by_cases isEmpty : waitingFor = []
      · simp only [isEmpty, if_true, List.not_mem_nil, Option.some.injEq, false_iff]
        rintro ⟨rfl, nonempty⟩
        exact nonempty rfl
      · simp only [if_neg isEmpty, List.mem_singleton, Option.some.injEq]
        constructor
        · rintro rfl
          exact ⟨rfl, isEmpty⟩
        · exact fun same => same.1.symm

theorem follows_paid {owner : τ} {visitedThreads : List τ} {stack : List Str}
    (absent : owner ∉ visitedThreads) :
    (follows waiting owner ++ stack).length + unvisited waiting (owner :: visitedThreads) ≤
      stack.length + unvisited waiting visitedThreads := by
  have fewer := unvisited_cons_le waiting owner visitedThreads
  unfold follows
  cases waits : waiting.lookup owner with
  | none => simpa using fewer
  | some lock =>
      have paid := unvisited_cons_lt waits absent
      simp only
      split
      · simpa using fewer
      · simp only [List.cons_append, List.nil_append, List.length_cons]
        omega

theorem visitOwners_cons {isExempt : Bool} {owner : τ} {count : Nat}
    {owners : List (Sigma fun _ : τ => Nat)} {visitedThreads : List τ} {stack : List Str} :
    visitOwners waiting start isExempt (⟨owner, count⟩ :: owners) visitedThreads stack =
      if 0 < count ∧ owner = start then
        if isExempt then visitOwners waiting start isExempt owners visitedThreads stack else none
      else if 0 < count ∧ owner ∉ visitedThreads then
        visitOwners waiting start isExempt owners (owner :: visitedThreads)
          (follows waiting owner ++ stack)
      else visitOwners waiting start isExempt owners visitedThreads stack := by
  rw [visitOwners, follows]
  congr 2
  cases waiting.lookup owner with
  | none => rfl
  | some lock =>
      simp only
      split <;> rfl

omit [DecidableEq τ] in
theorem positive_cons {thread owner : τ} {count : Nat} {owners : List (Sigma fun _ : τ => Nat)} :
    (∃ positive, 0 < positive ∧
        (⟨thread, positive⟩ : Sigma fun _ : τ => Nat) ∈ ⟨owner, count⟩ :: owners) ↔
      (0 < count ∧ owner = thread) ∨ ∃ positive, 0 < positive ∧ ⟨thread, positive⟩ ∈ owners := by
  constructor
  · rintro ⟨positive, isPositive, member⟩
    rcases List.mem_cons.mp member with same | later
    · cases same
      exact .inl ⟨isPositive, rfl⟩
    · exact .inr ⟨positive, isPositive, later⟩
  · rintro (⟨isPositive, rfl⟩ | ⟨positive, isPositive, later⟩)
    · exact ⟨count, isPositive, List.mem_cons_self⟩
    · exact ⟨positive, isPositive, List.mem_cons_of_mem _ later⟩

theorem visitOwners_eq_none {isExempt : Bool} {owners : List (Sigma fun _ : τ => Nat)}
    {visitedThreads : List τ} {stack : List Str} :
    visitOwners waiting start isExempt owners visitedThreads stack = none ↔
      isExempt = false ∧ ∃ count, 0 < count ∧ ⟨start, count⟩ ∈ owners := by
  induction owners generalizing visitedThreads stack with
  | nil => simp [visitOwners]
  | cons entry owners induction =>
      obtain ⟨owner, count⟩ := entry
      rw [visitOwners_cons]
      rw [positive_cons]
      by_cases isStart : 0 < count ∧ owner = start
      · cases isExempt <;> simp [isStart, induction]
      · rw [if_neg isStart]
        simp only [isStart, false_or]
        split
        · exact induction
        · exact induction

/-- One pass visits the owners that are new and pushes what they wait for. -/
structure Visits (waiting : Dict τ Str) (start : τ) (owners : List (Sigma fun _ : τ => Nat))
    (visitedThreads : List τ) (stack : List Str) (visited : List τ) (pushed : List Str) :
    Prop where
  threads : ∀ thread, thread ∈ visited ↔ thread ∈ visitedThreads ∨
    (thread ≠ start ∧ ∃ count, 0 < count ∧ ⟨thread, count⟩ ∈ owners)
  locks : ∀ lock, lock ∈ pushed ↔ lock ∈ stack ∨
    ∃ thread, thread ∈ visited ∧ thread ∉ visitedThreads ∧
      waiting.lookup thread = some lock ∧ lock ≠ []
  paid : pushed.length + unvisited waiting visited ≤ stack.length + unvisited waiting visitedThreads

theorem visitOwners_visits {isExempt : Bool} {owners : List (Sigma fun _ : τ => Nat)}
    {visitedThreads visited : List τ} {stack pushed : List Str}
    (passed : visitOwners waiting start isExempt owners visitedThreads stack =
      some (visited, pushed)) :
    Visits waiting start owners visitedThreads stack visited pushed := by
  induction owners generalizing visitedThreads stack with
  | nil =>
      cases passed
      exact ⟨by simp, fun lock => by simp; tauto, le_rfl⟩
  | cons entry owners induction =>
      obtain ⟨owner, count⟩ := entry
      rw [visitOwners_cons] at passed
      by_cases isStart : 0 < count ∧ owner = start
      · have rest := induction (by
          rw [if_pos isStart] at passed
          split at passed
          · exact passed
          · cases passed)
        refine ⟨fun thread => ?_, rest.locks, rest.paid⟩
        rw [rest.threads, positive_cons]
        grind
      rw [if_neg isStart] at passed
      by_cases isNew : 0 < count ∧ owner ∉ visitedThreads
      · have rest := induction (by rwa [if_pos isNew] at passed)
        obtain ⟨positive, absent⟩ := isNew
        have notStart : owner ≠ start := fun same => isStart ⟨positive, same⟩
        refine ⟨fun thread => ?_, fun lock => ?_, le_trans rest.paid (follows_paid absent)⟩
        · rw [rest.threads, positive_cons, List.mem_cons]
          grind
        · have visited := (rest.threads owner).mpr (.inl List.mem_cons_self)
          rw [rest.locks, List.mem_append, mem_follows]
          simp only [List.mem_cons, not_or]
          grind
      · have rest := induction (by rwa [if_neg isNew] at passed)
        refine ⟨fun thread => ?_, rest.locks, rest.paid⟩
        rw [rest.threads, positive_cons]
        grind

/-! ## The loop over the stack -/

variable (allocations waiting start target) in
/-- The requesting thread owns the lock, and the check does not pass over it. -/
def Closes (isWrite : Bool) (lock : Str) : Prop :=
  Owns allocations lock start ∧ ¬ (lock = target ∧ isWrite = false)

variable (allocations waiting start target) in
/-- What the loop keeps: it has only seen what is met, and everything met is
reached from the stack. -/
structure Searching (isWrite : Bool) (stack : List Str) (visitedThreads : List τ)
    (visitedLocks : List Str) : Prop where
  begun : target ∈ visitedLocks ∨ target ∈ stack
  sound : ∀ lock ∈ stack, MeetsLock allocations waiting start target lock
  threads : ∀ thread ∈ visitedThreads, Met allocations waiting start target thread
  owners : ∀ lock ∈ visitedLocks, ∀ thread, Owns allocations lock thread → thread ≠ start →
    thread ∈ visitedThreads
  quiet : ∀ lock ∈ visitedLocks, ¬ Closes allocations start target isWrite lock
  pending : ∀ thread ∈ visitedThreads, ∀ lock, waiting.lookup thread = some lock → lock ≠ [] →
    lock ∈ visitedLocks ∨ lock ∈ stack

variable {isWrite : Bool} {stack : List Str} {visitedThreads : List τ} {visitedLocks : List Str}

theorem MeetsLock.owner {lock : Str} {thread : τ}
    (meets : MeetsLock allocations waiting start target lock)
    (owns : Owns allocations lock thread) (distinct : thread ≠ start) :
    Met allocations waiting start target thread := by
  rcases meets with rfl | ⟨owner, met, waits, nonempty⟩
  · exact .owner owns distinct
  · exact .next met waits nonempty owns distinct

/-- With an empty stack everything that is met has been visited. -/
theorem Searching.finished
    (searching : Searching allocations waiting start target isWrite [] visitedThreads
      visitedLocks) {lock : Str} (meets : MeetsLock allocations waiting start target lock) :
    ¬ Closes allocations start target isWrite lock := by
  have begun : target ∈ visitedLocks := by simpa using searching.begun
  have visited : ∀ thread, Met allocations waiting start target thread →
      thread ∈ visitedThreads := by
    intro thread met
    induction met with
    | owner owns distinct => exact searching.owners target begun _ owns distinct
    | next _ waits nonempty owns distinct induction =>
        have known := searching.pending _ induction _ waits nonempty
        exact searching.owners _ (by simpa using known) _ owns distinct
  apply searching.quiet
  rcases meets with rfl | ⟨owner, met, waits, nonempty⟩
  · exact begun
  · simpa using searching.pending owner (visited owner met) lock waits nonempty

theorem Searching.skip {current : Str}
    (searching : Searching allocations waiting start target isWrite (current :: stack)
      visitedThreads visitedLocks) (seen : current ∈ visitedLocks) :
    Searching allocations waiting start target isWrite stack visitedThreads visitedLocks := by
  have covered : ∀ lock, lock ∈ visitedLocks ∨ lock ∈ current :: stack →
      lock ∈ visitedLocks ∨ lock ∈ stack := by
    rintro lock (visited | member)
    · exact .inl visited
    · rcases List.mem_cons.mp member with rfl | later
      · exact .inl seen
      · exact .inr later
  exact {
    begun := covered target searching.begun
    sound := fun lock member => searching.sound lock (List.mem_cons_of_mem current member)
    threads := searching.threads
    owners := searching.owners
    quiet := searching.quiet
    pending := fun thread member lock waits nonempty =>
      covered lock (searching.pending thread member lock waits nonempty) }

theorem Searching.pass {current : Str} {visited : List τ} {pushed : List Str}
    (searching : Searching allocations waiting start target isWrite (current :: stack)
      visitedThreads visitedLocks)
    (passed : ¬ Closes allocations start target isWrite current)
    (visits : Visits waiting start (ownersOf allocations current).entries visitedThreads stack
      visited pushed) :
    Searching allocations waiting start target isWrite pushed visited
      (current :: visitedLocks) := by
  have isMet := searching.sound current List.mem_cons_self
  have covered : ∀ lock, lock ∈ visitedLocks ∨ lock ∈ current :: stack →
      lock ∈ current :: visitedLocks ∨ lock ∈ pushed := by
    rintro lock (visited | member)
    · exact .inl (List.mem_cons_of_mem current visited)
    · rcases List.mem_cons.mp member with rfl | later
      · exact .inl List.mem_cons_self
      · exact .inr ((visits.locks lock).mpr (.inl later))
  have threads : ∀ thread ∈ visited, Met allocations waiting start target thread := by
    intro thread member
    rcases (visits.threads thread).mp member with earlier | ⟨distinct, owner⟩
    · exact searching.threads thread earlier
    · exact isMet.owner (owns_iff_mem.mpr owner) distinct
  refine ⟨covered target searching.begun, ?_, threads, ?_, ?_, ?_⟩
  · intro lock member
    rcases (visits.locks lock).mp member with earlier | ⟨thread, isVisited, _, waits, nonempty⟩
    · exact searching.sound lock (List.mem_cons_of_mem current earlier)
    · exact .inr ⟨thread, threads thread isVisited, waits, nonempty⟩
  · intro lock member thread owns distinct
    rcases List.mem_cons.mp member with rfl | earlier
    · exact (visits.threads thread).mpr (.inr ⟨distinct, owns_iff_mem.mp owns⟩)
    · exact (visits.threads thread).mpr (.inl (searching.owners lock earlier thread owns distinct))
  · intro lock member
    rcases List.mem_cons.mp member with rfl | earlier
    · exact passed
    · exact searching.quiet lock earlier
  · intro thread member lock waits nonempty
    by_cases earlier : thread ∈ visitedThreads
    · exact covered lock (searching.pending thread earlier lock waits nonempty)
    · exact .inr ((visits.locks lock).mpr (.inr ⟨thread, member, earlier, waits, nonempty⟩))

theorem search_iff {fuel : Nat}
    (searching : Searching allocations waiting start target isWrite stack visitedThreads
      visitedLocks) (enough : stack.length + unvisited waiting visitedThreads ≤ fuel) :
    search allocations waiting start target isWrite fuel stack visitedThreads visitedLocks = true ↔
      ∃ lock, MeetsLock allocations waiting start target lock ∧
        Closes allocations start target isWrite lock := by
  induction fuel generalizing stack visitedThreads visitedLocks with
  | zero =>
      have finished : stack = [] := List.eq_nil_of_length_eq_zero (by omega)
      subst finished
      simp only [search, Bool.false_eq_true, false_iff, not_exists, not_and]
      exact fun lock meets => searching.finished meets
  | succ fuel induction =>
      cases stack with
      | nil =>
          simp only [search, Bool.false_eq_true, false_iff, not_exists, not_and]
          exact fun lock meets => searching.finished meets
      | cons current stack =>
          rw [List.length_cons] at enough
          rw [search]
          by_cases seen : current ∈ visitedLocks
          · rw [if_pos seen]
            exact induction (searching.skip seen) (by omega)
          · rw [if_neg seen]
            cases passed : visitOwners waiting start (current = target && !isWrite)
                (ownersOf allocations current).entries visitedThreads stack with
            | none =>
                obtain ⟨notExempt, owner⟩ := visitOwners_eq_none.mp passed
                simp only [true_iff]
                refine ⟨current, searching.sound current List.mem_cons_self,
                  owns_iff_mem.mpr owner, ?_⟩
                rintro ⟨rfl, rfl⟩
                simp at notExempt
            | some result =>
                obtain ⟨visited, pushed⟩ := result
                have visits := visitOwners_visits passed
                refine induction (searching.pass ?_ visits) ?_
                · rintro ⟨owns, notExempt⟩
                  have isExempt : (current = target && !isWrite) = false := by
                    simpa using notExempt
                  rw [visitOwners_eq_none.mpr ⟨isExempt, owns_iff_mem.mp owns⟩] at passed
                  cases passed
                · have paid := visits.paid
                  omega

theorem Searching.begin :
    Searching allocations waiting start target isWrite [target] [] [] where
  begun := .inr List.mem_cons_self
  sound := by simp [MeetsLock]
  threads := by simp
  owners := by simp
  quiet := by simp
  pending := by simp

theorem unvisited_nil : unvisited waiting [] = waiting.keys.length := by
  simp [unvisited]

/-- The search raises exactly when it meets a lock of the requesting thread, and
its fuel is always enough. -/
theorem detectCycle_iff :
    detectCycle allocations waiting start target isWrite = true ↔
      ∃ lock, MeetsLock allocations waiting start target lock ∧
        Closes allocations start target isWrite lock := by
  apply search_iff .begin
  rw [unvisited_nil, List.length_singleton, Nat.add_comm]

/-! ## Termination -/

variable (allocations waiting start target) in
/-- The outer loop of `_detect_cycle`; `none` if it has not ended after so many
rounds. -/
def searchWithin (isWrite : Bool) : Nat → List Str → List τ → List Str → Option Bool
  | _, [], _, _ => some false
  | 0, _ :: _, _, _ => none
  | rounds + 1, current :: stack, visitedThreads, visitedLocks =>
      if current ∈ visitedLocks then
        searchWithin isWrite rounds stack visitedThreads visitedLocks
      else
        match visitOwners waiting start (current = target && !isWrite)
            (ownersOf allocations current).entries visitedThreads stack with
        | none => some true
        | some (visitedThreads, stack) =>
            searchWithin isWrite rounds stack visitedThreads (current :: visitedLocks)

/-- Every round takes a lock from the stack, and only a thread that waits and is
visited for the first time puts one there. -/
theorem searchWithin_eq_search {rounds : Nat}
    (enough : stack.length + unvisited waiting visitedThreads ≤ rounds) :
    searchWithin allocations waiting start target isWrite rounds stack visitedThreads
        visitedLocks =
      some (search allocations waiting start target isWrite rounds stack visitedThreads
        visitedLocks) := by
  induction rounds generalizing stack visitedThreads visitedLocks with
  | zero =>
      have finished : stack = [] := List.eq_nil_of_length_eq_zero (by omega)
      subst finished
      rfl
  | succ rounds induction =>
      cases stack with
      | nil => rfl
      | cons current stack =>
          rw [List.length_cons] at enough
          rw [searchWithin, search]
          by_cases seen : current ∈ visitedLocks
          · rw [if_pos seen, if_pos seen]
            exact induction (by omega)
          · rw [if_neg seen, if_neg seen]
            cases passed : visitOwners waiting start (current = target && !isWrite)
                (ownersOf allocations current).entries visitedThreads stack with
            | none => rfl
            | some result =>
                obtain ⟨visited, pushed⟩ := result
                have paid := (visitOwners_visits passed).paid
                exact induction (by omega)

/-! ## Reachability -/

variable (allocations waiting) in
/-- From a key over an owner to the key the owner waits for. -/
def LeadsTo (key next : Str) : Prop :=
  ∃ owner, Owns allocations key owner ∧ waiting.lookup owner = some next

/-- A thread that does not wait is on no way, so the search may leave it out. -/
theorem meetsLock_iff_reaches (nonempty : ∀ owner key, waiting.lookup owner = some key → key ≠ [])
    (running : waiting.lookup start = none) {key : Str} :
    MeetsLock allocations waiting start target key ↔
      Relation.ReflTransGen (LeadsTo allocations waiting) target key := by
  have reached {owner : τ} (met : Met allocations waiting start target owner) :
      ∃ lock, Relation.ReflTransGen (LeadsTo allocations waiting) target lock ∧
        Owns allocations lock owner := by
    induction met with
    | owner owns distinct => exact ⟨target, .refl, owns⟩
    | next met waits _ owns distinct induction =>
        obtain ⟨before, way, owned⟩ := induction
        exact ⟨_, way.tail ⟨_, owned, waits⟩, owns⟩
  constructor
  · rintro (rfl | ⟨owner, met, waits, -⟩)
    · exact .refl
    · obtain ⟨before, way, owned⟩ := reached met
      exact way.tail ⟨owner, owned, waits⟩
  · intro way
    induction way with
    | refl => exact .inl rfl
    | tail _ last meets =>
        obtain ⟨owner, owned, waits⟩ := last
        have distinct : owner ≠ start := by
          rintro rfl
          rw [running] at waits
          cases waits
        exact .inr ⟨owner, meets.owner owned distinct, waits, nonempty _ _ waits⟩

/-- The loop ends, after one round more than threads wait at the latest, and it
raises exactly when a key on the way is owned by the thread that asks, other than
the requested key of a shared request. -/
theorem detectCycle_exact (allocations : Dict Str (Dict τ Nat)) (waiting : Dict τ Str) (start : τ)
    (target : Str) (isWrite : Bool)
    (nonempty : ∀ owner key, waiting.lookup owner = some key → key ≠ [])
    (running : waiting.lookup start = none) :
    (∀ rounds, waiting.keys.length < rounds →
      searchWithin allocations waiting start target isWrite rounds [target] [] [] =
        some (detectCycle allocations waiting start target isWrite)) ∧
    (detectCycle allocations waiting start target isWrite = true ↔
      ∃ key, Relation.ReflTransGen (LeadsTo allocations waiting) target key ∧
        Owns allocations key start ∧ ¬ (key = target ∧ isWrite = false)) := by
  constructor
  · intro rounds enough
    have covered : [target].length + unvisited waiting [] ≤ rounds := by
      rw [unvisited_nil, List.length_singleton, Nat.add_comm]
      exact enough
    rw [searchWithin_eq_search covered, Option.some.injEq, Bool.eq_iff_iff,
      search_iff .begin covered, detectCycle_iff]
  · rw [detectCycle_iff]
    simp only [meetsLock_iff_reaches nonempty running, Closes]

end Search

/-- Threads 1 and 2 own A, threads 0 and 1 own B. -/
def crossedOwners : Dict Str (Dict Nat Nat) :=
  AList.insert ['A'] (AList.insert 1 1 (AList.insert 2 1 ∅))
    (AList.insert ['B'] (AList.insert 0 1 (AList.insert 1 1 ∅)) ∅)

/-- Thread 1 waits for B, and thread 2 for A, which it owns. -/
def crossedWaits : Dict Nat Str :=
  AList.insert 1 ['B'] (AList.insert 2 ['A'] ∅)

/-- Thread 0 asks to read A and is found among the owners of B. -/
theorem detectCycle_exact_crossed :
    (∀ rounds, 2 < rounds →
      searchWithin crossedOwners crossedWaits 0 ['A'] false rounds [['A']] [] [] = some true) ∧
    ∃ key, Relation.ReflTransGen (LeadsTo crossedOwners crossedWaits) ['A'] key ∧
      Owns crossedOwners key 0 ∧ ¬ (key = ['A'] ∧ false = false) := by
  have nonempty (owner : Nat) (key : Str) (waits : crossedWaits.lookup owner = some key) :
      key ≠ [] := by
    have member := AList.mem_lookup_iff.mp waits
    simp only [crossedWaits] at member
    rintro rfl
    revert member
    simp
  obtain ⟨ends, raises⟩ :=
    detectCycle_exact crossedOwners crossedWaits 0 ['A'] false nonempty (by decide)
  have raised : detectCycle crossedOwners crossedWaits 0 ['A'] false = true := by decide
  rw [raised] at ends
  exact ⟨ends, raises.mp raised⟩

end FuseDrive.Concurrency
