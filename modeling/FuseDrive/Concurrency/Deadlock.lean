import FuseDrive.Concurrency.WaitGraph

/-!
# Missed deadlocks

The search sees a waiting mark before its thread can block and an owner as soon
as it can hold up anyone for good.  What it lets through are the re-entrant
shared requests, which a queued or holding writer does block, and it does not
follow a thread that waits for the empty key.  Without these no set of threads
ever waits for its own members.
-/

namespace FuseDrive.Concurrency

open Transition

variable {τ : Type} [DecidableEq τ]

/-! ## The discipline -/

/-- A shared request for a key inside whose scope the thread already is. -/
def Thread.Reenters (thread : Thread) (scope : Scope) : Prop :=
  scope.isWrite = false ∧ thread.Inside scope.key

/-- No search meets an owner that waits for the empty key, and no thread calls
`acquire_read` on a key it holds while a writer holds or has queued for it. -/
def Guarded (state : State τ) : Label τ → Prop
  | .resume thread =>
      match (state.threads thread).point with
      | .located scope =>
          ∀ owner, Met state.allocations state.waiting thread scope.key owner →
            state.waiting.lookup owner ≠ some []
      | .marked scope =>
          (state.threads thread).Reenters scope → (state.objects scope.lock).admits false = true
      | _ => True
  | _ => True

/-! ## The edges the search follows -/

/-- The thread is marked as waiting, with a request that the check does not pass
over, for a key inside whose scope the other one is. -/
def Follows (state : State τ) (thread other : τ) : Prop :=
  ∃ scope, (state.threads thread).mark = some scope ∧
    ¬ (state.threads thread).Reenters scope ∧ (state.threads other).Inside scope.key

omit [DecidableEq τ] in
theorem Follows.congr {state after : State τ} {thread other : τ}
    (follows : Follows after thread other)
    (mark : (after.threads thread).mark = (state.threads thread).mark)
    (scopes : (after.threads thread).scopes = (state.threads thread).scopes)
    (others : (after.threads other).scopes = (state.threads other).scopes) :
    Follows state thread other := by
  obtain ⟨scope, isMark, fresh, inside⟩ := follows
  refine ⟨scope, mark ▸ isMark, ?_, ?_⟩
  · simpa only [Thread.Reenters, Thread.Inside, scopes] using fresh
  · simpa only [Thread.Inside, others] using inside

theorem Follows.acyclic_of_updates {state after : State τ} {thread : τ} {value : Thread}
    (acyclic : Acyclic (Follows state))
    (threads : after.threads = Function.update state.threads thread value)
    (scopes : value.scopes = (state.threads thread).scopes)
    (mark : value.mark = (state.threads thread).mark) : Acyclic (Follows after) := by
  have same : ∀ other, (after.threads other).mark = (state.threads other).mark ∧
      (after.threads other).scopes = (state.threads other).scopes := by
    intro other
    rw [threads]
    by_cases isThread : other = thread
    · subst isThread
      rw [Function.update_self]
      exact ⟨mark, scopes⟩
    · rw [Function.update_of_ne isThread]
      exact ⟨rfl, rfl⟩
  exact acyclic.mono fun party other follows =>
    follows.congr (same party).1 (same party).2 (same other).2

/-- Every thread on a path from a thread that is met is met, so no such path
ends at the requesting thread. -/
theorem Met.apart {state : State τ} {thread owner : τ} {scope : Scope}
    (met : Met state.allocations state.waiting thread scope.key owner)
    (recorded : Recorded state)
    (nonempty : ∀ owner, Met state.allocations state.waiting thread scope.key owner →
      state.waiting.lookup owner ≠ some [])
    (fresh : ¬ (state.threads thread).Reenters scope)
    (quiet : ∀ lock, MeetsLock state.allocations state.waiting thread scope.key lock →
      ¬ Closes state.allocations thread scope.key scope.isWrite lock) :
    ¬ Relation.ReflTransGen (Follows state) owner thread := by
  intro reaches
  induction reaches using Relation.ReflTransGen.head_induction_on with
  | refl => exact met.ne rfl
  | @head owner next follows _ induction =>
      obtain ⟨asked, isMark, _, inside⟩ := follows
      have waits := recorded.waits_iff.mpr ⟨asked, isMark, rfl⟩
      have isKey : asked.key ≠ [] := fun isEmpty => nonempty owner met (isEmpty ▸ waits)
      have owns := recorded.owns_iff.mpr inside
      by_cases isThread : next = thread
      · subst isThread
        refine quiet asked.key (.inr ⟨owner, met, waits, isKey⟩) ⟨owns, ?_⟩
        rintro ⟨same, isRead⟩
        exact fresh ⟨isRead, same ▸ inside⟩
      · exact induction (met.next waits isKey owns isThread)

/-- A request that passes the check closes no cycle of edges. -/
theorem Follows.acyclic_of_asks {state after : State τ} {thread : τ} {scope : Scope}
    {value : Thread} (acyclic : Acyclic (Follows state)) (recorded : Recorded state)
    (located : (state.threads thread).point = .located scope)
    (nonempty : ∀ owner, Met state.allocations state.waiting thread scope.key owner →
      state.waiting.lookup owner ≠ some [])
    (passed : state.raises thread scope = false)
    (threads : after.threads = Function.update state.threads thread value)
    (scopes : value.scopes = (state.threads thread).scopes) (mark : value.mark = some scope) :
    Acyclic (Follows after) := by
  have isValue : after.threads thread = value := by rw [threads, Function.update_self]
  have others : ∀ other, other ≠ thread → after.threads other = state.threads other := by
    rw [threads]
    exact fun other distinct => Function.update_of_ne distinct _ _
  have sameScopes : ∀ other, (after.threads other).scopes = (state.threads other).scopes := by
    intro other
    by_cases isThread : other = thread
    · subst isThread
      rw [isValue, scopes]
    · rw [others other isThread]
  have quiet : ∀ lock, MeetsLock state.allocations state.waiting thread scope.key lock →
      ¬ Closes state.allocations thread scope.key scope.isWrite lock := by
    intro lock meets closes
    have raises : state.raises thread scope = true := detectCycle_iff.mpr ⟨lock, meets, closes⟩
    rw [passed] at raises
    cases raises
  by_cases reenters : (state.threads thread).Reenters scope
  · -- the edges out of a re-entrant request are left out
    refine acyclic.mono fun party other follows => ?_
    by_cases isThread : party = thread
    · subst isThread
      obtain ⟨asked, isMark, fresh, _⟩ := follows
      rw [isValue, mark, Option.some.injEq] at isMark
      subst isMark
      refine absurd ?_ fresh
      simpa only [Thread.Reenters, Thread.Inside, sameScopes] using reenters
    · exact follows.congr (by rw [others party isThread]) (sameScopes party) (sameScopes other)
  refine acyclic.insert_source thread
    (fun other => (state.threads other).Inside scope.key) ?_ ?_
  · intro party other follows
    by_cases isThread : party = thread
    · subst isThread
      obtain ⟨asked, isMark, _, inside⟩ := follows
      rw [isValue, mark, Option.some.injEq] at isMark
      subst isMark
      refine .inr ⟨rfl, ?_⟩
      simpa only [Thread.Inside, sameScopes] using inside
    · exact .inl (follows.congr (by rw [others party isThread]) (sameScopes party)
        (sameScopes other))
  · intro owner inside reaches
    have owns := recorded.owns_iff.mpr inside
    by_cases isThread : owner = thread
    · subst isThread
      exact quiet scope.key (.inl rfl) ⟨owns, fun exempt => reenters ⟨exempt.2, inside⟩⟩
    · exact (Met.owner owns isThread).apart recorded nonempty reenters quiet reaches

theorem Follows.acyclic_of_registers {state after : State τ} {thread : τ} {value : Thread}
    (acyclic : Acyclic (Follows state))
    (threads : after.threads = Function.update state.threads thread value)
    (mark : value.mark = none) : Acyclic (Follows after) := by
  have isValue : after.threads thread = value := by rw [threads, Function.update_self]
  have others : ∀ other, other ≠ thread → after.threads other = state.threads other := by
    rw [threads]
    exact fun other distinct => Function.update_of_ne distinct _ _
  have final : ∀ other, ¬ Follows after thread other := by
    rintro other ⟨scope, isMark, _⟩
    rw [isValue, mark] at isMark
    cases isMark
  refine acyclic.insert_sink thread (fun party other follows => ?_) final
  by_cases isSource : party = thread
  · subst isSource
    exact absurd follows (final other)
  · by_cases isSink : other = thread
    · exact .inr isSink
    · exact .inl (follows.congr (by rw [others party isSource]) (by rw [others party isSource])
        (by rw [others other isSink]))

/-! ## The invariant -/

/-- The edges that the search follows form no cycle, and no blocked thread has
re-entered a key. -/
structure Unentangled (state : State τ) : Prop where
  consistent : Consistent state
  recorded : Recorded state
  acyclic : Acyclic (Follows state)
  fresh : ∀ thread scope, (state.threads thread).point = .blocked scope →
    ¬ (state.threads thread).Reenters scope

theorem Unentangled.initial : Unentangled ({} : State τ) where
  consistent := .initial
  recorded := .initial
  acyclic _ cycle := by
    obtain ⟨_, ⟨_, isMark, _⟩, _⟩ := Relation.TransGen.head'_iff.mp cycle
    cases isMark
  fresh _ _ blocked := by cases blocked

theorem Follows.acyclic_of_step {state after : State τ} {label : Label τ}
    (acyclic : Acyclic (Follows state)) (recorded : Recorded state)
    (guarded : Guarded state label) (stepped : state.step label = some after) :
    Acyclic (Follows after) := by
  cases State.stepped stepped with
  | joined running _ =>
      exact Follows.acyclic_of_updates acyclic rfl rfl (by simp [Thread.mark, running])
  | created running _ =>
      exact Follows.acyclic_of_updates acyclic rfl rfl (by simp [Thread.mark, running])
  | left inside => exact Follows.acyclic_of_registers acyclic rfl rfl
  | rejected located _ =>
      exact Follows.acyclic_of_updates acyclic rfl rfl (by simp [Thread.mark, located])
  | marked located passed =>
      refine Follows.acyclic_of_asks acyclic recorded located ?_ passed rfl rfl rfl
      simpa only [Guarded, located] using guarded
  | entered marked _ =>
      exact Follows.acyclic_of_updates acyclic rfl rfl (by simp [Thread.mark, marked])
  | queued marked _ =>
      exact Follows.acyclic_of_updates acyclic rfl rfl (by simp [Thread.mark, marked])
  | admitted blocked _ =>
      exact Follows.acyclic_of_updates acyclic rfl rfl (by simp [Thread.mark, blocked])
  | registered acquired => exact Follows.acyclic_of_registers acyclic rfl rfl
  | released unregistered =>
      exact Follows.acyclic_of_updates acyclic rfl rfl (by simp [Thread.mark, unregistered])
  | unmarked released =>
      exact Follows.acyclic_of_updates acyclic rfl rfl (by simp [Thread.mark, released])
  | @dropped thread _ after last releases =>
      obtain ⟨_, _, threads, _⟩ := State.releaseRef_spec releases
      have updated : (after.setPoint thread .running).threads =
          Function.update state.threads thread
            { state.threads thread with point := .running } := by
        rw [← threads]
        rfl
      exact Follows.acyclic_of_registers acyclic updated rfl

/-- A thread begins to wait in a lock that does not admit it. -/
theorem State.blocks_of_step {state after : State τ} {label : Label τ} {scope : Scope}
    (stepped : state.step label = some after)
    (blocked : (after.threads label.thread).point = .blocked scope) :
    label = .resume label.thread ∧ (state.threads label.thread).point = .marked scope ∧
      (after.threads label.thread).scopes = (state.threads label.thread).scopes ∧
      ((state.objects scope.lock).request scope.isWrite).admits scope.isWrite = false := by
  cases State.stepped stepped with
  | @queued thread asked marked refuses =>
      have value : ((state.setObject asked.lock ((state.objects asked.lock).request
          asked.isWrite)).setPoint thread (.blocked asked)).threads thread =
            { state.threads thread with point := .blocked asked } := Function.update_self ..
      simp only [Label.thread, value, Point.blocked.injEq] at blocked
      subst blocked
      refine ⟨rfl, marked, ?_, refuses⟩
      simp only [Label.thread, value]
  | _ =>
      simp [Label.thread, State.setPoint, State.setThread, State.mark] at blocked

theorem Unentangled.step {state after : State τ} {label : Label τ}
    (unentangled : Unentangled state) (guarded : Guarded state label)
    (stepped : state.step label = some after) : Unentangled after where
  consistent := unentangled.consistent.step stepped
  recorded := unentangled.recorded.step stepped
  acyclic := Follows.acyclic_of_step unentangled.acyclic unentangled.recorded guarded stepped
  fresh thread scope blocked reenters := by
    by_cases same : thread = label.thread
    · subst same
      obtain ⟨isLabel, marked, scopes, refuses⟩ := State.blocks_of_step stepped blocked
      simp only [Thread.Reenters, Thread.Inside, scopes] at reenters
      rw [isLabel] at guarded
      simp only [Guarded, marked] at guarded
      have admits := guarded reenters
      rw [reenters.1] at refuses
      exact Bool.false_ne_true (refuses.symm.trans admits)
    · rw [State.threads_of_step stepped same] at blocked reenters
      exact unentangled.fresh thread scope blocked reenters

/-! ## No set of threads waits for itself -/

omit [DecidableEq τ] in
/-- A member of a deadlocked set has an edge into the set, since a queued
writer waits for a scope that a member is in. -/
theorem Deadlocked.follows {state : State τ} {members : Set τ}
    (deadlocked : Deadlocked state members)
    (fresh : ∀ thread scope, (state.threads thread).point = .blocked scope →
      ¬ (state.threads thread).Reenters scope) {thread : τ} (member : thread ∈ members) :
    ∃ other ∈ members, Follows state thread other := by
  have inside : ∀ other ∈ members, ∀ scope ∈ (state.threads other).held,
      (state.threads other).Inside scope.key := by
    intro other isMember scope held
    obtain ⟨asked, blocked, _⟩ := deadlocked.2 other isMember
    have request : (state.threads other).request = some asked := by
      simp [Thread.request, blocked]
    rw [Thread.held_of_request request] at held
    exact ⟨scope, held, rfl⟩
  have holder : ∀ other ∈ members, ∀ key isWrite, Obstructs state key isWrite other →
      ∃ owner ∈ members, (state.threads owner).Inside key := by
    intro other isMember key isWrite obstructs
    cases obstructs with
    | writing held same _ => exact ⟨other, isMember, same ▸ inside other isMember _ held⟩
    | reading held same _ => exact ⟨other, isMember, same ▸ inside other isMember _ held⟩
    | @queued scope blocked same exclusive _ =>
        obtain ⟨asked, isAsked, owner, isOwner, obstructed⟩ := deadlocked.2 other isMember
        rw [blocked, Point.blocked.injEq] at isAsked
        subst isAsked
        cases obstructed with
        | writing held also _ =>
            exact ⟨owner, isOwner, same ▸ also ▸ inside owner isOwner _ held⟩
        | reading held also _ =>
            exact ⟨owner, isOwner, same ▸ also ▸ inside owner isOwner _ held⟩
        | queued _ _ _ request =>
            rw [exclusive] at request
            cases request
  obtain ⟨scope, blocked, other, isMember, obstructs⟩ := deadlocked.2 thread member
  obtain ⟨owner, isOwner, isInside⟩ := holder other isMember _ _ obstructs
  exact ⟨owner, isOwner, scope, by simp [Thread.mark, blocked], fresh thread scope blocked,
    isInside⟩

omit [DecidableEq τ] in
theorem Deadlocked.finite {state : State τ} {members : Set τ}
    (deadlocked : Deadlocked state members) {waiting : Dict τ Str}
    (marked : ∀ thread scope, (state.threads thread).point = .blocked scope →
      thread ∈ waiting.keys) : members.Finite := by
  refine (List.finite_toSet waiting.keys).subset fun thread member => ?_
  obtain ⟨scope, blocked, _⟩ := deadlocked.2 thread member
  exact marked thread scope blocked

omit [DecidableEq τ] in
theorem Deadlocked.absurd {state : State τ} {members : Set τ}
    (deadlocked : Deadlocked state members) (waiting : Dict τ Str) (acyclic : Acyclic (Follows state))
    (fresh : ∀ thread scope, (state.threads thread).point = .blocked scope →
      ¬ (state.threads thread).Reenters scope)
    (marked : ∀ thread scope, (state.threads thread).point = .blocked scope →
      thread ∈ waiting.keys) : False := by
  obtain ⟨thread, member, terminal⟩ :=
    acyclic.exists_terminal (deadlocked.finite marked) deadlocked.1
  obtain ⟨other, isMember, follows⟩ := deadlocked.follows fresh member
  exact terminal other isMember follows

theorem Recorded.mem_keys {state : State τ} (recorded : Recorded state) {thread : τ} {scope : Scope}
    (blocked : (state.threads thread).point = .blocked scope) : thread ∈ state.waiting.keys := by
  have waits : state.waiting.lookup thread = some scope.key :=
    recorded.waits_iff.mpr ⟨scope, by simp [Thread.mark, blocked], rfl⟩
  exact AList.mem_keys.mp (AList.lookup_isSome.mp (by simp [waits]))

theorem Unentangled.not_deadlocked {state : State τ} (unentangled : Unentangled state)
    (members : Set τ) : ¬ Deadlocked state members := fun deadlocked =>
  deadlocked.absurd state.waiting unentangled.acyclic unentangled.fresh fun _ _ blocked =>
    unentangled.recorded.mem_keys blocked

/-- The check rejects the request that would complete a set of threads waiting
for each other. -/
theorem Unentangled.raises_of_completes {state : State τ} (unentangled : Unentangled state)
    {thread : τ} {scope : Scope} {members : Set τ}
    (located : (state.threads thread).point = .located scope)
    (checks : Guarded state (.resume thread))
    (waits : Guarded (state.mark thread scope) (.resume thread)) (member : thread ∈ members)
    (completed : Deadlocked (state.setPoint thread (.blocked scope)) members) :
    state.raises thread scope = true := by
  have value : (state.setPoint thread (.blocked scope)).threads thread =
      { state.threads thread with point := .blocked scope } := Function.update_self ..
  have others : ∀ other, other ≠ thread →
      (state.setPoint thread (.blocked scope)).threads other = state.threads other :=
    fun other distinct => Function.update_of_ne distinct _ _
  have fresh : ¬ (state.threads thread).Reenters scope := by
    intro reenters
    have marked : ((state.mark thread scope).threads thread) =
        { state.threads thread with point := .marked scope } := Function.update_self ..
    simp only [Guarded, marked] at waits
    have admits : (state.objects scope.lock).admits false = true := waits reenters
    have registered := unentangled.consistent.pointing thread scope
      (by simp [Thread.referring, located])
    obtain ⟨asked, blocked, other, _, obstructs⟩ := completed.2 thread member
    rw [value, Point.blocked.injEq] at blocked
    subst blocked
    have before : Obstructs state scope.key false other := by
      rw [reenters.1] at obstructs
      by_cases same : other = thread
      · subst same
        cases obstructs with
        | writing held same exclusive =>
            rw [value] at held
            exact .writing (by simpa [Thread.held, located] using held) same exclusive
        | reading _ _ request => cases request
        | queued isBlocked _ exclusive _ =>
            rw [value, Point.blocked.injEq] at isBlocked
            subst isBlocked
            rw [reenters.1] at exclusive
            cases exclusive
      · refine obstructs.congr ?_ ?_
        · rw [others other same]
          exact fun _ => id
        · rw [others other same]
          exact fun _ => id
    have refuses := (unentangled.consistent.refuses before registered).1
    exact Bool.false_ne_true (refuses.symm.trans admits)
  by_contra passed
  have isFalse := Bool.eq_false_iff.mpr passed
  refine completed.absurd (state.mark thread scope).waiting ?_ ?_ ?_
  · refine Follows.acyclic_of_asks unentangled.acyclic unentangled.recorded located ?_ isFalse rfl
      rfl rfl
    simpa only [Guarded, located] using checks
  · intro other asked blocked
    by_cases same : other = thread
    · subst same
      rw [value, Point.blocked.injEq] at blocked
      subst blocked
      rw [value]
      exact fresh
    · rw [others other same] at blocked ⊢
      exact unentangled.fresh other asked blocked
  · intro other asked blocked
    refine AList.mem_keys.mp ((AList.mem_insert _).mpr ?_)
    by_cases same : other = thread
    · exact .inl same
    · rw [others other same] at blocked
      exact .inr (AList.mem_keys.mpr (unentangled.recorded.mem_keys blocked))

/-- The discipline cannot spare re-entrant requests: the one that it forbids is
a deadlock at once. -/
theorem Consistent.deadlocked_of_reenters {state after : State τ} (consistent : Consistent state)
    {thread : τ} {scope : Scope} (marked : (state.threads thread).point = .marked scope)
    (reenters : (state.threads thread).Reenters scope)
    (refuses : (state.objects scope.lock).admits false = false)
    (stepped : state.step (.resume thread) = some after) :
    ∃ members, Deadlocked after members := by
  obtain ⟨isRead, entered, inside, same⟩ := reenters
  have value : after.threads thread = { state.threads thread with point := .blocked scope } := by
    simp only [State.step, State.resume, marked, isRead, RWLock.request, Bool.false_eq_true,
      if_false, refuses, Option.some.injEq] at stepped
    rw [← stepped]
    exact Function.update_self ..
  have held : entered ∈ (after.threads thread).held := by
    rw [value]
    exact inside
  have blocked : (after.threads thread).point = .blocked scope := by rw [value]
  by_cases exclusive : entered.isWrite = true
  · refine ⟨{thread}, Set.singleton_nonempty thread, ?_⟩
    rintro other rfl
    exact ⟨scope, blocked, other, rfl, .writing held same exclusive⟩
  · -- beside a reader there is no writer, so a writer has queued
    have registered := consistent.pointing thread scope (by simp [Thread.referring, marked])
    have reading : 0 < (state.threads thread).readShare scope.key := by
      refine List.countP_pos_iff.mpr ⟨entered, ?_, by simp [same, exclusive]⟩
      simpa [Thread.held, marked] using inside
    have readers := (consistent.readers scope.key scope.lock registered).le thread
    have alone := (consistent.compatible scope.key scope.lock registered).alone
    have queued : 0 < (state.objects scope.lock).writeRequests := by
      simp only [RWLock.admits, RWLock.admitsRead, Bool.false_eq_true, if_false,
        Bool.and_eq_false_iff, decide_eq_false_iff_not] at refuses
      omega
    obtain ⟨writer, positive⟩ :=
      (consistent.requests scope.key scope.lock registered).exists_pos queued
    obtain ⟨asked, isQueued, isKey⟩ := List.countP_pos_iff.mp positive
    have waits : (state.threads writer).point = .blocked asked ∧ asked.isWrite = true := by
      generalize state.threads writer = waiting at isQueued
      obtain ⟨scopes, point⟩ := waiting
      cases point <;> simp only [Thread.queued, List.not_mem_nil] at isQueued
      split at isQueued
      · obtain rfl := List.mem_singleton.mp isQueued
        exact ⟨rfl, ‹_›⟩
      · cases isQueued
    have distinct : writer ≠ thread := by
      rintro rfl
      rw [marked] at waits
      cases waits.1
    have stays : after.threads writer = state.threads writer :=
      State.threads_of_step stepped distinct
    refine ⟨{thread, writer}, ⟨thread, .inl rfl⟩, ?_⟩
    rintro other (rfl | rfl)
    · exact ⟨scope, blocked, writer, .inr rfl,
        .queued (by rw [stays, waits.1]) (by simpa using isKey) waits.2 isRead⟩
    · refine ⟨asked, by rw [stays, waits.1], thread, .inl rfl, .reading held ?_ waits.2⟩
      rw [same]
      exact Eq.symm (by simpa using isKey)

/-- No set of threads waits for itself, and the request that would complete one
is rejected. -/
structure DeadlockFree (state : State τ) : Prop where
  none : ∀ members, ¬ Deadlocked state members
  rejects : ∀ thread scope members, (state.threads thread).point = .located scope →
    Guarded state (.resume thread) → Guarded (state.mark thread scope) (.resume thread) →
    thread ∈ members → Deadlocked (state.setPoint thread (.blocked scope)) members →
    state.raises thread scope = true

/-- The search misses no deadlock on runs without a re-entrant shared request
that meets a writer and without a search that meets a wait for the empty key. -/
theorem deadlockFree_of_reaches {state : State τ} (reached : Reaches State.step Guarded {} state) :
    DeadlockFree state := by
  have unentangled : Unentangled state :=
    reached.invariant (fun before guarded stepped => before.step guarded stepped) .initial
  exact ⟨unentangled.not_deadlocked, fun _ _ _ => unentangled.raises_of_completes⟩

/-- A discipline that can be computed and implies the guard. -/
def PlainlyGuarded (state : State Nat) : Label Nat → Bool
  | .resume thread =>
      match (state.threads thread).point with
      | .located _ => state.waiting.entries.all fun entry => entry.2 ≠ []
      | .marked scope => scope.isWrite || (state.objects scope.lock).admits false
      | _ => true
  | _ => true

theorem PlainlyGuarded.guarded {state : State Nat} {label : Label Nat}
    (plain : PlainlyGuarded state label = true) : Guarded state label := by
  cases label with
  | resume thread =>
      simp only [PlainlyGuarded, Guarded] at plain ⊢
      split
      · rename_i scope located
        simp only [located, List.all_eq_true] at plain
        intro owner _ waits
        have nonempty := plain _ (AList.mem_lookup_iff.mp waits)
        simp at nonempty
      · rename_i scope marked
        simp only [marked, Bool.or_eq_true] at plain
        exact fun reenters => plain.resolve_left (by simp [reenters.1])
      · trivial
  | enter | leave => trivial

/-- A thread holds a key twice while another one waits to write it. -/
def reentry : List (Label Nat) :=
  .sharedLock 0 ['A'] :: List.replicate 3 (.resume 0) ++
    .sharedLock 0 ['A'] :: List.replicate 3 (.resume 0) ++
    .exclusiveLock 1 ['A'] :: List.replicate 2 (.resume 1)

theorem deadlockFree_of_reaches_reentry :
    ∃ state, runAllowed State.step (PlainlyGuarded · ·) ({} : State Nat) reentry = some state ∧
      (state.threads 1).point = .blocked ⟨['A'], true, 0⟩ ∧ DeadlockFree state := by
  obtain ⟨state, executed⟩ := Option.isSome_iff_exists.mp
    (show (runAllowed State.step (PlainlyGuarded · ·) ({} : State Nat) reentry).isSome from rfl)
  have point : (runAllowed State.step (PlainlyGuarded · ·) ({} : State Nat) reentry).map
      (fun state => (state.threads 1).point) = some (.blocked ⟨['A'], true, 0⟩) := rfl
  rw [executed] at point
  exact ⟨state, executed, Option.some.inj point, deadlockFree_of_reaches
    (Reaches.mono (fun _ _ => PlainlyGuarded.guarded) (Reaches.of_runAllowed executed))⟩

/-- A reader asks for its key again while a writer has queued for it. -/
theorem deadlockFree_fails_on_reentry :
    ¬ ∀ state : State Nat, Reaches State.step (fun _ _ => True) {} state →
      ∀ members, ¬ Deadlocked state members := by
  intro holds
  let labels : List (Label Nat) := .sharedLock 0 ['A'] :: List.replicate 3 (.resume 0) ++
    .exclusiveLock 1 ['A'] :: List.replicate 2 (.resume 1) ++
    .sharedLock 0 ['A'] :: List.replicate 2 (.resume 0)
  obtain ⟨state, executed⟩ := Option.isSome_iff_exists.mp
    (show (run State.step ({} : State Nat) labels).isSome from rfl)
  have threads : (run State.step ({} : State Nat) labels).map
      (fun state => (state.threads 0, state.threads 1)) =
        some (⟨[⟨['A'], false, 0⟩], .blocked ⟨['A'], false, 0⟩⟩,
          ⟨[], .blocked ⟨['A'], true, 0⟩⟩) := rfl
  simp only [executed, Option.map_some, Option.some.injEq, Prod.mk.injEq] at threads
  obtain ⟨reader, writer⟩ := threads
  refine holds state (Reaches.of_free_run executed) {0, 1} ⟨⟨0, .inl rfl⟩, ?_⟩
  rintro thread (rfl | rfl)
  · exact ⟨⟨['A'], false, 0⟩, by rw [reader], 1, .inr rfl,
      .queued (show _ = Point.blocked ⟨['A'], true, 0⟩ by rw [writer]) rfl rfl rfl⟩
  · exact ⟨⟨['A'], true, 0⟩, by rw [writer], 0, .inl rfl,
      .reading (show ⟨['A'], false, 0⟩ ∈ _ by simp [reader, Thread.held]) rfl rfl⟩

end FuseDrive.Concurrency
