import FuseDrive.Concurrency.LockManager
import FuseDrive.Tally

/-!
# Exclusion by key

The reference count of a key is the number of scopes that refer to it, so a
`RWLock` is never dropped while one of them does, and the counters of the
registered `RWLock` are the numbers of its readers, writers and queued writers
among all threads.
-/

namespace FuseDrive.Concurrency

open Transition

/-! ## What a thread contributes to the counters -/

namespace Thread

/-- The exclusive request that the thread has queued. -/
def queued (thread : Thread) : List Scope :=
  match thread.point with
  | .blocked scope => if scope.isWrite then [scope] else []
  | _ => []

def refShare (key : Str) (thread : Thread) : Nat :=
  thread.referring.countP fun scope => scope.key = key

def readShare (key : Str) (thread : Thread) : Nat :=
  thread.held.countP fun scope => scope.key = key && !scope.isWrite

def writeShare (key : Str) (thread : Thread) : Nat :=
  thread.held.countP fun scope => scope.key = key && scope.isWrite

def queuedShare (key : Str) (thread : Thread) : Nat :=
  thread.queued.countP fun scope => scope.key = key

theorem held_sublist_referring (thread : Thread) : thread.held.Sublist thread.referring := by
  obtain ⟨scopes, point⟩ := thread
  cases point <;> simp [held, referring]

theorem queued_sublist_referring (thread : Thread) : thread.queued.Sublist thread.referring := by
  obtain ⟨scopes, point⟩ := thread
  cases point <;> simp only [queued, referring, List.nil_sublist]
  case blocked scope =>
    split
    · simp
    · simp

theorem heldShares_eq (key : Str) (thread : Thread) :
    thread.readShare key + thread.writeShare key =
      thread.held.countP fun scope => scope.key = key := by
  simp only [readShare, writeShare]
  induction thread.held with
  | nil => rfl
  | cons scope scopes induction =>
      simp only [List.countP_cons]
      cases decide (scope.key = key) <;> cases scope.isWrite <;> simp <;> omega

theorem heldShares_le (key : Str) (thread : Thread) :
    thread.readShare key + thread.writeShare key ≤ thread.refShare key := by
  rw [heldShares_eq]
  exact thread.held_sublist_referring.countP_le

theorem queuedShare_le (key : Str) (thread : Thread) :
    thread.queuedShare key ≤ thread.refShare key :=
  thread.queued_sublist_referring.countP_le

end Thread

/-! ## The invariant -/

variable {τ : Type}

/-- At most one writer, and no reader beside it. -/
structure RWLock.Compatible (lock : RWLock) : Prop where
  single : lock.writers ≤ 1
  alone : 0 < lock.writers → lock.readers = 0

/-- A counter of each registered lock is what the threads contribute for its
key. -/
def Counted (state : State τ) (share : Str → Thread → Nat) (counter : RWLock → Nat) : Prop :=
  ∀ key lock, state.locks.lookup key = some lock →
    Tally (fun thread => share key (state.threads thread)) (counter (state.objects lock))

/-- The tables agree with what the threads refer to, hold and wait for. -/
structure Consistent (state : State τ) : Prop where
  referred : ∀ key, Tally (fun thread => (state.threads thread).refShare key)
    ((state.refs.lookup key).getD 0)
  present : ∀ key, state.locks.lookup key = none ↔ state.refs.lookup key = none
  pointing : ∀ thread, ∀ scope ∈ (state.threads thread).referring,
    state.locks.lookup scope.key = some scope.lock
  fresh : ∀ key lock, state.locks.lookup key = some lock → lock < state.created
  injective : ∀ key other lock, state.locks.lookup key = some lock →
    state.locks.lookup other = some lock → key = other
  readers : Counted state Thread.readShare RWLock.readers
  writers : Counted state Thread.writeShare RWLock.writers
  requests : Counted state Thread.queuedShare RWLock.writeRequests
  compatible : ∀ key lock, state.locks.lookup key = some lock →
    (state.objects lock).Compatible

theorem Consistent.initial : Consistent ({} : State τ) where
  referred _ := Tally.zero
  present _ := Iff.rfl
  pointing _ _ member := by cases member
  fresh _ _ found := by cases found
  injective _ _ _ found := by cases found
  readers _ _ found := by cases found
  writers _ _ found := by cases found
  requests _ _ found := by cases found
  compatible _ _ found := by cases found

theorem Consistent.refShare_eq_zero {state : State τ} (consistent : Consistent state) {key : Str}
    (absent : state.locks.lookup key = none) (thread : τ) :
    (state.threads thread).refShare key = 0 := by
  have total := (consistent.referred key).le thread
  rw [(consistent.present key).mp absent] at total
  exact Nat.le_zero.mp total

/-- `_release_ref` never raises `KeyError`. -/
theorem Consistent.releaseRef_isSome {state : State τ} {thread : τ} {scope : Scope}
    (consistent : Consistent state) (refers : scope ∈ (state.threads thread).referring) :
    (state.releaseRef scope.key).isSome := by
  have registered := consistent.pointing thread scope refers
  cases counted : state.refs.lookup scope.key with
  | none =>
      rw [(consistent.present scope.key).mpr counted] at registered
      cases registered
  | some count =>
      simp only [State.releaseRef, counted]
      split <;> rfl

variable [DecidableEq τ]

/-! ## Steps that keep the references -/

/-- One thread continues a call of the scope's key, keeping its references; of
the locks only the scope's own may change. -/
structure Advances (state after : State τ) (thread : τ) (scope : Scope) : Prop where
  locks : after.locks = state.locks
  refs : after.refs = state.refs
  created : after.created = state.created
  others : ∀ other, other ≠ thread → after.threads other = state.threads other
  objects : ∀ lock, lock ≠ scope.lock → after.objects lock = state.objects lock
  refers : scope ∈ (state.threads thread).referring
  referring : (after.threads thread).referring = (state.threads thread).referring

/-- A counter changes by as much as what one thread contributes for one key. -/
structure Balanced (share : Str → Thread → Nat) (key : Str) (before after : Thread)
    (count changed : Nat) : Prop where
  balance : count + share key after = changed + share key before
  otherKeys : ∀ other, other ≠ key → share other after = share other before

theorem Balanced.symm {share : Str → Thread → Nat} {key : Str} {before after : Thread}
    {count changed : Nat} (balanced : Balanced share key before after count changed) :
    Balanced share key after before changed count :=
  ⟨balanced.balance.symm, fun other distinct => (balanced.otherKeys other distinct).symm⟩

theorem Balanced.same {share : Str → Thread → Nat} {key : Str} {before after : Thread}
    {count : Nat} (same : ∀ other, share other after = share other before) :
    Balanced share key before after count count :=
  ⟨by rw [same], fun other _ => same other⟩

section Push

variable {before after : Thread} {scope : Scope} (count : Nat)

theorem Balanced.readers_push (held : after.held = scope :: before.held) :
    Balanced Thread.readShare scope.key before after count
      (count + if scope.isWrite then 0 else 1) where
  balance := by
    simp only [Thread.readShare, held, List.countP_cons, decide_true, Bool.true_and,
      Bool.not_eq_true']
    cases scope.isWrite <;> simp
    omega
  otherKeys other distinct := by
    simp [Thread.readShare, held, distinct.symm]

theorem Balanced.writers_push (held : after.held = scope :: before.held) :
    Balanced Thread.writeShare scope.key before after count
      (count + if scope.isWrite then 1 else 0) where
  balance := by
    simp only [Thread.writeShare, held, List.countP_cons, decide_true, Bool.true_and]
    omega
  otherKeys other distinct := by
    simp [Thread.writeShare, held, distinct.symm]

theorem Balanced.requests_push (none : before.queued = [])
    (queued : after.queued = if scope.isWrite then [scope] else []) :
    Balanced Thread.queuedShare scope.key before after count
      (count + if scope.isWrite then 1 else 0) where
  balance := by
    simp only [Thread.queuedShare, none, queued]
    cases scope.isWrite <;> simp
  otherKeys other distinct := by
    simp only [Thread.queuedShare, none, queued]
    cases scope.isWrite <;> simp [distinct.symm]

end Push

theorem Counted.advances {state after : State τ} {thread : τ} {scope : Scope}
    {share : Str → Thread → Nat} {counter : RWLock → Nat} (consistent : Consistent state)
    (advances : Advances state after thread scope) (counted : Counted state share counter)
    (balanced : Balanced share scope.key (state.threads thread) (after.threads thread)
      (counter (state.objects scope.lock)) (counter (after.objects scope.lock))) :
    Counted after share counter := by
  intro key lock found
  rw [advances.locks] at found
  have own := consistent.pointing thread scope advances.refers
  refine (counted key lock found).change thread ?_ ?_
  · intro other distinct
    rw [advances.others other distinct]
  · by_cases same : key = scope.key
    · subst same
      obtain rfl : lock = scope.lock := Option.some.inj (found.symm.trans own)
      exact balanced.balance
    · have distinct : lock ≠ scope.lock := by
        rintro rfl
        exact same (consistent.injective _ _ _ found own)
      rw [advances.objects lock distinct, balanced.otherKeys key same]

theorem Consistent.advances {state after : State τ} {thread : τ} {scope : Scope}
    (consistent : Consistent state) (advances : Advances state after thread scope)
    (readers : Balanced Thread.readShare scope.key (state.threads thread) (after.threads thread)
      (state.objects scope.lock).readers (after.objects scope.lock).readers)
    (writers : Balanced Thread.writeShare scope.key (state.threads thread) (after.threads thread)
      (state.objects scope.lock).writers (after.objects scope.lock).writers)
    (requests : Balanced Thread.queuedShare scope.key (state.threads thread)
      (after.threads thread) (state.objects scope.lock).writeRequests
      (after.objects scope.lock).writeRequests)
    (compatible : (state.objects scope.lock).Compatible →
      (after.objects scope.lock).Compatible) : Consistent after where
  referred key := by
    rw [advances.refs]
    refine (consistent.referred key).congr fun other => ?_
    by_cases same : other = thread
    · subst same
      simp only [Thread.refShare, advances.referring]
    · rw [advances.others other same]
  present key := by
    rw [advances.locks, advances.refs]
    exact consistent.present key
  pointing other := by
    rw [advances.locks]
    by_cases same : other = thread
    · subst same
      rw [advances.referring]
      exact consistent.pointing other
    · rw [advances.others other same]
      exact consistent.pointing other
  fresh := by
    rw [advances.locks, advances.created]
    exact consistent.fresh
  injective := by
    rw [advances.locks]
    exact consistent.injective
  readers := consistent.readers.advances consistent advances readers
  writers := consistent.writers.advances consistent advances writers
  requests := consistent.requests.advances consistent advances requests
  compatible key lock found := by
    rw [advances.locks] at found
    by_cases same : lock = scope.lock
    · subst same
      exact compatible (consistent.compatible key _ found)
    · rw [advances.objects lock same]
      exact consistent.compatible key lock found

theorem Consistent.idles {state after : State τ} {thread : τ} {value : Thread}
    (consistent : Consistent state) (scope : Scope) (locks : after.locks = state.locks)
    (refs : after.refs = state.refs) (created : after.created = state.created)
    (objects : after.objects = state.objects)
    (threads : after.threads = Function.update state.threads thread value)
    (refers : scope ∈ (state.threads thread).referring)
    (referring : value.referring = (state.threads thread).referring)
    (held : value.held = (state.threads thread).held)
    (queued : value.queued = (state.threads thread).queued) : Consistent after := by
  have isValue : after.threads thread = value := by rw [threads, Function.update_self]
  have advances : Advances state after thread scope := {
    locks, refs, created, refers
    others := fun other distinct => by rw [threads, Function.update_of_ne distinct]
    objects := fun lock _ => by rw [objects]
    referring := by rw [isValue, referring] }
  apply consistent.advances advances
  · rw [objects, isValue]
    exact .same fun key => by rw [Thread.readShare, held, Thread.readShare]
  · rw [objects, isValue]
    exact .same fun key => by rw [Thread.writeShare, held, Thread.writeShare]
  · rw [objects, isValue]
    exact .same fun key => by rw [Thread.queuedShare, queued, Thread.queuedShare]
  · rw [objects]
    exact id

/-- A step that moves one thread to another point of a call and changes the
lock of the call. -/
theorem Consistent.moves {state : State τ} {thread : τ} {scope : Scope} {point : Point}
    {object : RWLock} (consistent : Consistent state)
    (refers : scope ∈ (state.threads thread).referring)
    (referring : { state.threads thread with point }.referring = (state.threads thread).referring)
    (readers : Balanced Thread.readShare scope.key (state.threads thread)
      { state.threads thread with point } (state.objects scope.lock).readers object.readers)
    (writers : Balanced Thread.writeShare scope.key (state.threads thread)
      { state.threads thread with point } (state.objects scope.lock).writers object.writers)
    (requests : Balanced Thread.queuedShare scope.key (state.threads thread)
      { state.threads thread with point } (state.objects scope.lock).writeRequests
      object.writeRequests)
    (compatible : (state.objects scope.lock).Compatible → object.Compatible) :
    Consistent ((state.setObject scope.lock object).setPoint thread point) := by
  have value : ((state.setObject scope.lock object).setPoint thread point).threads thread =
      { state.threads thread with point } := Function.update_self ..
  have lock : ((state.setObject scope.lock object).setPoint thread point).objects scope.lock =
      object := Function.update_self ..
  have advances : Advances state ((state.setObject scope.lock object).setPoint thread point)
      thread scope := {
    locks := rfl
    refs := rfl
    created := rfl
    others := fun other distinct => Function.update_of_ne distinct _ _
    objects := fun other distinct => Function.update_of_ne distinct _ _
    refers
    referring := by rw [value, referring] }
  apply consistent.advances advances
  · rwa [value, lock]
  · rwa [value, lock]
  · rwa [value, lock]
  · rwa [lock]

/-! ## Acquiring and releasing -/

theorem RWLock.Compatible.request {lock : RWLock} (compatible : lock.Compatible)
    (isWrite : Bool) : (lock.request isWrite).Compatible := by
  cases isWrite
  · exact compatible
  · exact ⟨compatible.single, compatible.alone⟩

theorem RWLock.Compatible.admitted {lock : RWLock} {isWrite : Bool}
    (admits : lock.admits isWrite = true) : (lock.admitted isWrite).Compatible := by
  cases isWrite <;>
    simp only [RWLock.admits, RWLock.admitsRead, RWLock.admitsWrite, if_true, Bool.false_eq_true,
      if_false, Bool.and_eq_true, decide_eq_true_eq] at admits
  · exact ⟨by simp [RWLock.admitted, admits.1], by simp [RWLock.admitted, admits.1]⟩
  · exact ⟨by simp [RWLock.admitted, admits.2], by simp [RWLock.admitted, admits.1]⟩

theorem RWLock.Compatible.release {lock : RWLock} (compatible : lock.Compatible)
    (isWrite : Bool) : (lock.release isWrite).Compatible := by
  obtain ⟨single, alone⟩ := compatible
  cases isWrite
  · refine ⟨single, fun positive => ?_⟩
    simp only [RWLock.release, RWLock.releaseRead, Bool.false_eq_true, if_false] at positive ⊢
    rw [alone positive]
  · refine ⟨?_, fun positive => ?_⟩
    · simp only [RWLock.release, RWLock.releaseWrite, if_true]
      omega
    · simp only [RWLock.release, RWLock.releaseWrite, if_true] at positive ⊢
      exact alone (by omega)

section Acquisition

variable {state : State τ} {thread : τ} {scope : Scope} (consistent : Consistent state)

include consistent

theorem Consistent.entered (marked : (state.threads thread).point = .marked scope)
    (admits : ((state.objects scope.lock).request scope.isWrite).admits scope.isWrite = true) :
    Consistent ((state.setObject scope.lock (((state.objects scope.lock).request
      scope.isWrite).admitted scope.isWrite)).setPoint thread (.acquired scope)) := by
  apply consistent.moves
  · simp [Thread.referring, marked]
  · simp [Thread.referring, marked]
  · convert Balanced.readers_push (state.objects scope.lock).readers ?_ using 1
    · simp only [RWLock.request, RWLock.admitted]
      cases scope.isWrite <;> rfl
    · simp [Thread.held, marked]
  · convert Balanced.writers_push (state.objects scope.lock).writers ?_ using 1
    · simp only [RWLock.request, RWLock.admitted]
      cases scope.isWrite <;> rfl
    · simp [Thread.held, marked]
  · convert Balanced.same ?_ using 1
    · simp only [RWLock.request, RWLock.admitted]
      cases scope.isWrite <;> rfl
    · simp [Thread.queuedShare, Thread.queued, marked]
  · exact fun _ => .admitted admits

theorem Consistent.queued (marked : (state.threads thread).point = .marked scope) :
    Consistent ((state.setObject scope.lock ((state.objects scope.lock).request
      scope.isWrite)).setPoint thread (.blocked scope)) := by
  apply consistent.moves
  · simp [Thread.referring, marked]
  · simp [Thread.referring, marked]
  · convert Balanced.same ?_ using 1
    · simp only [RWLock.request]
      cases scope.isWrite <;> rfl
    · simp [Thread.readShare, Thread.held, marked]
  · convert Balanced.same ?_ using 1
    · simp only [RWLock.request]
      cases scope.isWrite <;> rfl
    · simp [Thread.writeShare, Thread.held, marked]
  · convert Balanced.requests_push (state.objects scope.lock).writeRequests ?_ ?_ using 1
    · simp only [RWLock.request]
      cases scope.isWrite <;> rfl
    · simp [Thread.queued, marked]
    · simp [Thread.queued]
  · exact fun compatible => compatible.request scope.isWrite

theorem Consistent.admitted (blocked : (state.threads thread).point = .blocked scope)
    (admits : (state.objects scope.lock).admits scope.isWrite = true) :
    Consistent ((state.setObject scope.lock ((state.objects scope.lock).admitted
      scope.isWrite)).setPoint thread (.acquired scope)) := by
  -- a queued writer is counted, so its request can be taken back
  have own := consistent.pointing thread scope (by simp [Thread.referring, blocked])
  have counted := (consistent.requests scope.key scope.lock own).le thread
  have requested : (state.objects scope.lock).writeRequests =
      ((state.objects scope.lock).admitted scope.isWrite).writeRequests +
        if scope.isWrite then 1 else 0 := by
    simp only [Thread.queuedShare, Thread.queued, blocked] at counted
    simp only [RWLock.admitted]
    cases isWrite : scope.isWrite
    · rfl
    · simp only [isWrite, if_true, List.countP_singleton, decide_true] at counted ⊢
      omega
  apply consistent.moves
  · simp [Thread.referring, blocked]
  · simp [Thread.referring, blocked]
  · convert Balanced.readers_push (state.objects scope.lock).readers ?_ using 1
    · simp only [RWLock.admitted]
      cases scope.isWrite <;> rfl
    · simp [Thread.held, blocked]
  · convert Balanced.writers_push (state.objects scope.lock).writers ?_ using 1
    · simp only [RWLock.admitted]
      cases scope.isWrite <;> rfl
    · simp [Thread.held, blocked]
  · rw [requested]
    apply Balanced.symm
    apply Balanced.requests_push
    · simp [Thread.queued]
    · simp [Thread.queued, blocked]
  · exact fun _ => .admitted admits

theorem Consistent.released (unregistered : (state.threads thread).point = .unregistered scope) :
    Consistent ((state.setObject scope.lock ((state.objects scope.lock).release
      scope.isWrite)).setPoint thread (.released scope)) := by
  -- the thread is counted among the readers or the writers it leaves
  have own := consistent.pointing thread scope (by simp [Thread.referring, unregistered])
  have reading := (consistent.readers scope.key scope.lock own).le thread
  have writing := (consistent.writers scope.key scope.lock own).le thread
  have readers : (state.objects scope.lock).readers =
      ((state.objects scope.lock).release scope.isWrite).readers +
        if scope.isWrite then 0 else 1 := by
    simp only [Thread.readShare, Thread.held, unregistered, List.countP_cons] at reading
    simp only [RWLock.release, RWLock.releaseRead, RWLock.releaseWrite]
    cases isWrite : scope.isWrite
    · simp only [isWrite, decide_true, Bool.not_false, Bool.true_and, if_true] at reading
      simp only [Bool.false_eq_true, if_false]
      omega
    · rfl
  have writers : (state.objects scope.lock).writers =
      ((state.objects scope.lock).release scope.isWrite).writers +
        if scope.isWrite then 1 else 0 := by
    simp only [Thread.writeShare, Thread.held, unregistered, List.countP_cons] at writing
    simp only [RWLock.release, RWLock.releaseRead, RWLock.releaseWrite]
    cases isWrite : scope.isWrite
    · rfl
    · simp only [isWrite, decide_true, Bool.true_and, if_true] at writing
      simp only [if_true]
      omega
  apply consistent.moves
  · simp [Thread.referring, unregistered]
  · simp [Thread.referring, unregistered]
  · rw [readers]
    apply Balanced.symm
    apply Balanced.readers_push
    simp [Thread.held, unregistered]
  · rw [writers]
    apply Balanced.symm
    apply Balanced.writers_push
    simp [Thread.held, unregistered]
  · convert Balanced.same ?_ using 1
    · simp only [RWLock.release, RWLock.releaseRead, RWLock.releaseWrite]
      cases scope.isWrite <;> rfl
    · simp [Thread.queuedShare, Thread.queued, unregistered]
  · exact fun compatible => compatible.release scope.isWrite

end Acquisition

/-! ## Taking and dropping references -/

/-- A step of a thread that contributes as much as before.  A lock that it
registers has no contributions. -/
theorem Counted.kept {state after : State τ} {share : Str → Thread → Nat}
    {counter : RWLock → Nat} {thread : τ} (counted : Counted state share counter)
    (others : ∀ other, other ≠ thread → after.threads other = state.threads other)
    (same : ∀ key, share key (after.threads thread) = share key (state.threads thread))
    (registered : ∀ key lock, after.locks.lookup key = some lock →
      (state.locks.lookup key = some lock ∧ after.objects lock = state.objects lock) ∨
      (counter (after.objects lock) = 0 ∧ ∀ other, share key (state.threads other) = 0)) :
    Counted after share counter := by
  intro key lock found
  have shares : ∀ other, share key (after.threads other) = share key (state.threads other) := by
    intro other
    by_cases isThread : other = thread
    · subst isThread
      exact same key
    · rw [others other isThread]
  rcases registered key lock found with ⟨before, object⟩ | ⟨zero, none⟩
  · rw [object]
    exact (counted key lock before).congr shares
  · rw [zero]
    exact Tally.zero.congr fun other => (shares other).trans (none other)

/-- What `_get_lock` does: the key keeps its lock or gets a new one, and has one
more reference. -/
structure Located (state after : State τ) (thread : τ) (scope : Scope) : Prop where
  locks : ∀ key, after.locks.lookup key =
    if key = scope.key then some scope.lock else state.locks.lookup key
  refs : after.refs = state.refs.insert scope.key ((state.refs.lookup scope.key).getD 0 + 1)
  threads : after.threads = Function.update state.threads thread
    { state.threads thread with point := .located scope }
  found : (state.locks.lookup scope.key = some scope.lock ∧ after.objects = state.objects ∧
      after.created = state.created) ∨
    (state.locks.lookup scope.key = none ∧ scope.lock = state.created ∧
      after.objects = Function.update state.objects state.created {} ∧
      after.created = state.created + 1)

section Reference

variable {state after : State τ} {thread : τ} {scope : Scope} (consistent : Consistent state)

include consistent

theorem Consistent.registered (located : Located state after thread scope) {key : Str} {lock : Nat}
    (found : after.locks.lookup key = some lock) :
    (state.locks.lookup key = some lock ∧ after.objects lock = state.objects lock ∧
      lock < after.created) ∨
    (key = scope.key ∧ lock = state.created ∧ after.objects lock = {} ∧
      after.created = state.created + 1 ∧ state.locks.lookup key = none) := by
  rw [located.locks] at found
  by_cases same : key = scope.key
  · subst same
    rw [if_pos rfl] at found
    cases found
    rcases located.found with ⟨before, objects, created⟩ | ⟨absent, isNew, objects, created⟩
    · exact .inl ⟨before, by rw [objects], by
        rw [created]
        exact consistent.fresh _ _ before⟩
    · exact .inr ⟨rfl, isNew, by rw [objects, isNew, Function.update_self], created, absent⟩
  · rw [if_neg same] at found
    have older := consistent.fresh _ _ found
    rcases located.found with ⟨_, objects, created⟩ | ⟨_, _, objects, created⟩
    · exact .inl ⟨found, by rw [objects], by rwa [created]⟩
    · refine .inl ⟨found, ?_, by omega⟩
      rw [objects, Function.update_of_ne (Nat.ne_of_lt older)]

theorem Consistent.located (running : (state.threads thread).point = .running)
    (located : Located state after thread scope) : Consistent after := by
  have others : ∀ other, other ≠ thread → after.threads other = state.threads other := by
    rw [located.threads]
    exact fun other distinct => Function.update_of_ne distinct _ _
  have value : after.threads thread = { state.threads thread with point := .located scope } := by
    rw [located.threads, Function.update_self]
  have referring : (after.threads thread).referring =
      scope :: (state.threads thread).referring := by
    simp [value, Thread.referring, running]
  have kept : ∀ {share : Str → Thread → Nat} {counter : RWLock → Nat}, Counted state share counter →
      counter {} = 0 → (∀ key value, share key value ≤ value.refShare key) →
      (∀ key, share key (after.threads thread) = share key (state.threads thread)) →
      Counted after share counter := by
    intro share counter counted zero bounded same
    refine counted.kept others same fun key lock found => ?_
    rcases consistent.registered located found with ⟨before, object, _⟩ | ⟨_, _, object, _, absent⟩
    · exact .inl ⟨before, object⟩
    · refine .inr ⟨by rw [object, zero], fun other => ?_⟩
      exact Nat.le_zero.mp ((bounded key _).trans
        (consistent.refShare_eq_zero absent other).le)
  refine ⟨?_, ?_, ?_, ?_, ?_, ?_, ?_, ?_, ?_⟩
  · intro key
    refine (consistent.referred key).change thread ?_ ?_
    · intro party distinct
      rw [others party distinct]
    · simp only [Thread.refShare, referring, located.refs, Dict.lookup_insert_eq, List.countP_cons]
      by_cases same : key = scope.key
      · subst same
        simp
        omega
      · simp [same, Ne.symm same]
  · intro key
    rw [located.locks, located.refs, Dict.lookup_insert_eq]
    by_cases same : key = scope.key
    · simp [same]
    · simp only [if_neg same]
      exact consistent.present key
  · intro party other member
    have known : other = scope ∨ state.locks.lookup other.key = some other.lock := by
      by_cases isThread : party = thread
      · subst isThread
        rw [referring] at member
        exact (List.mem_cons.mp member).imp id (consistent.pointing party other)
      · rw [others party isThread] at member
        exact .inr (consistent.pointing party other member)
    rw [located.locks]
    rcases known with rfl | known
    · rw [if_pos rfl]
    · by_cases same : other.key = scope.key
      · rw [if_pos same]
        rw [same] at known
        rcases located.found with ⟨found, _, _⟩ | ⟨absent, _, _, _⟩
        · exact found.symm.trans known
        · rw [absent] at known
          cases known
      · rwa [if_neg same]
  · intro key lock found
    rcases consistent.registered located found with ⟨_, _, older⟩ | ⟨_, rfl, _, created, _⟩
    · exact older
    · omega
  · intro key other lock found also
    rcases consistent.registered located found with ⟨before, _, _⟩ | ⟨rfl, rfl, _, _, _⟩
    · rcases consistent.registered located also with ⟨earlier, _, _⟩ | ⟨_, rfl, _, _, _⟩
      · exact consistent.injective key other lock before earlier
      · exact absurd (consistent.fresh _ _ before) (Nat.lt_irrefl _)
    · rcases consistent.registered located also with ⟨earlier, _, _⟩ | ⟨rfl, _, _, _, _⟩
      · exact absurd (consistent.fresh _ _ earlier) (Nat.lt_irrefl _)
      · rfl
  · refine kept consistent.readers rfl (fun key value => ?_) ?_
    · have := value.heldShares_le key
      omega
    · simp [value, Thread.readShare, Thread.held, running]
  · refine kept consistent.writers rfl (fun key value => ?_) ?_
    · have := value.heldShares_le key
      omega
    · simp [value, Thread.writeShare, Thread.held, running]
  · refine kept consistent.requests rfl (fun key value => value.queuedShare_le key) ?_
    simp [value, Thread.queuedShare, Thread.queued, running]
  · intro key lock found
    rcases consistent.registered located found with ⟨before, object, _⟩ | ⟨_, _, object, _, _⟩
    · rw [object]
      exact consistent.compatible key lock before
    · rw [object]
      exact ⟨Nat.zero_le 1, fun _ => rfl⟩

theorem Consistent.dropped {released : State τ}
    (last : (state.threads thread).point = .rejected scope ∨
      (state.threads thread).point = .unmarked scope)
    (releases : state.releaseRef scope.key = some released) :
    Consistent (released.setPoint thread .running) := by
  obtain ⟨count, counted, threads, objects, created, _, _, locks, refs⟩ :=
    State.releaseRef_spec releases
  generalize isAfter : released.setPoint thread .running = after
  have value : after.threads thread = { state.threads thread with point := .running } := by
    rw [← isAfter, ← threads]
    exact Function.update_self ..
  have others : ∀ other, other ≠ thread → after.threads other = state.threads other := by
    rw [← isAfter, ← threads]
    exact fun other distinct => Function.update_of_ne distinct _ _
  have referring : (state.threads thread).referring =
      scope :: (after.threads thread).referring := by
    rcases last with rejected | unmarked
    · simp [value, Thread.referring, rejected]
    · simp [value, Thread.referring, unmarked]
  have sameLocks : after.locks = released.locks := by rw [← isAfter]; rfl
  have sameRefs : after.refs = released.refs := by rw [← isAfter]; rfl
  have sameObjects : after.objects = state.objects := by rw [← isAfter, ← objects]; rfl
  have sameCreated : after.created = state.created := by rw [← isAfter, ← created]; rfl
  have referred : ∀ key, Tally (fun other => (after.threads other).refShare key)
      ((after.refs.lookup key).getD 0) := by
    intro key
    refine (consistent.referred key).change thread ?_ ?_
    · intro other distinct
      rw [others other distinct]
    · simp only [Thread.refShare, referring, sameRefs, refs, List.countP_cons]
      by_cases same : key = scope.key
      · subst same
        have own := (consistent.referred scope.key).le thread
        simp only [Thread.refShare, referring, List.countP_cons, decide_true, if_true, counted,
          Option.getD_some] at own ⊢
        split
        · simp only [Option.getD_none]
          omega
        · simp only [Option.getD_some]
          omega
      · simp [same, Ne.symm same]
  have registered : ∀ key lock, after.locks.lookup key = some lock →
      state.locks.lookup key = some lock := by
    intro key lock found
    rw [sameLocks, locks] at found
    split at found
    · cases found
    · exact found
  have kept : ∀ {share : Str → Thread → Nat} {counter : RWLock → Nat}, Counted state share counter →
      (∀ key, share key (after.threads thread) = share key (state.threads thread)) →
      Counted after share counter := by
    intro share counter counted same
    refine counted.kept others same fun key lock found => .inl ⟨registered key lock found, ?_⟩
    rw [sameObjects]
  refine ⟨referred, ?_, ?_, ?_, ?_, ?_, ?_, ?_, ?_⟩
  · intro key
    rw [sameLocks, sameRefs, locks, refs]
    by_cases same : key = scope.key
    · subst same
      have known := mt (consistent.present scope.key).mp (by simp [counted])
      by_cases only : count ≤ 1
      · simp [only]
      · simp [only, known]
    · simp [same, consistent.present]
  · intro party other member
    have before : other ∈ (state.threads party).referring := by
      by_cases isThread : party = thread
      · subst isThread
        rw [referring]
        exact List.mem_cons_of_mem scope member
      · rwa [← others party isThread]
    rw [sameLocks, locks, if_neg]
    · exact consistent.pointing party other before
    · rintro ⟨same, only⟩
      -- the reference was the last one, yet another scope still refers to the key
      have total := (referred other.key).le party
      rw [sameRefs, refs, if_pos same, if_pos only] at total
      have positive : 0 < (after.threads party).refShare other.key :=
        List.countP_pos_iff.mpr ⟨other, member, by simp⟩
      simp only [Option.getD_none] at total
      omega
  · intro key lock found
    rw [sameCreated]
    exact consistent.fresh key lock (registered key lock found)
  · intro key other lock found also
    exact consistent.injective key other lock (registered _ _ found) (registered _ _ also)
  · refine kept consistent.readers ?_
    rcases last with rejected | unmarked
    · simp [value, Thread.readShare, Thread.held, rejected]
    · simp [value, Thread.readShare, Thread.held, unmarked]
  · refine kept consistent.writers ?_
    rcases last with rejected | unmarked
    · simp [value, Thread.writeShare, Thread.held, rejected]
    · simp [value, Thread.writeShare, Thread.held, unmarked]
  · refine kept consistent.requests ?_
    rcases last with rejected | unmarked
    · simp [value, Thread.queuedShare, Thread.queued, rejected]
    · simp [value, Thread.queuedShare, Thread.queued, unmarked]
  · intro key lock found
    rw [sameObjects]
    exact consistent.compatible key lock (registered key lock found)

end Reference

/-! ## Every step -/

theorem Consistent.step {state after : State τ} {label : Label τ} (consistent : Consistent state)
    (stepped : state.step label = some after) : Consistent after := by
  cases State.stepped stepped with
  | joined running found =>
      refine consistent.located running ⟨?_, rfl, rfl, .inl ⟨found, rfl, rfl⟩⟩
      intro other
      split
      · subst_vars
        exact found
      · rfl
  | created running absent =>
      refine consistent.located running ⟨?_, ?_, rfl, .inr ⟨absent, rfl, rfl, rfl⟩⟩
      · exact fun other => Dict.lookup_insert_eq state.locks _ other state.created
      · rw [(consistent.present _).mp absent]
        rfl
  | @left thread scope scopes inside =>
      refine consistent.idles scope rfl rfl rfl rfl rfl ?_ ?_ ?_ ?_ <;>
        simp [inside, Thread.referring, Thread.held, Thread.queued]
  | @rejected thread scope located raised =>
      refine consistent.idles scope rfl rfl rfl rfl rfl ?_ ?_ ?_ ?_ <;>
        simp [located, Thread.referring, Thread.held, Thread.queued]
  | @marked thread scope located passed =>
      refine consistent.idles scope rfl rfl rfl rfl rfl ?_ ?_ ?_ ?_ <;>
        simp [located, Thread.referring, Thread.held, Thread.queued]
  | entered marked admits => exact consistent.entered marked admits
  | queued marked refuses => exact consistent.queued marked
  | admitted blocked admits => exact consistent.admitted blocked admits
  | @registered thread scope acquired =>
      refine consistent.idles scope rfl rfl rfl rfl rfl ?_ ?_ ?_ ?_ <;>
        simp [acquired, Thread.referring, Thread.held, Thread.queued]
  | released unregistered => exact consistent.released unregistered
  | @unmarked thread scope released =>
      refine consistent.idles scope rfl rfl rfl rfl rfl ?_ ?_ ?_ ?_ <;>
        simp [released, Thread.referring, Thread.held, Thread.queued]
  | dropped last releases => exact consistent.dropped last releases

theorem Consistent.of_reaches {allowed : State τ → Label τ → Prop} {state : State τ}
    (reached : Reaches State.step allowed {} state) : Consistent state :=
  reached.invariant (fun consistent _ stepped => consistent.step stepped) .initial

/-! ## Exclusion -/

/-- While a thread is inside an exclusive scope of a key, that scope is the only
one of the key that any thread has entered. -/
def Exclusion (state : State τ) : Prop :=
  ∀ thread, ∀ scope ∈ (state.threads thread).held, scope.isWrite = true →
    ∀ other, (state.threads other).held.countP (fun entered => entered.key = scope.key) =
      if other = thread then 1 else 0

/-- Whoever waits for or is inside a scope refers to the registered lock of its
key. -/
def RefersToRegistered (state : State τ) : Prop :=
  ∀ thread, ∀ scope ∈ (state.threads thread).referring,
    state.locks.lookup scope.key = some scope.lock

theorem Consistent.exclusion {state : State τ} (consistent : Consistent state) :
    Exclusion state := by
  intro thread scope member isWrite other
  have registered := consistent.pointing thread scope
    ((state.threads thread).held_sublist_referring.subset member)
  have writers := consistent.writers scope.key scope.lock registered
  have readers := (consistent.readers scope.key scope.lock registered).le other
  obtain ⟨single, alone⟩ := consistent.compatible scope.key scope.lock registered
  have writing : 0 < (state.threads thread).writeShare scope.key :=
    List.countP_pos_iff.mpr ⟨scope, member, by simp [isWrite]⟩
  have total := writers.le thread
  have noReader := alone (by omega)
  rw [← Thread.heldShares_eq]
  by_cases same : other = thread
  · subst same
    rw [if_pos rfl]
    omega
  · have pair := writers.pair_le same
    rw [if_neg same]
    omega

/-- Locks that are created on demand and dropped when unused give exclusion on
every run. -/
theorem exclusion_of_reaches {state : State τ}
    (reached : Reaches State.step (fun _ _ => True) {} state) :
    Exclusion state ∧ RefersToRegistered state := by
  have consistent := Consistent.of_reaches reached
  exact ⟨consistent.exclusion, consistent.pointing⟩

/-- A thread leaves its exclusive scope while another one waits for it, and a
third asks for the key between the two. -/
def handover : List (Label Nat) :=
  .exclusiveLock 0 ['A'] :: List.replicate 3 (.resume 0) ++
    .exclusiveLock 1 ['A'] :: List.replicate 2 (.resume 1) ++
    .leave 0 :: List.replicate 3 (.resume 0) ++ .sharedLock 2 ['A'] :: [.resume 1]

theorem exclusion_of_reaches_handover :
    ∃ state, run State.step ({} : State Nat) handover = some state ∧
      (state.threads 1).held = [⟨['A'], true, 0⟩] ∧
      (state.threads 2).point = .located ⟨['A'], false, 0⟩ ∧
      Exclusion state ∧ RefersToRegistered state := by
  obtain ⟨state, executed⟩ := Option.isSome_iff_exists.mp
    (show (run State.step ({} : State Nat) handover).isSome from rfl)
  have threads : (run State.step ({} : State Nat) handover).map
      (fun state => ((state.threads 1).held, (state.threads 2).point)) =
        some ([⟨['A'], true, 0⟩], .located ⟨['A'], false, 0⟩) := rfl
  simp only [executed, Option.map_some, Option.some.injEq, Prod.mk.injEq] at threads
  exact ⟨state, executed, threads.1, threads.2,
    exclusion_of_reaches (Reaches.of_free_run executed)⟩

end FuseDrive.Concurrency
