import FuseDrive.Dict
import FuseDrive.Transition

/-!
# Readers/writer locks by key

`LockManager` creates a `RWLock` for a key when the first scope asks for it and
drops it with the last reference.  A scope takes a reference, checks for a
deadlock, marks its thread as waiting, acquires the lock, registers its thread
as an owner, runs its body and undoes all of this in the opposite order.  Every
critical section is one step of the system, so that other threads run between
any two of them.
-/

namespace FuseDrive.Concurrency

/-! ## The lock -/

/-- The counters of a `RWLock`. -/
structure RWLock where
  readers : Nat := 0
  writers : Nat := 0
  writeRequests : Nat := 0
deriving DecidableEq

namespace RWLock

/-- `acquire_read` does not wait. -/
def admitsRead (lock : RWLock) : Bool :=
  lock.writers = 0 && lock.writeRequests = 0

/-- `acquire_write` does not wait. -/
def admitsWrite (lock : RWLock) : Bool :=
  lock.readers = 0 && lock.writers = 0

def admits (lock : RWLock) (isWrite : Bool) : Bool :=
  if isWrite then lock.admitsWrite else lock.admitsRead

/-- What `acquire_write` does before its loop; `acquire_read` does nothing. -/
def request (lock : RWLock) (isWrite : Bool) : RWLock :=
  if isWrite then { lock with writeRequests := lock.writeRequests + 1 } else lock

/-- What `acquire_read` and `acquire_write` do after their loops. -/
def admitted (lock : RWLock) (isWrite : Bool) : RWLock :=
  if isWrite then
    { lock with writeRequests := lock.writeRequests - 1, writers := lock.writers + 1 }
  else { lock with readers := lock.readers + 1 }

def releaseRead (lock : RWLock) : RWLock :=
  { lock with readers := lock.readers - 1 }

def releaseWrite (lock : RWLock) : RWLock :=
  { lock with writers := lock.writers - 1 }

def release (lock : RWLock) (isWrite : Bool) : RWLock :=
  if isWrite then lock.releaseWrite else lock.releaseRead

end RWLock

/-! ## The search for a cycle -/

section Search

variable {τ : Type} [DecidableEq τ]

/-- The loop of `_detect_cycle` over the owners of one lock; `none` is
`DeadlockError`.  The requesting thread is passed over where `isExempt`. -/
def visitOwners (waiting : Dict τ Str) (start : τ) (isExempt : Bool) :
    List (Sigma fun _ : τ => Nat) → List τ → List Str → Option (List τ × List Str)
  | [], visitedThreads, stack => some (visitedThreads, stack)
  | ⟨owner, count⟩ :: owners, visitedThreads, stack =>
      if 0 < count ∧ owner = start then
        if isExempt then visitOwners waiting start isExempt owners visitedThreads stack
        else none
      else if 0 < count ∧ owner ∉ visitedThreads then
        match waiting.lookup owner with
        | some waitingFor =>
            -- an empty key is falsy
            if waitingFor = [] then
              visitOwners waiting start isExempt owners (owner :: visitedThreads) stack
            else
              visitOwners waiting start isExempt owners (owner :: visitedThreads)
                (waitingFor :: stack)
        | none => visitOwners waiting start isExempt owners (owner :: visitedThreads) stack
      else visitOwners waiting start isExempt owners visitedThreads stack

/-- The registered owners of a lock. -/
def ownersOf (allocations : Dict Str (Dict τ Nat)) (key : Str) : Dict τ Nat :=
  (allocations.lookup key).getD ∅

/-- The outer loop of `_detect_cycle`. -/
def search (allocations : Dict Str (Dict τ Nat)) (waiting : Dict τ Str) (start : τ)
    (target : Str) (isWrite : Bool) : Nat → List Str → List τ → List Str → Bool
  | 0, _, _, _ => false
  | _ + 1, [], _, _ => false
  | fuel + 1, current :: stack, visitedThreads, visitedLocks =>
      if current ∈ visitedLocks then
        search allocations waiting start target isWrite fuel stack visitedThreads visitedLocks
      else
        match visitOwners waiting start (current = target && !isWrite)
            (ownersOf allocations current).entries visitedThreads stack with
        | none => true
        | some (visitedThreads, stack) =>
            search allocations waiting start target isWrite fuel stack visitedThreads
              (current :: visitedLocks)

/-- `_detect_cycle`: whether the request raises `DeadlockError`.  Every lock on
the stack but the first is pushed for a different waiting thread. -/
def detectCycle (allocations : Dict Str (Dict τ Nat)) (waiting : Dict τ Str) (start : τ)
    (target : Str) (isWrite : Bool) : Bool :=
  search allocations waiting start target isWrite (waiting.keys.length + 1) [target] [] []

end Search

/-! ## Threads -/

/-- One call of `shared_lock` or `exclusive_lock`, with the `RWLock` that
`_get_lock` returned. -/
structure Scope where
  key : Str
  isWrite : Bool
  lock : Nat
deriving DecidableEq

/-- Where a thread is: outside the manager, in the innermost body it entered,
or between two critical sections of the call it is making. -/
inductive Point where
  | running
  /-- `_get_lock` has returned. -/
  | located (scope : Scope)
  /-- The check raised; the reference is still held. -/
  | rejected (scope : Scope)
  /-- The check passed and the thread is marked as waiting. -/
  | marked (scope : Scope)
  /-- In the loop of `acquire_read` or `acquire_write`. -/
  | blocked (scope : Scope)
  /-- Admitted, not yet an owner and still marked as waiting. -/
  | acquired (scope : Scope)
  /-- The body has ended and the thread is no owner any more. -/
  | unregistered (scope : Scope)
  | released (scope : Scope)
  | unmarked (scope : Scope)
deriving DecidableEq

/-- A thread and the scopes whose bodies it is in, innermost first. -/
structure Thread where
  scopes : List Scope := []
  point : Point := .running
deriving DecidableEq

namespace Thread

/-- The scopes whose lock the thread holds. -/
def held (thread : Thread) : List Scope :=
  match thread.point with
  | .acquired scope | .unregistered scope => scope :: thread.scopes
  | _ => thread.scopes

/-- The scopes whose reference the thread holds. -/
def referring (thread : Thread) : List Scope :=
  match thread.point with
  | .running => thread.scopes
  | .located scope | .rejected scope | .marked scope | .blocked scope | .acquired scope
  | .unregistered scope | .released scope | .unmarked scope => scope :: thread.scopes

/-- The call that has passed the check and has not been admitted. -/
def request (thread : Thread) : Option Scope :=
  match thread.point with
  | .marked scope | .blocked scope => some scope
  | _ => none

end Thread

/-! ## The manager -/

/-- The tables of the manager, the `RWLock` objects created so far and the
threads. -/
structure State (τ : Type) where
  locks : Dict Str Nat := ∅
  refs : Dict Str Nat := ∅
  objects : Nat → RWLock := fun _ => {}
  created : Nat := 0
  allocations : Dict Str (Dict τ Nat) := ∅
  waiting : Dict τ Str := ∅
  threads : τ → Thread := fun _ => {}

/-- A thread begins a scope, ends the innermost body it is in (normally or with
an exception), or continues the call it is making. -/
inductive Label (τ : Type) where
  | enter (thread : τ) (key : Str) (isWrite : Bool)
  | leave (thread : τ)
  | resume (thread : τ)

/-- `shared_lock`. -/
def Label.sharedLock {τ : Type} (thread : τ) (key : Str) : Label τ :=
  .enter thread key false

/-- `exclusive_lock`. -/
def Label.exclusiveLock {τ : Type} (thread : τ) (key : Str) : Label τ :=
  .enter thread key true

namespace State

variable {τ : Type}

/-- `_get_lock`. -/
def getLock (state : State τ) (key : Str) : Nat × State τ :=
  match state.locks.lookup key with
  | some lock =>
      (lock, { state with
        refs := state.refs.insert key ((state.refs.lookup key).getD 0 + 1) })
  | none =>
      (state.created, { state with
        locks := state.locks.insert key state.created
        refs := state.refs.insert key 1
        objects := Function.update state.objects state.created {}
        created := state.created + 1 })

/-- `_release_ref`; without a reference it raises `KeyError`. -/
def releaseRef (state : State τ) (key : Str) : Option (State τ) :=
  match state.refs.lookup key with
  | some count =>
      if count ≤ 1 then
        some { state with locks := state.locks.erase key, refs := state.refs.erase key }
      else some { state with refs := state.refs.insert key (count - 1) }
  | none => none

theorem releaseRef_spec {state after : State τ} {key : Str}
    (releases : state.releaseRef key = some after) :
    ∃ count, state.refs.lookup key = some count ∧ after.threads = state.threads ∧
      after.objects = state.objects ∧ after.created = state.created ∧
      after.allocations = state.allocations ∧ after.waiting = state.waiting ∧
      (∀ other, after.locks.lookup other =
        if other = key ∧ count ≤ 1 then none else state.locks.lookup other) ∧
      (∀ other, after.refs.lookup other =
        if other = key then if count ≤ 1 then none else some (count - 1)
        else state.refs.lookup other) := by
  unfold releaseRef at releases
  cases counted : state.refs.lookup key with
  | none => simp [counted] at releases
  | some count =>
      refine ⟨count, rfl, ?_⟩
      rw [counted] at releases
      by_cases last : count ≤ 1
      · simp only [last, if_true, Option.some.injEq] at releases
        subst releases
        refine ⟨rfl, rfl, rfl, rfl, rfl, ?_, ?_⟩
        · intro other
          simp [Dict.lookup_erase_eq, last]
        · intro other
          simp [Dict.lookup_erase_eq, last]
      · simp only [last, if_false, Option.some.injEq] at releases
        subst releases
        refine ⟨rfl, rfl, rfl, rfl, rfl, ?_, ?_⟩
        · intro other
          simp [last]
        · intro other
          simp [Dict.lookup_insert_eq, last]

def setObject (state : State τ) (lock : Nat) (object : RWLock) : State τ :=
  { state with objects := Function.update state.objects lock object }

variable [DecidableEq τ]

def setThread (state : State τ) (thread : τ) (value : Thread) : State τ :=
  { state with threads := Function.update state.threads thread value }

def setPoint (state : State τ) (thread : τ) (point : Point) : State τ :=
  state.setThread thread { state.threads thread with point }

/-- `self._allocations[key][tid] += 1`. -/
def allocate (state : State τ) (key : Str) (thread : τ) : State τ :=
  let owners := ownersOf state.allocations key
  { state with
    allocations := state.allocations.insert key
      (owners.insert thread ((owners.lookup thread).getD 0 + 1)) }

/-- `self._allocations[key][tid] -= 1`, with the deletion at zero. -/
def deallocate (state : State τ) (key : Str) (thread : τ) : State τ :=
  let owners := ownersOf state.allocations key
  let count := (owners.lookup thread).getD 0 - 1
  { state with
    allocations := state.allocations.insert key
      (if count = 0 then owners.erase thread else owners.insert thread count) }

/-- The critical section of the check, as far as its outcome. -/
def raises (state : State τ) (thread : τ) (scope : Scope) : Bool :=
  detectCycle state.allocations state.waiting thread scope.key scope.isWrite

def mark (state : State τ) (thread : τ) (scope : Scope) : State τ :=
  { state with waiting := state.waiting.insert thread scope.key }.setPoint thread (.marked scope)

/-- The next critical section of the call that the thread is making. -/
def resume (state : State τ) (thread : τ) : Option (State τ) :=
  match (state.threads thread).point with
  | .running => none
  | .located scope =>
      if state.raises thread scope then some (state.setPoint thread (.rejected scope))
      else some (state.mark thread scope)
  | .marked scope =>
      let lock := (state.objects scope.lock).request scope.isWrite
      if lock.admits scope.isWrite then
        some ((state.setObject scope.lock (lock.admitted scope.isWrite)).setPoint thread
          (.acquired scope))
      else some ((state.setObject scope.lock lock).setPoint thread (.blocked scope))
  | .blocked scope =>
      let lock := state.objects scope.lock
      if lock.admits scope.isWrite then
        some ((state.setObject scope.lock (lock.admitted scope.isWrite)).setPoint thread
          (.acquired scope))
      else none
  | .acquired scope =>
      let state := { state with waiting := state.waiting.erase thread }
      some ((state.allocate scope.key thread).setThread thread
        { scopes := scope :: (state.threads thread).scopes, point := .running })
  | .unregistered scope =>
      let lock := state.objects scope.lock
      some ((state.setObject scope.lock (lock.release scope.isWrite)).setPoint thread
        (.released scope))
  | .released scope =>
      some ({ state with waiting := state.waiting.erase thread }.setPoint thread
        (.unmarked scope))
  | .rejected scope | .unmarked scope =>
      (state.releaseRef scope.key).map (·.setPoint thread .running)

/-- One critical section of one thread. -/
def step (state : State τ) : Label τ → Option (State τ)
  | .enter thread key isWrite =>
      match (state.threads thread).point with
      | .running =>
          let (lock, state) := state.getLock key
          some (state.setPoint thread (.located { key, isWrite, lock }))
      | _ => none
  | .leave thread =>
      match state.threads thread with
      | { scopes := scope :: scopes, point := .running } =>
          some ((state.deallocate scope.key thread).setThread thread
            { scopes, point := .unregistered scope })
      | _ => none
  | .resume thread => state.resume thread

/-! ## What a step does -/

/-- The effect of each critical section. -/
inductive Stepped (state : State τ) : Label τ → State τ → Prop where
  | joined {thread key isWrite lock} (running : (state.threads thread).point = .running)
      (found : state.locks.lookup key = some lock) :
      Stepped state (.enter thread key isWrite)
        ({ state with refs := state.refs.insert key ((state.refs.lookup key).getD 0 + 1) }.setPoint
          thread (.located { key, isWrite, lock }))
  | created {thread key isWrite} (running : (state.threads thread).point = .running)
      (absent : state.locks.lookup key = none) :
      Stepped state (.enter thread key isWrite)
        ({ state with
          locks := state.locks.insert key state.created
          refs := state.refs.insert key 1
          objects := Function.update state.objects state.created {}
          created := state.created + 1 }.setPoint
          thread (.located { key, isWrite, lock := state.created }))
  | left {thread scope scopes}
      (inside : state.threads thread = { scopes := scope :: scopes, point := .running }) :
      Stepped state (.leave thread)
        ((state.deallocate scope.key thread).setThread thread
          { scopes, point := .unregistered scope })
  | rejected {thread scope} (located : (state.threads thread).point = .located scope)
      (raised : state.raises thread scope = true) :
      Stepped state (.resume thread) (state.setPoint thread (.rejected scope))
  | marked {thread scope} (located : (state.threads thread).point = .located scope)
      (passed : state.raises thread scope = false) :
      Stepped state (.resume thread) (state.mark thread scope)
  | entered {thread scope} (marked : (state.threads thread).point = .marked scope)
      (admits : ((state.objects scope.lock).request scope.isWrite).admits scope.isWrite = true) :
      Stepped state (.resume thread)
        ((state.setObject scope.lock (((state.objects scope.lock).request scope.isWrite).admitted
          scope.isWrite)).setPoint thread (.acquired scope))
  | queued {thread scope} (marked : (state.threads thread).point = .marked scope)
      (refuses : ((state.objects scope.lock).request scope.isWrite).admits scope.isWrite = false) :
      Stepped state (.resume thread)
        ((state.setObject scope.lock ((state.objects scope.lock).request scope.isWrite)).setPoint
          thread (.blocked scope))
  | admitted {thread scope} (blocked : (state.threads thread).point = .blocked scope)
      (admits : (state.objects scope.lock).admits scope.isWrite = true) :
      Stepped state (.resume thread)
        ((state.setObject scope.lock ((state.objects scope.lock).admitted scope.isWrite)).setPoint
          thread (.acquired scope))
  | registered {thread scope} (acquired : (state.threads thread).point = .acquired scope) :
      Stepped state (.resume thread)
        (({ state with waiting := state.waiting.erase thread }.allocate scope.key thread).setThread
          thread { scopes := scope :: (state.threads thread).scopes, point := .running })
  | released {thread scope} (unregistered : (state.threads thread).point = .unregistered scope) :
      Stepped state (.resume thread)
        ((state.setObject scope.lock ((state.objects scope.lock).release scope.isWrite)).setPoint
          thread (.released scope))
  | unmarked {thread scope} (released : (state.threads thread).point = .released scope) :
      Stepped state (.resume thread)
        ({ state with waiting := state.waiting.erase thread }.setPoint thread (.unmarked scope))
  | dropped {thread scope after}
      (last : (state.threads thread).point = .rejected scope ∨
        (state.threads thread).point = .unmarked scope)
      (releases : state.releaseRef scope.key = some after) :
      Stepped state (.resume thread) (after.setPoint thread .running)

theorem stepped {state after : State τ} {label : Label τ}
    (stepped : state.step label = some after) : Stepped state label after := by
  cases label with
  | enter thread key isWrite =>
      simp only [step] at stepped
      split at stepped
      · rename_i running
        unfold getLock at stepped
        cases found : state.locks.lookup key with
        | none =>
            simp only [found, Option.some.injEq] at stepped
            subst stepped
            exact .created running found
        | some lock =>
            simp only [found, Option.some.injEq] at stepped
            subst stepped
            exact .joined running found
      · cases stepped
  | leave thread =>
      simp only [step] at stepped
      split at stepped
      · rename_i inside
        cases stepped
        exact .left inside
      · cases stepped
  | resume thread =>
      simp only [step, resume] at stepped
      cases point : (state.threads thread).point <;>
        simp only [point, reduceCtorEq, Option.map_eq_some_iff] at stepped
      case located scope =>
        split at stepped
        · cases stepped
          exact .rejected point ‹_›
        · cases stepped
          exact .marked point (Bool.eq_false_iff.mpr ‹_›)
      case marked scope =>
        split at stepped
        · cases stepped
          exact .entered point ‹_›
        · cases stepped
          exact .queued point (Bool.eq_false_iff.mpr ‹_›)
      case blocked scope =>
        split at stepped
        · cases stepped
          exact .admitted point ‹_›
        · cases stepped
      case acquired scope =>
        cases stepped
        exact .registered point
      case unregistered scope =>
        cases stepped
        exact .released point
      case released scope =>
        cases stepped
        exact .unmarked point
      case rejected scope =>
        obtain ⟨after, releases, rfl⟩ := stepped
        exact .dropped (.inl point) releases
      case unmarked scope =>
        obtain ⟨after, releases, rfl⟩ := stepped
        exact .dropped (.inr point) releases

end State

end FuseDrive.Concurrency
