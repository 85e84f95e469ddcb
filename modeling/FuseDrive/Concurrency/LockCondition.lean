import FuseDrive.Concurrency.Exclusion
import FuseDrive.Monitor

/-!
# The condition of a `RWLock`

`acquire_read` and `acquire_write` wait on the condition of the lock, and only
releases notify: `release_read` if the last reader leaves, and `release_write`.
Readers wait for writers and for requests to write, writers for everybody, and a
thread that was notified may have to wait again.

No wake-up is lost, so a thread that waits is admitted as soon as the counters
allow it, which is what the lock manager is built on.

A thread may acquire what it has acquired already.  Then it is inside more than
once.
-/

namespace FuseDrive.Concurrency

open Transition

/-! ## The methods -/

/-- The methods of `RWLock`. -/
inductive Method where
  | acquireRead
  | releaseRead
  | acquireWrite
  | releaseWrite
deriving DecidableEq

/-- How often a thread has acquired the lock and not released it. -/
structure Holds where
  reading : Nat := 0
  writing : Nat := 0
deriving DecidableEq

namespace Method

/-- What comes before the loop. -/
def opening : Method → RWLock → RWLock
  | .acquireRead, lock => lock.request false
  | .acquireWrite, lock => lock.request true
  | .releaseRead, lock | .releaseWrite, lock => lock

/-- The loop ends; the releases have none. -/
def admits : Method → RWLock → Bool
  | .acquireRead, lock => lock.admitsRead
  | .acquireWrite, lock => lock.admitsWrite
  | .releaseRead, _ | .releaseWrite, _ => true

/-- What comes after the loop. -/
def closing : Method → RWLock → RWLock
  | .acquireRead, lock => lock.admitted false
  | .releaseRead, lock => lock.releaseRead
  | .acquireWrite, lock => lock.admitted true
  | .releaseWrite, lock => lock.releaseWrite

/-- `notify_all` is called. -/
def notifies : Method → RWLock → Bool
  | .releaseRead, lock => lock.readers = 0
  | .releaseWrite, _ => true
  | .acquireRead, _ | .acquireWrite, _ => false

def own : Method → Holds → Holds
  | .acquireRead, holds => { holds with reading := holds.reading + 1 }
  | .releaseRead, holds => { holds with reading := holds.reading - 1 }
  | .acquireWrite, holds => { holds with writing := holds.writing + 1 }
  | .releaseWrite, holds => { holds with writing := holds.writing - 1 }

end Method

/-- `RWLock` with its condition. -/
def RWLock.methods : Monitor RWLock Method Holds where
  opening := Method.opening
  admits := Method.admits
  closing := Method.closing
  notifies := Method.notifies
  own := Method.own

/-- A `RWLock` and the threads that use it. -/
abbrev LockState (τ : Type) := Monitor.State RWLock Method Holds τ

variable {τ : Type}

namespace LockState

/-- A lock that nobody has used. -/
def unused : LockState τ := ⟨{}, fun _ => .outside, fun _ => {}⟩

/-- A thread only releases what it has acquired. -/
def Matching (state : LockState τ) : Monitor.Label Method τ → Prop
  | .call thread .releaseRead => 0 < (state.own thread).reading
  | .call thread .releaseWrite => 0 < (state.own thread).writing
  | _ => True

instance (state : LockState τ) :
    (label : Monitor.Label Method τ) → Decidable (Matching state label)
  | .call _ .releaseRead | .call _ .releaseWrite => inferInstanceAs (Decidable (_ < _))
  | .call _ .acquireRead | .call _ .acquireWrite | .run _ => .isTrue trivial

/-! ## What is promised -/

section Promise

variable (state : LockState τ)

/-- The thread is inside as a reader. -/
def Reads (thread : τ) : Prop := 0 < (state.own thread).reading

/-- The thread is inside as a writer. -/
def Writes (thread : τ) : Prop := 0 < (state.own thread).writing

/-- The thread has requested to write and has not been admitted. -/
def Requests (thread : τ) : Prop :=
  state.points thread = .waiting .acquireWrite ∨ state.points thread = .notified .acquireWrite

/-- The thread is inside `acquire_read` or `acquire_write`. -/
def Acquires (thread : τ) : Prop :=
  (state.points thread).call = some .acquireRead ∨ (state.points thread).call = some .acquireWrite

/-- The lock is free, threads are inside `acquire_read` or `acquire_write`, and
all of these wait and have not been notified since. -/
structure Asleep : Prop where
  readers : state.data.readers = 0
  writers : state.data.writers = 0
  acquiring : ∃ thread, Acquires state thread
  waiting : ∀ thread, Acquires state thread → ∃ call, state.points thread = .waiting call

variable [DecidableEq τ]

/-- A writer is inside alone, the counters are the numbers of those inside and
of those requesting, no reader is let in while somebody requests to write, and
nobody is left asleep. -/
structure Safe : Prop where
  alone : ∀ thread, Writes state thread → ∀ other,
    (Writes state other → other = thread) ∧ ¬ Reads state other
  /-- Who is inside several times counts for each of them. -/
  readers : Tally (fun thread => (state.own thread).reading) state.data.readers
  readersOnce : (∀ thread, (state.own thread).reading ≤ 1) →
    {thread | Reads state thread}.encard = state.data.readers
  writers : {thread | Writes state thread}.encard = state.data.writers
  writersOnce : ∀ thread, (state.own thread).writing ≤ 1
  writeRequests : {thread | Requests state thread}.encard = state.data.writeRequests
  admitted : ∀ label next thread, RWLock.methods.step state label = some next →
    (state.own thread).reading < (next.own thread).reading →
    state.data.writeRequests = 0 ∧ ∀ other, ¬ Requests state other
  awake : ¬ Asleep state

end Promise

/-! ## The counters -/

section Counting

variable {state : LockState τ}

/-- What a thread contributes to `_write_requests`. -/
def requesting : Monitor.Point Method → Nat
  | .waiting .acquireWrite | .notified .acquireWrite => 1
  | _ => 0

theorem requesting_wake (point : Monitor.Point Method) :
    requesting point.wake = requesting point := by
  cases point with
  | waiting call => cases call <;> rfl
  | outside | calling | notified => rfl

theorem requesting_le (point : Monitor.Point Method) : requesting point ≤ 1 := by
  unfold requesting
  split <;> omega

theorem requests_iff {thread : τ} : Requests state thread ↔ 0 < requesting (state.points thread) := by
  unfold Requests
  cases state.points thread with
  | waiting call | notified call => cases call <;> simp [requesting]
  | outside | calling => simp [requesting]

theorem closing_readers {call : Method} {lock : RWLock} {holds : Holds}
    (counted : holds.reading ≤ lock.readers) (inside : call = .releaseRead → 0 < holds.reading) :
    lock.readers + (call.own holds).reading = (call.closing lock).readers + holds.reading := by
  cases call with
  | acquireRead =>
      change lock.readers + (holds.reading + 1) = lock.readers + 1 + holds.reading
      omega
  | releaseRead =>
      have positive := inside rfl
      change lock.readers + (holds.reading - 1) = lock.readers - 1 + holds.reading
      omega
  | acquireWrite | releaseWrite => rfl

theorem closing_writers {call : Method} {lock : RWLock} {holds : Holds}
    (counted : holds.writing ≤ lock.writers) (inside : call = .releaseWrite → 0 < holds.writing) :
    lock.writers + (call.own holds).writing = (call.closing lock).writers + holds.writing := by
  cases call with
  | acquireWrite =>
      change lock.writers + (holds.writing + 1) = lock.writers + 1 + holds.writing
      omega
  | releaseWrite =>
      have positive := inside rfl
      change lock.writers + (holds.writing - 1) = lock.writers - 1 + holds.writing
      omega
  | acquireRead | releaseRead => rfl

theorem closing_requests {call : Method} {lock : RWLock}
    (counted : requesting (.notified call) ≤ lock.writeRequests) :
    lock.writeRequests = (call.closing lock).writeRequests + requesting (.notified call) := by
  cases call with
  | acquireWrite => exact (Nat.sub_add_cancel counted).symm
  | acquireRead | releaseRead | releaseWrite => rfl

theorem closing_compatible {call : Method} {lock : RWLock} (compatible : lock.Compatible)
    (admits : call.admits lock = true) : (call.closing lock).Compatible := by
  cases call with
  | acquireRead =>
      have isAdmitted : lock.admits false = true := admits
      exact RWLock.Compatible.admitted isAdmitted
  | releaseRead => exact compatible.release false
  | acquireWrite =>
      have isAdmitted : lock.admits true = true := admits
      exact RWLock.Compatible.admitted isAdmitted
  | releaseWrite => exact compatible.release true

/-- The counters are what the threads contribute, and who releases is inside. -/
structure Counting (state : LockState τ) : Prop where
  readers : Tally (fun thread => (state.own thread).reading) state.data.readers
  writers : Tally (fun thread => (state.own thread).writing) state.data.writers
  requests : Tally (fun thread => requesting (state.points thread)) state.data.writeRequests
  compatible : state.data.Compatible
  releasesRead : ∀ thread, (state.points thread).call = some .releaseRead →
    0 < (state.own thread).reading
  releasesWrite : ∀ thread, (state.points thread).call = some .releaseWrite →
    0 < (state.own thread).writing

theorem Counting.unused : Counting (unused : LockState τ) where
  readers := Tally.zero
  writers := Tally.zero
  requests := Tally.zero
  compatible := ⟨Nat.zero_le 1, nofun⟩
  releasesRead _ isCall := by cases isCall
  releasesWrite _ isCall := by cases isCall

variable [DecidableEq τ]

theorem Counting.change (counting : Counting state) {next : LockState τ} (thread : τ)
    (own : ∀ other, other ≠ thread → next.own other = state.own other)
    (points : ∀ other, other ≠ thread → next.points other = state.points other ∨
      next.points other = (state.points other).wake)
    (readers : state.data.readers + (next.own thread).reading =
      next.data.readers + (state.own thread).reading)
    (writers : state.data.writers + (next.own thread).writing =
      next.data.writers + (state.own thread).writing)
    (requests : state.data.writeRequests + requesting (next.points thread) =
      next.data.writeRequests + requesting (state.points thread))
    (compatible : next.data.Compatible)
    (releasesRead : (next.points thread).call = some .releaseRead →
      0 < (next.own thread).reading)
    (releasesWrite : (next.points thread).call = some .releaseWrite →
      0 < (next.own thread).writing) : Counting next := by
  have sameCall : ∀ other, other ≠ thread →
      (next.points other).call = (state.points other).call := by
    intro other distinct
    rcases points other distinct with same | woken
    · rw [same]
    · rw [woken, Monitor.Point.call_wake]
  have sameShare : ∀ other, other ≠ thread →
      requesting (next.points other) = requesting (state.points other) := by
    intro other distinct
    rcases points other distinct with same | woken
    · rw [same]
    · rw [woken, requesting_wake]
  constructor
  · exact counting.readers.change thread (fun other distinct => by rw [own other distinct]) readers
  · exact counting.writers.change thread (fun other distinct => by rw [own other distinct]) writers
  · exact counting.requests.change thread sameShare requests
  · exact compatible
  · intro other isCall
    by_cases isThread : other = thread
    · subst isThread
      exact releasesRead isCall
    · rw [sameCall other isThread] at isCall
      rw [own other isThread]
      exact counting.releasesRead other isCall
  · intro other isCall
    by_cases isThread : other = thread
    · subst isThread
      exact releasesWrite isCall
    · rw [sameCall other isThread] at isCall
      rw [own other isThread]
      exact counting.releasesWrite other isCall

theorem Counting.setPoint (counting : Counting state) {thread : τ} {point : Monitor.Point Method}
    (same : requesting point = requesting (state.points thread))
    (releasesRead : point.call = some .releaseRead → 0 < (state.own thread).reading)
    (releasesWrite : point.call = some .releaseWrite → 0 < (state.own thread).writing) :
    Counting (state.setPoint thread point) := by
  have isPoint : (state.setPoint thread point).points thread = point := Function.update_self ..
  apply counting.change thread
  · exact fun _ _ => rfl
  · exact fun other distinct => .inl (Function.update_of_ne distinct ..)
  · rfl
  · rfl
  · rw [isPoint, same]
    rfl
  · exact counting.compatible
  · rwa [isPoint]
  · rwa [isPoint]

theorem Counting.enter (counting : Counting state) {thread : τ} {call : Method}
    (calling : state.points thread = .calling call) :
    Counting (RWLock.methods.enter state thread call) := by
  have isPoint : (RWLock.methods.enter state thread call).points thread = .notified call :=
    Function.update_self ..
  have reading := counting.releasesRead thread
  have writing := counting.releasesWrite thread
  rw [calling] at reading writing
  apply counting.change thread
  · exact fun _ _ => rfl
  · exact fun other distinct => .inl (Function.update_of_ne distinct ..)
  · cases call <;> rfl
  · cases call <;> rfl
  · rw [isPoint, calling]
    cases call <;> rfl
  · change (call.opening state.data).Compatible
    cases call with
    | acquireRead => exact counting.compatible
    | acquireWrite => exact counting.compatible.request true
    | releaseRead | releaseWrite => exact counting.compatible
  · rwa [isPoint]
  · rwa [isPoint]

theorem Counting.pass (counting : Counting state) {thread : τ} {call : Method}
    (notified : state.points thread = .notified call) (admits : call.admits state.data = true) :
    Counting (RWLock.methods.pass state thread call) := by
  have isPoint : (RWLock.methods.pass state thread call).points thread = .outside := if_pos rfl
  have isOwn : (RWLock.methods.pass state thread call).own thread =
      call.own (state.own thread) := Function.update_self ..
  have requested := counting.requests.le thread
  have releasesRead := counting.releasesRead thread
  have releasesWrite := counting.releasesWrite thread
  rw [notified] at requested releasesRead releasesWrite
  apply counting.change thread
  · exact fun other distinct => Function.update_of_ne distinct ..
  · intro other distinct
    change (if other = thread then _ else _) = _ ∨ (if other = thread then _ else _) = _
    rw [if_neg distinct]
    split
    · exact .inr rfl
    · exact .inl rfl
  · rw [isOwn]
    exact closing_readers (counting.readers.le thread) fun isCall => releasesRead (isCall ▸ rfl)
  · rw [isOwn]
    exact closing_writers (counting.writers.le thread) fun isCall => releasesWrite (isCall ▸ rfl)
  · rw [isPoint, notified]
    exact closing_requests requested
  · exact closing_compatible counting.compatible admits
  · rw [isPoint]
    exact nofun
  · rw [isPoint]
    exact nofun

theorem Counting.preserves :
    RWLock.methods.Preserves Matching (Counting : LockState τ → Prop) where
  call := by
    intro state thread call counting outside matching
    refine counting.setPoint ?_ ?_ ?_
    · rw [outside]
      rfl
    · rintro ⟨⟩
      exact matching
    · rintro ⟨⟩
      exact matching
  enter counting calling := counting.enter calling
  pass counting notified admits := counting.pass notified admits
  wait := by
    intro state thread call counting notified _
    refine counting.setPoint ?_ ?_ ?_
    · rw [notified]
      cases call <;> rfl
    · rintro ⟨⟩
      exact counting.releasesRead thread (notified ▸ rfl)
    · rintro ⟨⟩
      exact counting.releasesWrite thread (notified ▸ rfl)

end Counting

/-! ## Wake-ups -/

/-- A request to write and a new reader let nobody in, nor does a new writer,
and nor does a reader that leaves others behind.  All else notifies. -/
theorem announces : RWLock.methods.Announces where
  opening := by
    intro call other lock refuses
    change other.admits lock = false at refuses
    change other.admits (call.opening lock) = false
    cases other with
    | acquireRead =>
        cases call with
        | acquireWrite => simp [Method.admits, Method.opening, RWLock.request, RWLock.admitsRead]
        | acquireRead | releaseRead | releaseWrite => exact refuses
    | acquireWrite => cases call <;> exact refuses
    | releaseRead | releaseWrite => exact refuses
  closing := by
    intro call other lock admits silent refuses
    change call.admits lock = true at admits
    change call.notifies (call.closing lock) = false at silent
    change other.admits lock = false at refuses
    change other.admits (call.closing lock) = false
    cases call with
    | acquireRead =>
        cases other with
        | acquireRead => exact refuses
        | acquireWrite =>
            simp [Method.admits, Method.closing, RWLock.admitted, RWLock.admitsWrite]
        | releaseRead | releaseWrite => exact refuses
    | releaseRead =>
        have left : lock.readers - 1 ≠ 0 := of_decide_eq_false silent
        cases other with
        | acquireRead => exact refuses
        | acquireWrite =>
            simp [Method.admits, Method.closing, RWLock.releaseRead, RWLock.admitsWrite, left]
        | releaseRead | releaseWrite => exact refuses
    | acquireWrite =>
        cases other with
        | acquireRead | acquireWrite =>
            simp [Method.admits, Method.closing, RWLock.admitted, RWLock.admitsRead,
              RWLock.admitsWrite]
        | releaseRead | releaseWrite => exact refuses
    | releaseWrite => cases silent

section Runs

variable {state : LockState τ}

theorem Counting.not_asleep (counting : Counting state) (awake : RWLock.methods.Awake state) :
    ¬ Asleep state := by
  rintro ⟨noReaders, noWriters, ⟨thread, acquires⟩, waiting⟩
  -- a writer that waits would be admitted
  have noRequest : ∀ other, ¬ Requests state other := by
    intro other requests
    have isCall : (state.points other).call = some .acquireWrite := by
      rcases requests with waits | notified
      · rw [waits]
        rfl
      · rw [notified]
        rfl
    obtain ⟨call, waits⟩ := waiting other (.inr isCall)
    rw [waits] at isCall
    cases isCall
    have refuses : state.data.admitsWrite = false := awake other _ waits
    simp [RWLock.admitsWrite, noReaders, noWriters] at refuses
  -- so a reader that waits would be too
  obtain ⟨call, waits⟩ := waiting thread acquires
  unfold Acquires at acquires
  rw [waits] at acquires
  rcases acquires with ⟨⟨⟩⟩ | ⟨⟨⟩⟩
  · have refuses : state.data.admitsRead = false := awake thread _ waits
    have requested : 0 < state.data.writeRequests := by
      simp [RWLock.admitsRead, noWriters] at refuses
      omega
    obtain ⟨writer, positive⟩ := counting.requests.exists_pos requested
    exact noRequest writer (requests_iff.mpr positive)
  · exact noRequest thread (.inl waits)

variable [DecidableEq τ]

/-- A reader that is let in finds no request. -/
theorem noRequest_of_letIn {label : Monitor.Label Method τ}
    {next : LockState τ} {thread : τ} (taken : RWLock.methods.step state label = some next)
    (letIn : (state.own thread).reading < (next.own thread).reading) :
    state.data.writeRequests = 0 := by
  cases Monitor.stepped_of_step taken with
  | called outside => exact absurd letIn (Nat.lt_irrefl _)
  | waited enters refuses =>
      rw [← enters.own] at letIn
      exact absurd letIn (Nat.lt_irrefl _)
  | @passed runner call entered enters admits =>
      rw [← enters.own] at letIn
      by_cases isRunner : thread = runner
      · subst isRunner
        rw [show (RWLock.methods.pass entered thread call).own thread =
          call.own (entered.own thread) from Function.update_self ..] at letIn
        cases call with
        | acquireRead =>
            have sameData : entered.data = state.data := by
              cases enters <;> rfl
            have isAdmitted : entered.data.admitsRead = true := admits
            rw [sameData] at isAdmitted
            simp only [RWLock.admitsRead, Bool.and_eq_true, decide_eq_true_eq] at isAdmitted
            exact isAdmitted.2
        | releaseRead | acquireWrite | releaseWrite =>
            simp only [Method.own] at letIn
            omega
      · rw [show (RWLock.methods.pass entered runner call).own thread = entered.own thread from
          Function.update_of_ne isRunner ..] at letIn
        exact absurd letIn (Nat.lt_irrefl _)

theorem Counting.safe (counting : Counting state) (awake : RWLock.methods.Awake state) :
    Safe state := by
  obtain ⟨single, isAlone⟩ := counting.compatible
  have writersOnce : ∀ thread, (state.own thread).writing ≤ 1 :=
    fun thread => (counting.writers.le thread).trans single
  constructor
  · intro thread writes other
    have writing : 0 < state.data.writers := Nat.lt_of_lt_of_le writes (counting.writers.le thread)
    constructor
    · intro alsoWrites
      by_contra distinct
      have both := counting.writers.pair_le distinct
      unfold Writes at writes alsoWrites
      omega
    · intro reads
      have reading := counting.readers.le other
      have none := isAlone writing
      unfold Reads at reads
      omega
  · exact counting.readers
  · exact counting.readers.encard
  · exact counting.writers.encard writersOnce
  · exact writersOnce
  · have requests := counting.requests.encard fun thread => requesting_le (state.points thread)
    simpa only [← requests_iff] using requests
  · intro label next thread taken letIn
    have none := noRequest_of_letIn taken letIn
    refine ⟨none, fun other requests => ?_⟩
    have counted := counting.requests.le other
    have positive := requests_iff.mp requests
    omega
  · exact counting.not_asleep awake

theorem awake_of_reaches
    (reached : Reaches RWLock.methods.step Matching (unused : LockState τ) state) :
    RWLock.methods.Awake state := by
  refine announces.preserves.reaches reached ?_
  intro thread call waiting
  cases waiting

/-- However many threads acquire and release a lock, and in whatever order, it is
safe and no wake-up is lost. -/
theorem safe_of_reaches
    (reached : Reaches RWLock.methods.step Matching (unused : LockState τ) state) :
    Safe state := by
  have counting := Counting.preserves.reaches reached Counting.unused
  exact counting.safe (awake_of_reaches reached)

end Runs

/-- Thread 0 reads, thread 1 requests to write and thread 2 to read.  Thread 0
leaves, and thread 2 looks before thread 1 does. -/
def wokenInVain : List (Monitor.Label Method Nat) :=
  [.call 0 .acquireRead, .run 0, .call 1 .acquireWrite, .run 1, .call 2 .acquireRead, .run 2,
    .call 0 .releaseRead, .run 0, .run 2]

theorem safe_of_reaches_wokenInVain :
    ∃ state, runAllowed RWLock.methods.step Matching unused wokenInVain = some state ∧
      state.points 1 = .notified .acquireWrite ∧ state.points 2 = .waiting .acquireRead ∧
      Safe state := by
  have executes : (runAllowed RWLock.methods.step Matching unused wokenInVain).isSome := by
    decide
  obtain ⟨state, executed⟩ := Option.isSome_iff_exists.mp executes
  have points : (state.points 1, state.points 2) =
      (.notified .acquireWrite, .waiting .acquireRead) :=
    look_of_run executed (fun state => (state.points 1, state.points 2)) (by decide)
  exact ⟨state, executed, congrArg Prod.fst points, congrArg Prod.snd points,
    safe_of_reaches (Reaches.of_runAllowed executed)⟩

end LockState

end FuseDrive.Concurrency
