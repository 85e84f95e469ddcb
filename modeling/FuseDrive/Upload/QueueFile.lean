import FuseDrive.Upload.Manager

/-!
# The queue file

Every critical section of the manager that changes the queue ends in
`persist_upload_queue_to_disk`, which writes `queue.json.tmp`, renames it over
`queue.json` and sets the metric.  The manager model takes such a section in
one step.  Here it is taken apart: one step for each change of the dictionary,
for each piece of text that reaches the temporary file, for the rename and for
the metric, with a crash possible between any two of them.

What `json.dump` and `json.load` do is a parameter; all that is used of it is
that the one reads back what the other wrote.
-/

namespace FuseDrive.Upload

open Transition

/-- An entry of the queue as `queue.json` has it. -/
structure QueueEntry where
  path : Str
  retries : Nat
  status : JobStatus
  jobType : JobType
  parentId : Option Str
  name : Option Str
deriving DecidableEq

abbrev Queue := Dict Str QueueEntry

/-- `json.dump` and `json.load` on queues; `none` stands for an exception. -/
structure QueueFormat where
  dump : Queue → Str
  load : Str → Option Queue

def QueueFormat.RoundTrips (format : QueueFormat) : Prop :=
  ∀ queue, format.load (format.dump queue) = some queue

namespace Queue

def activeEntries (queue : Queue) : Nat :=
  (queue.entries.filter fun entry => entry.2.status ≠ .failed).length

end Queue

/-! ## The critical sections -/

/-- What a critical section does to the queue.  The entry that
`enqueue_file_for_upload` builds may be any. -/
inductive Operation where
  | enqueue (fileId : Str) (entry : QueueEntry)
  /-- `_remove_job`, after a success or for a missing file. -/
  | remove (fileId : Str)
  | fail (fileId : Str) (isFatal : Bool)

/-- The entry after `job["retries"] += 1`. -/
def QueueEntry.counted (entry : QueueEntry) : QueueEntry :=
  { entry with retries := entry.retries + 1 }

/-- The test of `_handle_failure`, after counting. -/
def QueueEntry.exhausted (maxRetries : Nat) (entry : QueueEntry) (isFatal : Bool) : Prop :=
  maxRetries < entry.retries ∨ isFatal

instance (maxRetries : Nat) (entry : QueueEntry) (isFatal : Bool) :
    Decidable (entry.exhausted maxRetries isFatal) :=
  inferInstanceAs (Decidable (_ ∨ _))

def QueueEntry.marked (maxRetries : Nat) (entry : QueueEntry) (isFatal : Bool) : QueueEntry :=
  if entry.exhausted maxRetries isFatal then { entry with status := .failed } else entry

/-- The queue after the whole operation. -/
def Operation.apply (maxRetries : Nat) : Operation → Queue → Queue
  | .enqueue fileId entry, queue => queue.insert fileId entry
  | .remove fileId, queue => queue.erase fileId
  | .fail fileId isFatal, queue =>
      match queue.lookup fileId with
      | none => queue
      | some entry => queue.insert fileId (entry.counted.marked maxRetries isFatal)

/-- Program points of a critical section. -/
inductive QueuePoint where
  /-- Lock taken, about to change the dictionary. -/
  | change
  /-- The failure is counted, about to set the status. -/
  | mark (fileId : Str) (isFatal : Bool)
  /-- About to open `queue.json.tmp`. -/
  | create
  /-- Inside `json.dump`. -/
  | write
  /-- File closed, about to rename. -/
  | rename
  | measure
  /-- About to release the lock. -/
  | release

/-- The section the holder of the lock is in. -/
inductive Section where
  | free
  /-- `load_upload_queue_from_disk`, before reading the file. -/
  | load
  /-- `load_upload_queue_from_disk`, before setting the metric. -/
  | loaded
  /-- `before` is the queue the section found; the program does not keep it. -/
  | working (operation : Operation) (before : Queue) (point : QueuePoint)

/-- The queue of the process, the two files and the metric. -/
structure QueueState where
  queueFile : Option Str
  tempFile : Option Str
  queue : Queue
  uploadQueueSize : Nat
  running : Bool
  holder : Section

namespace QueueState

/-- What `load_upload_queue_from_disk` makes of `queue.json`. -/
def saved (format : QueueFormat) (state : QueueState) : Queue :=
  match state.queueFile with
  | some text => (format.load text).getD ∅
  | none => ∅

/-- A process that has not been started, over whatever files there are. -/
def off (queueFile tempFile : Option Str) : QueueState where
  queueFile := queueFile
  tempFile := tempFile
  queue := ∅
  uploadQueueSize := 0
  running := false
  holder := .free

end QueueState

/-- `write text` is the file buffer reaching the disk, in pieces of any size. -/
inductive QueueLabel where
  | start
  | take (operation : Operation)
  | write (written : Str)
  /-- Moving the local file raises, and the lock is released. -/
  | abandon
  | advance
  | crash

/-- The next statement of the section that holds the lock. -/
def advance (format : QueueFormat) (maxRetries : Nat) (state : QueueState) :
    Option QueueState :=
  match state.holder with
  | .free => none
  | .load => some { state with queue := state.saved format, holder := .loaded }
  | .loaded =>
      some { state with uploadQueueSize := state.queue.activeEntries, holder := .free }
  | .working operation before point =>
      match point, operation with
      | .change, .enqueue fileId entry =>
          some { state with
            queue := state.queue.insert fileId entry
            holder := .working operation before .create }
      | .change, .remove fileId =>
          some { state with
            queue := state.queue.erase fileId
            holder := .working operation before .create }
      | .change, .fail fileId isFatal =>
          match state.queue.lookup fileId with
          | none => some { state with holder := .working operation before .release }
          | some entry =>
              some { state with
                queue := state.queue.insert fileId entry.counted
                holder := .working operation before (.mark fileId isFatal) }
      | .mark fileId isFatal, _ =>
          match state.queue.lookup fileId with
          | none => none
          | some entry =>
              some { state with
                queue := state.queue.insert fileId (entry.marked maxRetries isFatal)
                holder := .working operation before .create }
      | .create, _ =>
          some { state with tempFile := some [], holder := .working operation before .write }
      | .write, _ =>
          some { state with
            tempFile := some (format.dump state.queue)
            holder := .working operation before .rename }
      | .rename, _ =>
          some { state with
            queueFile := state.tempFile
            tempFile := none
            holder := .working operation before .measure }
      | .measure, _ =>
          some { state with
            uploadQueueSize := state.queue.activeEntries
            holder := .working operation before .release }
      | .release, _ => some { state with holder := .free }

def queueStep (format : QueueFormat) (maxRetries : Nat) (state : QueueState) :
    QueueLabel → Option QueueState
  | .start =>
      if state.running then none
      else some { state with queue := ∅, running := true, holder := .load }
  | .take operation =>
      match state.running, state.holder with
      | true, .free => some { state with holder := .working operation state.queue .change }
      | _, _ => none
  | .write written =>
      match state.holder with
      | .working _ _ .write =>
          if written <+: format.dump state.queue then
            some { state with tempFile := some written }
          else none
      | _ => none
  | .abandon =>
      match state.holder with
      | .working (.enqueue _ _) _ .change => some { state with holder := .free }
      | _ => none
  | .advance => advance format maxRetries state
  | .crash =>
      some { state with queue := ∅, uploadQueueSize := 0, running := false, holder := .free }

/-! ## The refinement -/

/-- The saved queue refines the live one. -/
structure Refines (format : QueueFormat) (maxRetries : Nat) (state : QueueState) : Prop where
  /-- Where the lock is free, file, memory and metric agree. -/
  free : state.running = true → state.holder = .free →
    state.saved format = state.queue ∧ state.uploadQueueSize = state.queue.activeEntries
  /-- A crash inside a section leaves the queue from before or from after it. -/
  crashed : ∀ operation before point after,
    state.holder = .working operation before point →
    queueStep format maxRetries state .crash = some after →
    after.saved format = before ∨ after.saved format = operation.apply maxRetries before

/-- What holds at each point of a section. -/
def QueuePoint.Ok (format : QueueFormat) (maxRetries : Nat) (state : QueueState)
    (operation : Operation) (before : Queue) : QueuePoint → Prop
  | .change =>
      state.queue = before ∧ state.saved format = before ∧
        state.uploadQueueSize = before.activeEntries
  | .mark fileId isFatal =>
      operation = .fail fileId isFatal ∧ state.saved format = before ∧
        ∃ entry, before.lookup fileId = some entry ∧
          state.queue = before.insert fileId entry.counted
  | .create | .write =>
      state.queue = operation.apply maxRetries before ∧ state.saved format = before
  | .rename =>
      state.queue = operation.apply maxRetries before ∧ state.saved format = before ∧
        state.tempFile = some (format.dump state.queue)
  | .measure =>
      state.queue = operation.apply maxRetries before ∧ state.saved format = state.queue
  | .release =>
      state.queue = operation.apply maxRetries before ∧
        state.saved format = state.queue ∧
        state.uploadQueueSize = state.queue.activeEntries

/-- What holds of the process, by the section that holds the lock. -/
def InSection (format : QueueFormat) (maxRetries : Nat) (state : QueueState) : Prop :=
  match state.holder with
  | .free => state.running = true →
      state.saved format = state.queue ∧ state.uploadQueueSize = state.queue.activeEntries
  | .load => True
  | .loaded => state.saved format = state.queue
  | .working operation before point => point.Ok format maxRetries state operation before

theorem InSection.refines {format : QueueFormat} {maxRetries : Nat} {state : QueueState}
    (ok : InSection format maxRetries state) : Refines format maxRetries state := by
  constructor
  · intro running free
    simp only [InSection, free] at ok
    exact ok running
  · intro operation before point after working crash
    simp only [queueStep, Option.some.injEq] at crash
    subst crash
    show state.saved format = before ∨ state.saved format = operation.apply maxRetries before
    simp only [InSection, working] at ok
    cases point with
    | change => exact Or.inl ok.2.1
    | mark fileId isFatal => exact Or.inl ok.2.1
    | create | write => exact Or.inl ok.2
    | rename => exact Or.inl ok.2.1
    | measure => exact Or.inr (ok.2.trans ok.1)
    | release => exact Or.inr (ok.2.1.trans ok.1)

theorem InSection.advance {format : QueueFormat} (roundTrips : format.RoundTrips)
    {maxRetries : Nat} {state next : QueueState} (ok : InSection format maxRetries state)
    (taken : advance format maxRetries state = some next) :
    InSection format maxRetries next := by
  unfold Upload.advance at taken
  cases holder : state.holder with
  | free => simp [holder] at taken
  | load =>
      simp only [holder, Option.some.injEq] at taken
      subst taken
      rfl
  | loaded =>
      simp only [InSection, holder] at ok
      simp only [holder, Option.some.injEq] at taken
      subst taken
      exact fun _ => ⟨ok, rfl⟩
  | working operation before point =>
      simp only [InSection, holder] at ok
      cases point with
      | change =>
          obtain ⟨found, saved, measured⟩ := ok
          cases operation with
          | enqueue fileId entry | remove fileId =>
              simp only [holder, Option.some.injEq] at taken
              subst taken
              exact ⟨by rw [← found]; rfl, saved⟩
          | fail fileId isFatal =>
              simp only [holder] at taken
              cases entry : state.queue.lookup fileId with
              | none =>
                  simp only [entry, Option.some.injEq] at taken
                  subst taken
                  refine ⟨?_, saved.trans found.symm, ?_⟩
                  · rw [found] at entry
                    simp [Operation.apply, entry, found]
                  · rw [measured, found]
              | some job =>
                  simp only [entry, Option.some.injEq] at taken
                  subst taken
                  exact ⟨rfl, saved, job, found ▸ entry, by rw [found]⟩
      | mark fileId isFatal =>
          obtain ⟨rfl, saved, entry, present, counted⟩ := ok
          have current : state.queue.lookup fileId = some entry.counted := by
            rw [counted, AList.lookup_insert]
          simp only [holder, current, Option.some.injEq] at taken
          subst taken
          refine ⟨?_, saved⟩
          show state.queue.insert fileId _ = _
          rw [counted, AList.insert_insert, Operation.apply, present]
      | create =>
          simp only [holder, Option.some.injEq] at taken
          subst taken
          exact ok
      | write =>
          simp only [holder, Option.some.injEq] at taken
          subst taken
          exact ⟨ok.1, ok.2, rfl⟩
      | rename =>
          obtain ⟨changed, saved, written⟩ := ok
          simp only [holder, Option.some.injEq] at taken
          subst taken
          refine ⟨changed, ?_⟩
          have read : format.load (format.dump state.queue) = some state.queue :=
            roundTrips state.queue
          simp only [QueueState.saved, written, read, Option.getD_some]
      | measure =>
          simp only [holder, Option.some.injEq] at taken
          subst taken
          exact ⟨ok.1, ok.2, rfl⟩
      | release =>
          simp only [holder, Option.some.injEq] at taken
          subst taken
          exact fun _ => ok.2

theorem InSection.step {format : QueueFormat} (roundTrips : format.RoundTrips)
    {maxRetries : Nat} {state next : QueueState} {label : QueueLabel}
    (ok : InSection format maxRetries state)
    (taken : queueStep format maxRetries state label = some next) :
    InSection format maxRetries next := by
  cases label with
  | start =>
      simp only [queueStep] at taken
      split at taken <;> cases taken
      trivial
  | take operation =>
      simp only [queueStep] at taken
      split at taken
      · rename_i running free
        simp only [InSection, free] at ok
        obtain ⟨saved, measured⟩ := ok running
        cases taken
        exact ⟨rfl, saved, measured⟩
      · cases taken
  | write written =>
      simp only [queueStep] at taken
      split at taken
      · rename_i holder
        simp only [InSection, holder] at ok
        split at taken <;> cases taken
        simp only [InSection, holder]
        exact ok
      · cases taken
  | abandon =>
      simp only [queueStep] at taken
      split at taken
      · rename_i holder
        simp only [InSection, holder] at ok
        cases taken
        obtain ⟨rfl, saved, measured⟩ := ok
        exact fun _ => ⟨saved, measured⟩
      · cases taken
  | advance => exact ok.advance roundTrips taken
  | crash =>
      simp only [queueStep, Option.some.injEq] at taken
      subst taken
      exact fun running => by cases running

/-- Over any sequence of critical sections, starts and crashes, and whatever
files the first process finds. -/
theorem refines_of_reaches {format : QueueFormat} (roundTrips : format.RoundTrips)
    {maxRetries : Nat} {queueFile tempFile : Option Str} {finish : QueueState}
    (reached : Reaches (queueStep format maxRetries) (fun _ _ => True)
      (.off queueFile tempFile) finish) :
    Refines format maxRetries finish := by
  have initial : InSection format maxRetries (.off queueFile tempFile) :=
    fun running => by cases running
  exact (reached.invariant (fun ok _ taken => ok.step roundTrips taken) initial).refines

/-! ## The manager takes each section in one step -/

section Manager

variable {γ : Type} {format : QueueFormat} {maxRetries : Nat} {render : LocalPath → Str}

/-- The part of an entry that `queue.json` holds. -/
def Job.entry (render : LocalPath → Str) (job : Job γ) : QueueEntry where
  path := render job.path
  retries := job.retries
  status := job.status
  jobType := job.jobType
  parentId := job.parentId
  name := job.name

theorem Job.entry_failedJob (job : Job γ) (isFatal : Bool) :
    (State.failedJob maxRetries job isFatal).entry render =
      (job.entry render).counted.marked maxRetries isFatal := by
  by_cases spent : maxRetries < job.retries + 1 ∨ isFatal <;>
    simp only [State.failedJob, Job.entry, QueueEntry.counted, QueueEntry.marked,
      QueueEntry.exhausted, spent, ↓reduceIte]

/-- Between two sections the two models have the same queue, in memory and on
disk. -/
structure Mirrors (render : LocalPath → Str) (format : QueueFormat) (fine : QueueState)
    (state : State γ) : Prop where
  free : fine.holder = .free
  running : fine.running = true ↔ state.boot ≠ .off
  queue : ∀ fileId,
    fine.queue.lookup fileId = (state.queue.lookup fileId).map (Job.entry render)
  saved : ∀ fileId,
    (fine.saved format).lookup fileId = (state.savedQueue.lookup fileId).map (Job.entry render)

/-- A process that is not running has no task, no timer and no call. -/
def Idle (state : State γ) : Prop :=
  state.boot = .off → ∀ index, state.slots index = .free

/-- The operation ends in a save. -/
def Operation.Saves (queue : Queue) : Operation → Prop
  | .fail fileId _ => (queue.lookup fileId).isSome
  | _ => True

theorem run_section (roundTrips : format.RoundTrips) {fine : QueueState}
    (free : fine.holder = .free) (running : fine.running = true) {operation : Operation}
    (saves : operation.Saves fine.queue) :
    ∃ after, Reaches (queueStep format maxRetries) (fun _ _ => True) fine after ∧
      after.holder = .free ∧ after.running = true ∧
      after.queue = operation.apply maxRetries fine.queue ∧
      after.saved format = after.queue := by
  have saving (queue : Queue) : ∃ after,
      Reaches (queueStep format maxRetries) (fun _ _ => True)
        { fine with queue := queue, holder := .working operation fine.queue .create } after ∧
      after.holder = .free ∧ after.running = true ∧ after.queue = queue ∧
      after.saved format = after.queue := by
    have executed : run (queueStep format maxRetries)
        { fine with queue := queue, holder := .working operation fine.queue .create }
        [.advance, .advance, .advance, .advance, .advance] =
        some {
          queueFile := some (format.dump queue)
          tempFile := none
          queue := queue
          uploadQueueSize := queue.activeEntries
          running := fine.running
          holder := .free } := rfl
    refine ⟨_, Reaches.of_free_run executed, rfl, running, rfl, ?_⟩
    show (format.load (format.dump queue)).getD ∅ = queue
    rw [roundTrips, Option.getD_some]
  have taken : queueStep format maxRetries fine (.take operation) =
      some { fine with holder := .working operation fine.queue .change } := by
    simp [queueStep, running, free]
  cases operation with
  | enqueue fileId entry =>
      obtain ⟨after, reached, facts⟩ := saving (fine.queue.insert fileId entry)
      exact ⟨after, .head ⟨_, trivial, taken⟩ (.head ⟨.advance, trivial, rfl⟩ reached), facts⟩
  | remove fileId =>
      obtain ⟨after, reached, facts⟩ := saving (fine.queue.erase fileId)
      exact ⟨after, .head ⟨_, trivial, taken⟩ (.head ⟨.advance, trivial, rfl⟩ reached), facts⟩
  | fail fileId isFatal =>
      obtain ⟨entry, found⟩ := Option.isSome_iff_exists.mp saves
      obtain ⟨after, reached, facts⟩ :=
        saving ((fine.queue.insert fileId entry.counted).insert fileId
          (entry.counted.marked maxRetries isFatal))
      have changed : queueStep format maxRetries
          { fine with holder := .working (.fail fileId isFatal) fine.queue .change } .advance =
          some { fine with
            queue := fine.queue.insert fileId entry.counted
            holder := .working (.fail fileId isFatal) fine.queue (.mark fileId isFatal) } := by
        simp [queueStep, advance, found]
      have marked : queueStep format maxRetries
          { fine with
            queue := fine.queue.insert fileId entry.counted
            holder := .working (.fail fileId isFatal) fine.queue (.mark fileId isFatal) }
          .advance =
          some { fine with
            queue := (fine.queue.insert fileId entry.counted).insert fileId
              (entry.counted.marked maxRetries isFatal)
            holder := .working (.fail fileId isFatal) fine.queue .create } := by
        simp [queueStep, advance, AList.lookup_insert]
      refine ⟨after, .head ⟨_, trivial, taken⟩ (.head ⟨_, trivial, changed⟩
        (.head ⟨_, trivial, marked⟩ reached)), facts.1, facts.2.1, ?_, facts.2.2.2⟩
      rw [facts.2.2.1, AList.insert_insert, Operation.apply, found]

theorem Mirrors.aside {fine : QueueState} {state next : State γ}
    (mirrors : Mirrors render format fine state) (boot : next.boot = .off ↔ state.boot = .off)
    (queue : next.queue = state.queue) (saved : next.savedQueue = state.savedQueue) :
    ∃ after, Reaches (queueStep format maxRetries) (fun _ _ => True) fine after ∧
      Mirrors render format after next := by
  refine ⟨fine, .refl, mirrors.free, ?_, ?_, ?_⟩
  · rw [mirrors.running, Ne, Ne, boot]
  · rw [queue]
    exact mirrors.queue
  · rw [saved]
    exact mirrors.saved

theorem Mirrors.operate (roundTrips : format.RoundTrips) {fine : QueueState}
    {state next : State γ} (mirrors : Mirrors render format fine state)
    (started : state.boot ≠ .off) (operation : Operation) (boot : next.boot = state.boot)
    (saves : operation.Saves fine.queue)
    (queue : ∀ fileId, (operation.apply maxRetries fine.queue).lookup fileId =
      (next.queue.lookup fileId).map (Job.entry render))
    (saved : next.savedQueue = next.queue) :
    ∃ after, Reaches (queueStep format maxRetries) (fun _ _ => True) fine after ∧
      Mirrors render format after next := by
  have running := mirrors.running.mpr started
  obtain ⟨after, reached, free, stillRunning, changed, loads⟩ :=
    @run_section format maxRetries roundTrips fine mirrors.free running operation saves
  refine ⟨after, reached, free, ?_, ?_, ?_⟩
  · simp [stillRunning, boot, started]
  · rw [changed]
    exact queue
  · rw [loads, changed, saved]
    exact queue

theorem Idle.started {state : State γ} (idle : Idle state) {index : Nat} {slot : Slot γ}
    (isSlot : state.slots index = slot) (busy : slot ≠ .free) : state.boot ≠ .off := by
  intro off
  exact busy (isSlot.symm.trans (idle off index))

theorem Idle.of_boot {state : State γ} (started : state.boot ≠ .off) : Idle state :=
  fun off => absurd off started

theorem Idle.of_started {state next : State γ} (started : state.boot ≠ .off)
    (boot : next.boot = state.boot) : Idle next :=
  fun off => absurd (boot.symm.trans off) started

theorem Mirrors.handleFailure (roundTrips : format.RoundTrips) {fine : QueueState}
    {state next : State γ} (mirrors : Mirrors render format fine state)
    (started : state.boot ≠ .off) {fileId : Str} {isFatal armed : Bool}
    (handled : state.handleFailure maxRetries fileId isFatal = (next, armed)) (index : Nat)
    (slot : Slot γ) :
    ∃ after, Reaches (queueStep format maxRetries) (fun _ _ => True) fine after ∧
      Mirrors render format after (next.setSlot index slot) := by
  have boot : next.boot = state.boot := by rw [State.handleFailure_eq handled]
  cases found : state.queue.lookup fileId with
  | none =>
      simp only [State.handleFailure, found, Prod.mk.injEq] at handled
      obtain ⟨rfl, -⟩ := handled
      exact mirrors.aside Iff.rfl rfl rfl
  | some job =>
      have present : fine.queue.lookup fileId = some (job.entry render) := by
        rw [mirrors.queue, found]
        rfl
      have saved : next.savedQueue = next.queue := by
        simp only [State.handleFailure, found] at handled
        split at handled <;> cases handled <;> rfl
      refine mirrors.operate roundTrips started (.fail fileId isFatal) boot ?_ ?_ saved
      · simp [Operation.Saves, present]
      · intro other
        rw [State.setSlot_queue, State.handleFailure_lookup handled, Operation.apply, present,
          Dict.lookup_insert_eq]
        split
        · rw [found, Option.map_some, Option.map_some, Job.entry_failedJob]
        · exact mirrors.queue other

theorem Mirrors.removeEntry (roundTrips : format.RoundTrips) {fine : QueueState}
    {state : State γ} (mirrors : Mirrors render format fine state)
    (started : state.boot ≠ .off) (fileId : Str) (index : Nat) :
    Idle ((state.removeEntry fileId).setSlot index .done) ∧
      ∃ after, Reaches (queueStep format maxRetries) (fun _ _ => True) fine after ∧
        Mirrors render format after ((state.removeEntry fileId).setSlot index .done) := by
  refine ⟨.of_started started rfl, ?_⟩
  refine mirrors.operate roundTrips started (.remove fileId) rfl trivial ?_ rfl
  intro other
  simp only [Operation.apply, State.setSlot_queue, State.removeEntry,
    State.persistUploadQueueToDisk, Dict.lookup_erase_eq, mirrors.queue]
  split <;> rfl

/-- Whatever the manager does in one step, the sections can do in several. -/
theorem Mirrors.step (roundTrips : format.RoundTrips) {fine : QueueState}
    {state next : State γ} {label : Label} (mirrors : Mirrors render format fine state)
    (idle : Idle state) (stepped : Stepped maxRetries state label next) :
    Idle next ∧ ∃ after, Reaches (queueStep format maxRetries) (fun _ _ => True) fine after ∧
      Mirrors render format after next := by
  cases stepped with
  | begin ready slot temp unlocked =>
      rw [State.enqueueBegin_eq]
      exact ⟨fun off => by simp [ready] at off, mirrors.aside Iff.rfl rfl rfl⟩
  | moveRaises ready _ =>
      rw [State.removeOldFile_eq]
      exact ⟨fun off => by simp [ready] at off, mirrors.aside Iff.rfl rfl rfl⟩
  | move slot =>
      rw [State.moveFile_eq]
      exact ⟨.of_started (idle.started slot (by simp)) rfl, mirrors.aside Iff.rfl rfl rfl⟩
  | replace slot =>
      rename_i index call serial content safePath retries
      have started := idle.started slot (by simp)
      refine ⟨.of_started started rfl, ?_⟩
      refine mirrors.operate roundTrips started (.enqueue call.fileId
        ((State.newJob call serial content safePath retries).entry render)) rfl trivial ?_ rfl
      intro fileId
      simp only [Operation.apply, State.setSlot_queue, State.enqueueReplace,
        State.persistUploadQueueToDisk, Dict.lookup_insert_eq, mirrors.queue]
      split <;> rfl
  | submit slot | pickNothing slot _ _ | pick slot _ _ _ | checkExists slot _
  | checkMissing slot _ | read slot _ | readVanished slot _ | replyAccepted slot
  | replyRejected slot | replyQuota slot | forget slot _ | fire slot =>
      exact ⟨.of_started (idle.started slot (by simp)) rfl, mirrors.aside Iff.rfl rfl rfl⟩
  | popRemoved slot => exact mirrors.removeEntry roundTrips (idle.started slot (by simp)) _ _
  | popMissing slot unlocked =>
      exact mirrors.removeEntry roundTrips (idle.started slot (by simp)) _ _
  | failRetry slot unlocked handled =>
      have started := idle.started slot (by simp)
      have boot := congrArg State.boot (State.handleFailure_eq handled)
      exact ⟨.of_started started boot, mirrors.handleFailure roundTrips started handled _ _⟩
  | failOver slot unlocked handled =>
      have started := idle.started slot (by simp)
      have boot := congrArg State.boot (State.handleFailure_eq handled)
      exact ⟨.of_started started boot, mirrors.handleFailure roundTrips started handled _ _⟩
  | crash =>
      refine ⟨fun _ _ => rfl, _, .single ⟨.crash, trivial, rfl⟩, rfl, ?_, ?_, mirrors.saved⟩
      · simp [State.crash]
      · intro fileId
        rfl
  | start off listed =>
      have stopped : fine.running = false := by
        rw [← Bool.not_eq_true, mirrors.running]
        exact not_not_intro off
      have executed : run (queueStep format maxRetries) fine [.start, .advance, .advance] =
          some { fine with
            queue := fine.saved format
            uploadQueueSize := (fine.saved format).activeEntries
            running := true
            holder := .free } := by
        simp [run, queueStep, stopped, advance, QueueState.saved]
      refine ⟨.of_boot (by simp), _, Reaches.of_free_run executed, rfl, ?_,
        mirrors.saved, mirrors.saved⟩
      simp
  | recover boot parsed slot temp unlocked =>
      simp only [State.enqueueBegin_eq]
      exact ⟨.of_boot (by simp), mirrors.aside (by simp [boot]) rfl rfl⟩
  | recoverSkip boot parsed | recovered boot returned | resume boot unlocked
  | sweepDone boot | sweep boot slot =>
      exact ⟨.of_boot (by simp), mirrors.aside (by simp [boot]) rfl rfl⟩

/-- So every run of the manager is a run of the sections, and between two
sections both have the same queues. -/
theorem mirrors_of_reaches (roundTrips : format.RoundTrips) {files : Dict LocalPath γ}
    {finish : State γ}
    (reached : Reaches (Upload.step maxRetries) (fun _ _ => True) (State.stopped files) finish) :
    ∃ fine, Reaches (queueStep format maxRetries) (fun _ _ => True) (.off none none) fine ∧
      Mirrors render format fine finish := by
  suffices both : Idle finish ∧ ∃ fine,
      Reaches (queueStep format maxRetries) (fun _ _ => True) (.off none none) fine ∧
        Mirrors render format fine finish from both.2
  induction reached with
  | refl =>
      refine ⟨fun _ _ => rfl, _, .refl, rfl, ?_, fun _ => rfl, fun _ => rfl⟩
      simp [QueueState.off, State.stopped]
  | tail _ last induction =>
      obtain ⟨idle, fine, before, mirrors⟩ := induction
      obtain ⟨label, -, taken⟩ := last
      obtain ⟨stillIdle, after, later, still⟩ :=
        mirrors.step roundTrips idle (stepped_of_step taken)
      exact ⟨stillIdle, after, before.trans later, still⟩

end Manager

end FuseDrive.Upload
