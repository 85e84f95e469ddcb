import FuseDrive.Upload.SingleUpload
import FuseDrive.Upload.OwnFate

/-!
# Pending entries are attended to

An entry of the queue is only ever sent because some task runs for its id.  The
manager keeps no list of the tasks: they sit in the dispatcher, in armed timers,
or are still to be submitted by a call that is under way.  This module shows
that the three places together never lose a pending entry.  A step may consume
the last task of an id only when it also takes the entry away or gives it up;
every step that makes an entry pending is a step of a call that submits a task
later.
-/

namespace FuseDrive.Upload

open Transition

variable {γ : Type}

/-- The queue holds a pending entry for the id. -/
def State.isPending (state : State γ) (fileId : Str) : Prop :=
  ∃ job, state.queue.lookup fileId = some job ∧ job.status = .pending

/-- `__init__` has not yet passed the point where it submits a task for the
id, should the entry be pending then. -/
def Boot.willSubmit : Boot → Str → Prop
  | .recovering _, _ | .recoveringIn _ _, _ => True
  | .sweeping fileIds, fileId => fileId ∈ fileIds
  | .off, _ | .ready, _ => False

/-- Somebody is going to look at the entry of the id. -/
inductive Tended (state : State γ) (fileId : Str) : Prop where
  /-- A submitted task that no worker has taken yet. -/
  | submitted {index} (slot : state.slots index = .queued fileId)
  /-- A task at work, its handling of a failure included. -/
  | running {index job point} (slot : state.slots index = .attempt fileId job point)
  /-- A retry timer. -/
  | timer {index} (slot : state.slots index = .armed fileId)
  /-- An `enqueue_file_for_upload` call before its submission. -/
  | enqueuing {index call serial content point}
      (slot : state.slots index = .enqueue call serial content point)
      (same : call.fileId = fileId)
  /-- The start-up before its submission. -/
  | starting (boot : state.boot.willSubmit fileId)

/-- No pending entry is left without a task to come. -/
def NoneStranded (state : State γ) : Prop :=
  ∀ fileId, state.isPending fileId → Tended state fileId

theorem tended_iff {state : State γ} {fileId : Str} :
    Tended state fileId ↔
      (∃ index, (state.slots index).live = some fileId) ∨ state.boot.willSubmit fileId := by
  constructor
  · intro tended
    cases tended with
    | submitted slot | running slot | timer slot =>
        exact Or.inl ⟨_, by rw [slot]; rfl⟩
    | enqueuing slot same =>
        exact Or.inl ⟨_, by rw [slot]; exact congrArg some same⟩
    | starting boot => exact Or.inr boot
  · rintro (⟨index, live⟩ | boot)
    · cases slot : state.slots index with
      | enqueue call serial content point =>
          exact .enqueuing slot (by simpa [slot, Slot.live] using live)
      | queued otherId =>
          obtain rfl : otherId = fileId := by simpa [slot, Slot.live] using live
          exact .submitted slot
      | attempt otherId job point =>
          obtain rfl : otherId = fileId := by simpa [slot, Slot.live] using live
          exact .running slot
      | armed otherId =>
          obtain rfl : otherId = fileId := by simpa [slot, Slot.live] using live
          exact .timer slot
      | free | done => simp [slot, Slot.live] at live
    · exact .starting boot

/-! ## What one step does to an id -/

/-- Between two steps an id is looked after as long as the slot that moved
still works for it, or it was looked after by somebody else before. -/
theorem NoneStranded.moveSlot {state next : State γ} (none : NoneStranded state)
    (index : Nat)
    (slots : ∀ other, other ≠ index → next.slots other = state.slots other)
    (boot : ∀ fileId, state.boot.willSubmit fileId →
      next.boot.willSubmit fileId ∨ (next.slots index).live = some fileId)
    (entries : ∀ fileId, next.isPending fileId → (next.slots index).live = some fileId ∨
      state.isPending fileId ∧ (state.slots index).live ≠ some fileId) :
    NoneStranded next := by
  intro fileId pending
  apply tended_iff.mpr
  rcases entries fileId pending with live | ⟨before, notHere⟩
  · exact Or.inl ⟨index, live⟩
  · rcases tended_iff.mp (none fileId before) with ⟨other, live⟩ | starting
    · have elsewhere : other ≠ index := by
        rintro rfl
        exact notHere live
      exact Or.inl ⟨other, by rw [slots other elsewhere]; exact live⟩
    · rcases boot fileId starting with later | live
      · exact Or.inr later
      · exact Or.inl ⟨index, live⟩

/-- The entries, the slots and the progress of the start-up are all it reads. -/
theorem NoneStranded.congr {state next : State γ} (none : NoneStranded state)
    (queue : next.queue = state.queue) (slots : next.slots = state.slots)
    (boot : next.boot = state.boot) : NoneStranded next := by
  intro fileId pending
  have tended := tended_iff.mp (none fileId (by simpa [State.isPending, queue] using pending))
  rw [tended_iff, slots, boot]
  exact tended

theorem NoneStranded.keepId {state next : State γ} (none : NoneStranded state)
    (index : Nat)
    (slots : ∀ other, other ≠ index → next.slots other = state.slots other)
    (boot : next.boot = state.boot)
    (live : ∀ fileId, (state.slots index).live = some fileId →
      (next.slots index).live = some fileId)
    (entries : ∀ fileId, next.isPending fileId → (next.slots index).live ≠ some fileId →
      state.isPending fileId) : NoneStranded next := by
  apply none.moveSlot index slots
  · intro fileId starting
    exact Or.inl (by rw [boot]; exact starting)
  · intro fileId pending
    by_cases here : (next.slots index).live = some fileId
    · exact Or.inl here
    · exact Or.inr ⟨entries fileId pending here, fun before => here (live fileId before)⟩

theorem NoneStranded.finish {state next : State γ} (none : NoneStranded state)
    (index : Nat) (fileId : Str)
    (slots : ∀ other, other ≠ index → next.slots other = state.slots other)
    (boot : next.boot = state.boot) (live : (state.slots index).live = some fileId)
    (settled : ¬ next.isPending fileId)
    (entries : ∀ other, next.isPending other → state.isPending other) :
    NoneStranded next := by
  apply none.moveSlot index slots
  · intro other starting
    exact Or.inl (by rw [boot]; exact starting)
  · intro other pending
    refine Or.inr ⟨entries other pending, ?_⟩
    rw [live]
    rintro same
    cases same
    exact settled pending

/-- The sweep of the start-up submits a task for exactly the pending entries. -/
theorem mem_pendingIds {state : State γ} {fileId : Str} :
    fileId ∈ state.pendingIds ↔ state.isPending fileId := by
  simp only [State.pendingIds, List.mem_map, List.mem_filter, decide_eq_true_eq,
    Sigma.exists, exists_and_right, exists_eq_right, State.isPending]
  constructor
  · rintro ⟨job, entry, pending⟩
    exact ⟨job, AList.mem_lookup_iff.mpr entry, pending⟩
  · rintro ⟨job, entry, pending⟩
    exact ⟨job, AList.mem_lookup_iff.mp entry, pending⟩

theorem isPending_removeEntry {state : State γ} {fileId other : Str} :
    (state.removeEntry fileId).isPending other ↔ other ≠ fileId ∧ state.isPending other := by
  simp only [State.isPending, State.removeEntry, State.persistUploadQueueToDisk,
    Dict.lookup_erase_eq]
  by_cases same : other = fileId <;> simp [same]

theorem isPending_of_handleFailure {maxRetries : Nat} {state next : State γ} {fileId : Str}
    {isFatal armed : Bool}
    (handled : state.handleFailure maxRetries fileId isFatal = (next, armed)) {other : Str}
    (pending : next.isPending other) : state.isPending other := by
  obtain ⟨job, entry, status⟩ := pending
  rw [State.handleFailure_lookup handled] at entry
  split at entry
  · rename_i same
    obtain ⟨old, found, rfl⟩ := Option.map_eq_some_iff.mp entry
    refine ⟨old, same ▸ found, ?_⟩
    simp only [State.failedJob] at status
    split at status
    · cases status
    · exact status
  · exact ⟨job, entry, status⟩

/-- Without a timer, the entry of the failed attempt is gone or failed. -/
theorem not_isPending_of_handleFailure {maxRetries : Nat} {state next : State γ}
    {fileId : Str} {isFatal : Bool}
    (handled : state.handleFailure maxRetries fileId isFatal = (next, false)) :
    ¬ next.isPending fileId := by
  rintro ⟨job, entry, status⟩
  rw [State.handleFailure_lookup handled, if_pos rfl] at entry
  obtain ⟨old, found, rfl⟩ := Option.map_eq_some_iff.mp entry
  simp only [State.handleFailure, found] at handled
  split at handled
  · rename_i exhausted
    rw [State.failedJob_status, if_pos exhausted] at status
    cases status
  · cases handled

/-! ## Runs -/

/-- While the manager exists no pending entry is stranded. -/
def Attended (state : State γ) : Prop :=
  state.boot ≠ .off → NoneStranded state

theorem Attended.advance {state next : State γ} {index : Nat} {slot : Slot γ}
    (attended : Attended state) (queue : next.queue = state.queue)
    (boot : next.boot = state.boot) (slots : next.slots = (state.setSlot index slot).slots)
    (live : slot.live = (state.slots index).live) : Attended next := by
  intro started
  have here : next.slots index = slot := by simp [slots]
  apply (attended (boot ▸ started)).keepId
  · intro other elsewhere
    rw [slots, State.setSlot_slots, if_neg elsewhere]
  · exact boot
  · intro fileId before
    rw [here, live]
    exact before
  · intro fileId pending _
    simpa [State.isPending, queue] using pending

theorem Attended.begin {state next : State γ} {index second : Nat} {call : EnqueueCall}
    {content : γ} (attended : NoneStranded state) (free : state.slots index = .free)
    (queue : next.queue = (state.enqueueBegin index call second content).queue)
    (slots : next.slots = (state.enqueueBegin index call second content).slots)
    (boot : ∀ fileId, state.boot.willSubmit fileId → next.boot.willSubmit fileId) :
    NoneStranded next := by
  apply attended.moveSlot index
  · intro other elsewhere
    rw [slots, State.enqueueBegin_eq]
    simp [elsewhere]
  · intro fileId starting
    exact Or.inl (boot fileId starting)
  · intro fileId pending
    refine Or.inr ⟨?_, by simp [free, Slot.live]⟩
    rw [State.enqueueBegin_eq] at queue
    simpa [State.isPending, queue] using pending

theorem Attended.remove {state : State γ} {index : Nat} {fileId : Str} {job : Job γ}
    {point : AttemptPoint γ} (attended : Attended state)
    (slot : state.slots index = .attempt fileId job point) :
    Attended ((state.removeEntry fileId).setSlot index .done) := by
  intro started
  apply (attended started).finish index fileId
  · intro other elsewhere
    rw [State.setSlot_slots, if_neg elsewhere]
    rfl
  · rfl
  · simp [slot, Slot.live]
  · intro pending
    exact (isPending_removeEntry.mp pending).1 rfl
  · exact fun other pending => (isPending_removeEntry.mp pending).2

theorem Attended.step {maxRetries : Nat} {state next : State γ} {label : Label}
    (attended : Attended state) (stepped : Stepped maxRetries state label next) :
    Attended next := by
  cases stepped with
  | begin ready slot temp unlocked =>
      intro _
      apply Attended.begin (attended (by simp [ready])) slot rfl rfl
      intro fileId starting
      simp only [State.enqueueBegin_eq]
      exact starting
  | moveRaises _ _ =>
      rw [State.removeOldFile_eq]
      exact fun started => (attended started).congr rfl rfl rfl
  | move slot =>
      rw [State.moveFile_eq]
      exact attended.advance rfl rfl rfl (by rw [slot]; rfl)
  | replace slot =>
      rename_i index call serial content safePath retries
      intro started
      apply (attended started).keepId index
      · intro other elsewhere
        simp [State.setSlot_slots, elsewhere, State.enqueueReplace,
          State.persistUploadQueueToDisk]
      · rfl
      · intro fileId before
        simpa [slot, Slot.live] using before
      · intro fileId pending notHere
        have other : fileId ≠ call.fileId := by
          rintro rfl
          simp [Slot.live] at notHere
        simpa [State.isPending, State.enqueueReplace, State.persistUploadQueueToDisk,
          Dict.lookup_insert_eq, other] using pending
  | submit slot | replyAccepted slot | replyRejected slot | replyQuota slot | fire slot =>
      exact attended.advance rfl rfl rfl (by rw [slot]; rfl)
  | pickNothing slot unlocked idle =>
      rename_i index fileId
      intro started
      apply (attended started).finish index fileId
      · intro other elsewhere
        simp [State.setSlot_slots, elsewhere]
      · rfl
      · simp [slot, Slot.live]
      · rintro ⟨job, entry, pending⟩
        exact idle job entry pending
      · exact fun other pending => pending
  | pick slot unlocked entry pending =>
      exact attended.advance rfl rfl rfl (by rw [slot]; rfl)
  | checkExists slot file | checkMissing slot file | read slot file | readVanished slot file =>
      exact attended.advance rfl rfl rfl (by rw [slot]; rfl)
  | forget slot unlocked =>
      exact attended.advance rfl rfl rfl (by rw [slot]; rfl)
  | popRemoved slot =>
      exact attended.remove slot
  | popMissing slot unlocked =>
      exact attended.remove slot
  | failRetry slot unlocked handled =>
      rename_i index fileId job content isFatal after
      have same := State.handleFailure_eq handled
      intro started
      have bootSame : after.boot = state.boot := by rw [same]
      have slotsSame : after.slots = state.slots := by rw [same]
      apply (attended (bootSame ▸ started)).keepId index
      · intro other elsewhere
        rw [State.setSlot_slots, if_neg elsewhere, slotsSame]
      · exact bootSame
      · intro otherId before
        simpa [slot, Slot.live] using before
      · intro other pending _
        exact isPending_of_handleFailure handled pending
  | failOver slot unlocked handled =>
      rename_i index fileId job content isFatal after
      have same := State.handleFailure_eq handled
      intro started
      have bootSame : after.boot = state.boot := by rw [same]
      have slotsSame : after.slots = state.slots := by rw [same]
      apply (attended (bootSame ▸ started)).finish index fileId
      · intro other elsewhere
        rw [State.setSlot_slots, if_neg elsewhere, slotsSame]
      · exact bootSame
      · simp [slot, Slot.live]
      · show ¬ after.isPending fileId
        exact not_isPending_of_handleFailure handled
      · exact fun other pending => isPending_of_handleFailure handled pending
  | crash => exact fun started => absurd rfl started
  | start off listed => exact fun _ fileId _ => .starting trivial
  | recover boot parsed slot temp unlocked => exact fun _ fileId _ => .starting trivial
  | recoverSkip boot parsed => exact fun _ fileId _ => .starting trivial
  | recovered boot returned => exact fun _ fileId _ => .starting trivial
  | resume boot unlocked =>
      intro _ fileId pending
      apply Tended.starting
      show fileId ∈ state.pendingIds
      exact mem_pendingIds.mpr pending
  | sweepDone boot =>
      rename_i index
      intro _
      apply (attended (by simp [boot])).moveSlot index
      · exact fun other _ => rfl
      · intro fileId starting
        simp [boot, Boot.willSubmit] at starting
      · intro fileId pending
        by_cases here : (state.slots index).live = some fileId
        · exact Or.inl here
        · exact Or.inr ⟨pending, here⟩
  | sweep boot slot =>
      rename_i index fileId fileIds
      intro _
      apply (attended (by simp [boot])).moveSlot index
      · intro other elsewhere
        simp [State.setSlot_slots, elsewhere]
      · intro otherId starting
        simp only [boot, Boot.willSubmit, List.mem_cons] at starting
        rcases starting with rfl | later
        · exact Or.inr (by simp [Slot.live])
        · exact Or.inl later
      · intro otherId pending
        exact Or.inr ⟨pending, by simp [slot, Slot.live]⟩

/-- In every run that begins before the manager is made, over whatever queue
an earlier process saved, no pending entry is ever without a task, a timer or
a call that is about to submit one. -/
theorem noneStranded_of_reaches {maxRetries : Nat} {start finish : State γ}
    (off : start.boot = .off)
    (reached : Reaches (step maxRetries) (fun _ _ => True) start finish)
    (started : finish.boot ≠ .off) : NoneStranded finish := by
  have initial : Attended start := fun running => absurd off running
  have attended : Attended finish :=
    reached.invariant (fun attended _ taken => attended.step (stepped_of_step taken)) initial
  exact attended started

/-- An attempt fails, the process dies before the retry and the next one finds
the entry in the saved queue. -/
def failedThenRestarted : List Label :=
  [.start [['y'], ['x']], .recover 0 ['u'] 7, .recover 0 ['u'] 7, .resume, .sweep 0,
    .begin 0 (saveCall ['x']) 7, .move 0, .replace 0, .submit 0, .pick 0, .check 0,
    .read 0, .reply 0 .rejected, .fail 0, .crash,
    .start [['y']], .recover 0 ['u'] 8, .resume, .sweep 0, .sweep 0, .pick 0, .check 0,
    .read 0, .reply 0 .rejected, .fail 0]

theorem noneStranded_of_reaches_failedThenRestarted :
    ∃ finish, run (step 5) (State.stopped twoSaves) failedThenRestarted = some finish ∧
      (∃ job, finish.queue.lookup ['f'] = some job ∧ job.status = .pending ∧
        job.retries = 2) ∧ NoneStranded finish := by
  obtain ⟨finish, executed⟩ := Option.isSome_iff_exists.mp
    (show (run (step 5) (State.stopped twoSaves) failedThenRestarted).isSome from rfl)
  have entry : (run (step 5) (State.stopped twoSaves) failedThenRestarted).map
      (fun state => ((state.queue.lookup ['f']).map fun job => (job.status, job.retries),
        state.boot)) = some (some (.pending, 2), .ready) := rfl
  rw [executed, Option.map_some, Option.some.injEq, Prod.mk.injEq, Option.map_eq_some_iff]
    at entry
  obtain ⟨⟨job, found, facts⟩, boot⟩ := entry
  obtain ⟨status, retries⟩ := Prod.mk.inj facts
  refine ⟨finish, executed, ⟨job, found, status, retries⟩, ?_⟩
  exact noneStranded_of_reaches rfl (Reaches.of_free_run executed) (by simp [boot])

end FuseDrive.Upload
