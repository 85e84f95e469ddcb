import FuseDrive.Concurrency.Dispatcher
import FuseDrive.Upload.Delivery
import FuseDrive.Upload.Tended

/-!
# The upload queue drains

An attempt that fails arms a timer only while the entry of its id has retries
left, and uses one of them up.  So every enqueued file costs a bounded number
of requests, the steps of the workers come to an end once nothing more is
enqueued, and then the queue holds nothing but entries that were given up.
The two workers of the pool `upload` and the lock of the manager never stop
each other.
-/

namespace FuseDrive.Upload

open Transition
open Concurrency.Dispatcher (Workers)

variable {γ : Type}

/-! ## Retries -/

/-- The retries the entries of the queue still have. -/
def State.retriesLeft (maxRetries : Nat) (state : State γ) : Nat :=
  state.queue.total fun job => maxRetries - job.retries

/-- The step is one of a call, a worker or a timer. -/
def Label.works : Label → Prop
  | .move _ | .replace _ | .submit _ | .pick _ | .check _ | .read _ | .reply _ _ | .forget _
  | .pop _ | .fail _ | .fire _ => True
  | .begin _ _ _ | .moveRaises _ | .crash | .start _ | .recover _ _ _ | .recovered | .resume
  | .sweep _ => False

/-- An attempt opens the local file, to send it. -/
def Label.requests : Label → Bool
  | .read _ => true
  | _ => false

/-- What a step of work makes of a slot and of the retries. -/
inductive Passes (maxRetries : Nat) : Label → Slot γ → Slot γ → Nat → Nat → Prop where
  | move {index call serial content safePath retries left} :
      Passes maxRetries (.move index) (.enqueue call serial content (.move safePath retries))
        (.enqueue call serial content (.replace safePath retries)) left left
  | replace {index call serial content safePath retries left later}
      (renewed : later ≤ left + maxRetries) :
      Passes maxRetries (.replace index)
        (.enqueue call serial content (.replace safePath retries))
        (.enqueue call serial content .submit) left later
  | submit {index call serial content left} :
      Passes maxRetries (.submit index) (.enqueue call serial content .submit)
        (.queued call.fileId) left left
  | pickNothing {index fileId left} :
      Passes maxRetries (.pick index) (.queued fileId) .done left left
  | pick {index fileId job left} :
      Passes maxRetries (.pick index) (.queued fileId) (.attempt fileId job .check) left left
  | checkExists {index fileId job left} :
      Passes maxRetries (.check index) (.attempt fileId job .check) (.attempt fileId job .read)
        left left
  | checkMissing {index fileId job left} :
      Passes maxRetries (.check index) (.attempt fileId job .check)
        (.attempt fileId job .missing) left left
  | read {index fileId job content left} :
      Passes maxRetries (.read index) (.attempt fileId job .read)
        (.attempt fileId job (.sent content)) left left
  | readVanished {index fileId job content left} :
      Passes maxRetries (.read index) (.attempt fileId job .read)
        (.attempt fileId job (.failure content false)) left left
  | accepted {index nodeId fileId job content left} :
      Passes maxRetries (.reply index (.accepted nodeId)) (.attempt fileId job (.sent content))
        (.attempt fileId job (.success content)) left left
  | refused {index answer fileId job content isFatal left} :
      Passes maxRetries (.reply index answer) (.attempt fileId job (.sent content))
        (.attempt fileId job (.failure content isFatal)) left left
  | forget {index fileId job content left} :
      Passes maxRetries (.forget index) (.attempt fileId job (.success content))
        (.attempt fileId job (.removing content)) left left
  | popRemoved {index fileId job content left later} (fewer : later ≤ left) :
      Passes maxRetries (.pop index) (.attempt fileId job (.removing content)) .done left later
  | popMissing {index fileId job left later} (fewer : later ≤ left) :
      Passes maxRetries (.pop index) (.attempt fileId job .missing) .done left later
  | failRetry {index fileId job content isFatal left later} (used : later + 1 ≤ left) :
      Passes maxRetries (.fail index) (.attempt fileId job (.failure content isFatal))
        (.armed fileId) left later
  | failOver {index fileId job content isFatal left later} (fewer : later ≤ left) :
      Passes maxRetries (.fail index) (.attempt fileId job (.failure content isFatal)) .done
        left later
  | fire {index fileId left} :
      Passes maxRetries (.fire index) (.armed fileId) (.queued fileId) left left

section Passes

variable {maxRetries : Nat} {state next : State γ} {label : Label}

theorem retriesLeft_removeEntry (fileId : Str) :
    (state.removeEntry fileId).retriesLeft maxRetries ≤ state.retriesLeft maxRetries := by
  have erased := Dict.total_erase state.queue (fun job => maxRetries - job.retries) fileId
  change Dict.total (state.queue.erase fileId) _ ≤ Dict.total state.queue _
  omega

theorem retriesLeft_replace (call : EnqueueCall) (serial : Nat) (content : γ)
    (safePath : LocalPath) (retries : Nat) :
    (state.enqueueReplace call serial content safePath retries).retriesLeft maxRetries ≤
      state.retriesLeft maxRetries + maxRetries := by
  have inserted := Dict.total_insert state.queue (fun job => maxRetries - job.retries)
    call.fileId (State.newJob call serial content safePath retries)
  change Dict.total (state.queue.insert call.fileId _) _ ≤ Dict.total state.queue _ + maxRetries
  have bounded : maxRetries - (State.newJob call serial content safePath retries).retries ≤
      maxRetries := Nat.sub_le _ _
  omega

/-- A failure never gives retries back, and one that arms a timer uses one
up. -/
theorem retriesLeft_handleFailure {fileId : Str} {isFatal armed : Bool}
    (handled : state.handleFailure maxRetries fileId isFatal = (next, armed)) :
    next.retriesLeft maxRetries + (if armed then 1 else 0) ≤ state.retriesLeft maxRetries := by
  unfold State.handleFailure at handled
  split at handled
  · cases handled
    exact Nat.le_refl _
  · rename_i job entry
    have inserted := Dict.total_insert state.queue (fun job => maxRetries - job.retries)
      fileId (State.failedJob maxRetries job isFatal)
    rw [entry, Option.elim_some] at inserted
    have counted : (State.failedJob maxRetries job isFatal).retries = job.retries + 1 := rfl
    simp only at handled
    split at handled <;> cases handled
    · change Dict.total (state.queue.insert fileId _) _ + 0 ≤ Dict.total state.queue _
      simp only [counted] at inserted
      omega
    · rename_i left
      rw [not_or] at left
      change Dict.total (state.queue.insert fileId _) _ + 1 ≤ Dict.total state.queue _
      simp only [counted] at inserted
      omega

/-- A step of work moves one slot and leaves the others, the start-up and the
history of the calls alone. -/
theorem Stepped.passes (works : label.works) (stepped : Stepped maxRetries state label next) :
    ∃ index after, (∀ other, next.slots other = if other = index then after
        else state.slots other) ∧
      Passes maxRetries label (state.slots index) after (state.retriesLeft maxRetries)
        (next.retriesLeft maxRetries) ∧
      next.boot = state.boot ∧ next.enqueued = state.enqueued := by
  cases stepped with
  | @move index call serial content safePath retries slot =>
      rw [State.moveFile_eq]
      refine ⟨index, _, State.setSlot_slots _ index _, ?_, rfl, rfl⟩
      rw [slot]
      exact .move
  | @replace index call serial content safePath retries slot =>
      refine ⟨index, _, State.setSlot_slots _ index _, ?_, rfl, rfl⟩
      rw [slot]
      exact .replace (retriesLeft_replace call serial content safePath retries)
  | @submit index call serial content slot =>
      refine ⟨index, _, State.setSlot_slots _ index _, ?_, rfl, rfl⟩
      rw [slot]
      exact .submit
  | @pickNothing index fileId slot unlocked idle =>
      refine ⟨index, _, State.setSlot_slots _ index _, ?_, rfl, rfl⟩
      rw [slot]
      exact .pickNothing
  | @pick index fileId job slot unlocked entry pending =>
      refine ⟨index, _, State.setSlot_slots _ index _, ?_, rfl, rfl⟩
      rw [slot]
      exact .pick
  | @checkExists index fileId job content slot file =>
      refine ⟨index, _, State.setSlot_slots _ index _, ?_, rfl, rfl⟩
      rw [slot]
      exact .checkExists
  | @checkMissing index fileId job slot file =>
      refine ⟨index, _, State.setSlot_slots _ index _, ?_, rfl, rfl⟩
      rw [slot]
      exact .checkMissing
  | @read index fileId job content slot file =>
      refine ⟨index, _, State.setSlot_slots _ index _, ?_, rfl, rfl⟩
      rw [slot]
      exact .read
  | @readVanished index fileId job slot file =>
      refine ⟨index, _, State.setSlot_slots _ index _, ?_, rfl, rfl⟩
      rw [slot]
      exact .readVanished
  | @replyAccepted index fileId job content nodeId slot =>
      refine ⟨index, _, State.setSlot_slots _ index _, ?_, rfl, rfl⟩
      rw [slot]
      exact .accepted
  | @replyRejected index fileId job content slot | @replyQuota index fileId job content slot =>
      refine ⟨index, _, State.setSlot_slots _ index _, ?_, rfl, rfl⟩
      rw [slot]
      exact .refused
  | @forget index fileId job content slot unlocked =>
      refine ⟨index, _, State.setSlot_slots _ index _, ?_, rfl, rfl⟩
      rw [slot]
      exact .forget
  | @popRemoved index fileId job content slot =>
      refine ⟨index, _, State.setSlot_slots _ index _, ?_, rfl, rfl⟩
      rw [slot]
      exact .popRemoved (retriesLeft_removeEntry fileId)
  | @popMissing index fileId job slot unlocked =>
      refine ⟨index, _, State.setSlot_slots _ index _, ?_, rfl, rfl⟩
      rw [slot]
      exact .popMissing (retriesLeft_removeEntry fileId)
  | @failRetry index fileId job content isFatal after slot unlocked handled =>
      have used := retriesLeft_handleFailure handled
      have same := State.handleFailure_eq handled
      have boot : after.boot = state.boot := by rw [same]
      have enqueued : after.enqueued = state.enqueued := by rw [same]
      refine ⟨index, .armed fileId, ?_, ?_, boot, enqueued⟩
      · intro other
        rw [State.setSlot_slots, show after.slots = state.slots by rw [same]]
      · rw [slot]
        exact .failRetry used
  | @failOver index fileId job content isFatal after slot unlocked handled =>
      have fewer := retriesLeft_handleFailure handled
      have same := State.handleFailure_eq handled
      have boot : after.boot = state.boot := by rw [same]
      have enqueued : after.enqueued = state.enqueued := by rw [same]
      refine ⟨index, .done, ?_, ?_, boot, enqueued⟩
      · intro other
        rw [State.setSlot_slots, show after.slots = state.slots by rw [same]]
      · rw [slot]
        exact .failOver fewer
  | @fire index fileId slot =>
      refine ⟨index, _, State.setSlot_slots _ index _, ?_, rfl, rfl⟩
      rw [slot]
      exact .fire
  | begin _ _ _ _ | moveRaises _ _ | crash | start _ _ | recover _ _ _ _ _ | recoverSkip _ _
  | recovered _ _ | resume _ _ | sweepDone _ | sweep _ _ => cases works

end Passes

/-! ## Two measures -/

/-- The slots and the retries weigh so much, a retry at the price given. -/
def Loaded (weigh : Slot γ → Nat) (price maxRetries : Nat) (state : State γ) (total : Nat) :
    Prop :=
  ∃ slots, Tally (fun index => weigh (state.slots index)) slots ∧
    total = slots + price * state.retriesLeft maxRetries

/-- The requests a slot may still send without a further retry. -/
def Slot.requestsLeft (maxRetries : Nat) : Slot γ → Nat
  | .enqueue _ _ _ (.move _ _) | .enqueue _ _ _ (.replace _ _) => maxRetries + 1
  | .enqueue _ _ _ .submit | .queued _ | .attempt _ _ .check | .attempt _ _ .read | .armed _ => 1
  | .attempt _ _ .missing | .attempt _ _ (.sent _) | .attempt _ _ (.success _)
  | .attempt _ _ (.removing _) | .attempt _ _ (.failure _ _) | .free | .done => 0

/-- The steps a slot may still take without a further retry; a retry is worth
ten. -/
def Slot.stepsLeft (maxRetries : Nat) : Slot γ → Nat
  | .enqueue _ _ _ (.move _ _) => 10 * maxRetries + 11
  | .enqueue _ _ _ (.replace _ _) => 10 * maxRetries + 10
  | .enqueue _ _ _ .submit => 9
  | .armed _ => 9
  | .queued _ => 8
  | .attempt _ _ .check => 7
  | .attempt _ _ .read => 6
  | .attempt _ _ (.sent _) => 5
  | .attempt _ _ (.success _) => 4
  | .attempt _ _ (.removing _) => 3
  | .attempt _ _ (.failure _ _) => 2
  | .attempt _ _ .missing => 1
  | .free | .done => 0

section Measures

variable {maxRetries : Nat} {state next : State γ} {label : Label} {before after : Slot γ}
  {left later : Nat}

/-- Sending a request uses one up, and nothing else adds to them. -/
theorem Passes.requestsLeft (passes : Passes maxRetries label before after left later) :
    after.requestsLeft maxRetries + later + (if label.requests then 1 else 0) ≤
      before.requestsLeft maxRetries + left := by
  cases passes <;> simp [Slot.requestsLeft, Label.requests] <;> omega

theorem Passes.stepsLeft (passes : Passes maxRetries label before after left later) :
    after.stepsLeft maxRetries + 10 * later + 1 ≤ before.stepsLeft maxRetries + 10 * left := by
  cases passes <;> simp only [Slot.stepsLeft] <;> omega

theorem Passes.live (passes : Passes maxRetries label before after left later) :
    before.live ≠ none := by
  cases passes <;> nofun

theorem Loaded.pass {weigh : Slot γ → Nat} {price total index : Nat} (cost : Nat)
    (loaded : Loaded weigh price maxRetries state total)
    (slots : ∀ other, next.slots other = if other = index then after else state.slots other)
    (pays : weigh after + price * next.retriesLeft maxRetries + cost ≤
      weigh (state.slots index) + price * state.retriesLeft maxRetries) :
    ∃ less, less + cost ≤ total ∧ Loaded weigh price maxRetries next less := by
  obtain ⟨sum, tally, rfl⟩ := loaded
  have share := tally.le index
  refine ⟨sum - weigh (state.slots index) + weigh after + price * next.retriesLeft maxRetries,
    by omega, _, tally.change index ?_ ?_, rfl⟩
  · intro other different
    rw [slots, if_neg different]
  · rw [slots, if_pos rfl]
    omega

end Measures

/-! ## Requests -/

/-- So many requests were sent, and with those to come they are no more than
the calls pay for. -/
def Charged (maxRetries count : Nat) (state : State γ) : Prop :=
  state.boot = .ready ∧ ∃ requests,
    Loaded (Slot.requestsLeft maxRetries) 1 maxRetries state requests ∧
      count + requests ≤ (maxRetries + 1) * state.enqueued.length

section Requests

variable {maxRetries : Nat} {state next : State γ} {label : Label}

theorem Charged.begin {count index second : Nat} {call : EnqueueCall} {content : γ}
    (charged : Charged maxRetries count state) (free : state.slots index = .free) :
    Charged maxRetries count (state.enqueueBegin index call second content) := by
  obtain ⟨ready, requests, ⟨sum, tally, rfl⟩, within⟩ := charged
  rw [State.enqueueBegin_eq]
  refine ⟨ready, sum + (maxRetries + 1) + state.retriesLeft maxRetries,
    ⟨sum + (maxRetries + 1), ?_, by rw [Nat.one_mul]; rfl⟩, ?_⟩
  · refine tally.change index ?_ ?_
    · intro other different
      simp only [Function.update_of_ne different]
    · simp only [Function.update_self, free]
      rfl
  · simp only [List.length_cons, Nat.mul_add, Nat.mul_one]
    omega

theorem Charged.step {count : Nat} (charged : Charged maxRetries count state)
    (alive : label ≠ .crash) (stepped : Stepped maxRetries state label next) :
    Charged maxRetries (count + if label.requests then 1 else 0) next := by
  by_cases works : label.works
  · obtain ⟨ready, requests, loaded, within⟩ := charged
    obtain ⟨index, after, slots, passes, boot, enqueued⟩ := stepped.passes works
    have pays := passes.requestsLeft
    obtain ⟨less, paid, isLess⟩ :=
      loaded.pass (if label.requests then 1 else 0) slots (by omega)
    exact ⟨boot.trans ready, less, isLess, by rw [enqueued]; omega⟩
  · have ready := charged.1
    cases stepped with
    | begin _ slot _ _ => exact charged.begin slot
    | moveRaises _ _ =>
        rw [State.removeOldFile_eq]
        exact charged
    | crash => exact absurd rfl alive
    | start boot | recover boot | recoverSkip boot | recovered boot | resume boot
    | sweepDone boot | sweep boot => simp [ready] at boot
    | move _ | replace _ | submit _ | pickNothing _ _ _ | pick _ _ _ _ | checkExists _ _
    | checkMissing _ _ | read _ _ | readVanished _ _ | replyAccepted _ | replyRejected _
    | replyQuota _ | forget _ _ | popRemoved _ | popMissing _ _ | failRetry _ _ _
    | failOver _ _ _ | fire _ => exact absurd trivial works

theorem Charged.ready (files : Dict LocalPath γ) : Charged maxRetries 0 (State.ready files) := by
  refine ⟨rfl, 0, ⟨0, Tally.zero, rfl⟩, Nat.zero_le _⟩

end Requests

/-- In every run of a manager that started on an empty queue, the attempts to
send a file are no more than `max_retries + 1` for each call of
`enqueue_file_for_upload`, whatever the storage answers. -/
theorem requests_of_worked {maxRetries count : Nat} {files : Dict LocalPath γ} {state : State γ}
    (worked : Worked (step maxRetries) (fun _ label => label ≠ .crash) (·.requests = true)
      (State.ready files) count state) :
    count ≤ (maxRetries + 1) * state.enqueued.length := by
  have charged : Charged maxRetries count state := by
    refine worked.invariant (Charged.ready files) ?_ ?_
    · intro count before label after charged alive requests taken
      have later := charged.step alive (stepped_of_step taken)
      rwa [requests] at later
    · intro count before label after charged alive silent taken
      have later := charged.step alive (stepped_of_step taken)
      rwa [if_neg silent] at later
  obtain ⟨-, requests, -, within⟩ := charged
  omega

/-- The first save fails twice, a second one is enqueued before its last
retry. -/
def retriedSave : List Label :=
  [.begin 0 (saveCall ['x']) 7, .move 0, .replace 0, .submit 0, .pick 0, .check 0, .read 0,
    .reply 0 .rejected, .fail 0, .fire 0, .pick 0, .check 0, .read 0, .reply 0 .rejected,
    .fail 0, .begin 1 (saveCall ['y']) 8, .move 1, .replace 1, .submit 1, .fire 0, .pick 0,
    .check 0, .read 0, .reply 0 (.accepted ['f']), .forget 0, .pop 0, .pick 1]

instance (label : Label) : Decidable (label ≠ .crash) :=
  match label with
  | .crash => .isFalse fun different => different rfl
  | .begin _ _ _ | .moveRaises _ | .move _ | .replace _ | .submit _ | .pick _ | .check _
  | .read _ | .reply _ _ | .forget _ | .pop _ | .fail _ | .fire _ | .start _ | .recover _ _ _
  | .recovered | .resume | .sweep _ => .isTrue nofun

theorem requests_of_worked_retriedSave :
    ∃ count finish, Worked (step 2) (fun _ label => label ≠ .crash) (·.requests = true)
        (State.ready twoSaves) count finish ∧
      finish.enqueued.length = 2 ∧ count ≤ (2 + 1) * finish.enqueued.length := by
  obtain ⟨finish, executed⟩ := Option.isSome_iff_exists.mp
    (show (run (step 2) (State.ready twoSaves) retriedSave).isSome from rfl)
  have along : AllowedAlong (step 2) (fun (_ : State Nat) label => label ≠ .crash)
      (State.ready twoSaves) retriedSave := by
    refine AllowedAlong.of_forall fun label member _ => ?_
    exact (show ∀ label ∈ retriedSave, label ≠ .crash by decide) label member
  obtain ⟨count, worked⟩ := Worked.of_reaches (Reaches.of_run along executed)
  exact ⟨count, finish, worked, look_of_run executed (·.enqueued.length) rfl,
    requests_of_worked worked⟩

/-! ## The end of the work -/

/-- A worker of the pool `upload` is busy with the slot. -/
def Slot.atWork : Slot γ → Prop
  | .attempt _ _ _ => True
  | .free | .enqueue _ _ _ _ | .queued _ | .armed _ | .done => False

/-- A free worker of the pool takes the task that is next in its queue. -/
def Pooled (workers : Workers) (takes : State γ → Nat → Prop) (state : State γ) : Label → Prop
  | .pick index => takes state index ∧
      {other | (state.slots other).atWork}.encard < workers.maxWorkers .upload
  | _ => True

/-- Somebody has the lock while it is taken. -/
def Owner (state : State γ) : Prop :=
  state.locked = true → (∃ index, (state.slots index).holdsLock) ∨
    ∃ fileIds, state.boot = .sweeping fileIds

section Drain

variable {maxRetries : Nat} {state next : State γ} {label : Label}

theorem Owner.rest (owner : Owner state) {index : Nat} {slot : Slot γ}
    (slots : ∀ other, next.slots other = if other = index then slot else state.slots other)
    (locked : next.locked = state.locked) (boot : next.boot = state.boot)
    (kept : (state.slots index).holdsLock → slot.holdsLock) : Owner next := by
  intro isLocked
  rw [locked] at isLocked
  rcases owner isLocked with ⟨holder, holds⟩ | ⟨fileIds, sweeping⟩
  · refine Or.inl ⟨holder, ?_⟩
    rw [slots]
    split
    · rename_i same
      exact kept (same ▸ holds)
    · exact holds
  · exact Or.inr ⟨fileIds, boot.trans sweeping⟩

theorem Owner.free (unlocked : next.locked = false) : Owner next := by
  intro isLocked
  rw [unlocked] at isLocked
  cases isLocked

theorem Owner.hold (index : Nat) (holds : (next.slots index).holdsLock) : Owner next :=
  fun _ => Or.inl ⟨index, holds⟩

theorem Owner.step (owner : Owner state) (stepped : Stepped maxRetries state label next) :
    Owner next := by
  have rests {index : Nat} {before after : Slot γ} (slot : state.slots index = before)
      (idle : ¬ before.holdsLock) : Owner (state.setSlot index after) :=
    owner.rest (State.setSlot_slots _ index _) rfl rfl fun holds => absurd (slot ▸ holds) idle
  cases stepped with
  | @begin index call second content ready slot temp unlocked
  | @recover index uuid second name names call content boot parsed slot temp unlocked =>
      refine Owner.hold index ?_
      rw [State.enqueueBegin_eq]
      simp [Slot.holdsLock]
  | @move index call serial content safePath retries slot =>
      refine Owner.hold index ?_
      simp [Slot.holdsLock]
  | @replace index call serial content safePath retries slot => exact Owner.free rfl
  | popRemoved _ | popMissing _ _ | sweepDone _ => exact Owner.free rfl
  | @forget index fileId job content slot unlocked =>
      refine Owner.hold index ?_
      simp [Slot.holdsLock]
  | crash => exact Owner.free rfl
  | moveRaises _ unlocked =>
      rw [State.removeOldFile_eq]
      exact Owner.free unlocked
  | submit slot | pickNothing slot _ _ | pick slot _ _ _ | checkExists slot _
  | checkMissing slot _ | read slot _ | readVanished slot _ | replyAccepted slot
  | replyRejected slot | replyQuota slot | fire slot => exact rests slot not_false
  | @failRetry index fileId job content isFatal after slot unlocked handled
  | @failOver index fileId job content isFatal after slot unlocked handled =>
      rw [State.handleFailure_eq handled]
      exact Owner.free unlocked
  | start off _ =>
      intro isLocked
      rcases owner isLocked with holds | ⟨fileIds, sweeping⟩
      · exact Or.inl holds
      · simp [off] at sweeping
  | recoverSkip boot _ | recovered boot _ =>
      intro isLocked
      rcases owner isLocked with holds | ⟨fileIds, sweeping⟩
      · exact Or.inl holds
      · simp [boot] at sweeping
  | resume _ _ => exact fun _ => Or.inr ⟨_, rfl⟩
  | @sweep index fileId fileIds boot slot => exact fun _ => Or.inr ⟨_, rfl⟩

/-- What the progress of the workers rests on. -/
structure Staffed (state : State γ) : Prop where
  owner : Owner state
  attended : Attended state

theorem Staffed.of_reaches {allowed : State γ → Label → Prop} {start : State γ}
    (off : start.boot = .off) (unlocked : start.locked = false)
    (reached : Reaches (step maxRetries) allowed start state) : Staffed state where
  owner := reached.invariant (fun owner _ taken => owner.step (stepped_of_step taken))
    (Owner.free unlocked)
  attended := reached.invariant (fun attended _ taken => attended.step (stepped_of_step taken))
    fun running => absurd off running

end Drain

section Progress

variable {maxRetries : Nat} {workers : Workers} {takes : State γ → Nat → Prop} {state : State γ}

/-- The holder of the lock has a step. -/
theorem holder_works {index : Nat} (holds : (state.slots index).holdsLock) :
    ∃ label next, label.works ∧ Pooled workers takes state label ∧
      step maxRetries state label = some next := by
  cases slot : state.slots index with
  | enqueue call serial content point =>
      cases point with
      | move safePath retries =>
          exact ⟨.move index, _, trivial, trivial, by simp only [step, slotStep, slot]; rfl⟩
      | replace safePath retries =>
          exact ⟨.replace index, _, trivial, trivial, by simp only [step, slotStep, slot]; rfl⟩
      | submit =>
          rw [slot] at holds
          cases holds
  | attempt fileId job point =>
      cases point with
      | removing content =>
          exact ⟨.pop index, _, trivial, trivial, by simp only [step, slotStep, slot]; rfl⟩
      | check | missing | read | sent _ | success _ | failure _ _ =>
          rw [slot] at holds
          cases holds
  | free | queued _ | armed _ | done =>
      rw [slot] at holds
      cases holds

/-- An attempt has a step once the lock is free. -/
theorem attempt_works {index : Nat} {fileId : Str} {job : Job γ} {point : AttemptPoint γ}
    (slot : state.slots index = .attempt fileId job point) (unlocked : state.locked = false) :
    ∃ label next, label.works ∧ Pooled workers takes state label ∧
      step maxRetries state label = some next := by
  cases point with
  | check =>
      refine ⟨.check index, ?_⟩
      simp only [step, slotStep, slot]
      split <;> exact ⟨_, trivial, trivial, rfl⟩
  | read =>
      refine ⟨.read index, ?_⟩
      simp only [step, slotStep, slot]
      split <;> exact ⟨_, trivial, trivial, rfl⟩
  | sent content =>
      exact ⟨.reply index .rejected, _, trivial, trivial, by simp only [step, slotStep, slot]; rfl⟩
  | success content =>
      refine ⟨.forget index, ?_⟩
      simp only [step, slotStep, slot, unlocked]
      exact ⟨_, trivial, trivial, rfl⟩
  | missing =>
      refine ⟨.pop index, ?_⟩
      simp only [step, slotStep, slot, unlocked]
      exact ⟨_, trivial, trivial, rfl⟩
  | removing content =>
      refine ⟨.pop index, ?_⟩
      simp only [step, slotStep, slot]
      exact ⟨_, trivial, trivial, rfl⟩
  | failure content isFatal =>
      refine ⟨.fail index, ?_⟩
      simp only [step, slotStep, slot, unlocked]
      cases handled : state.handleFailure maxRetries fileId isFatal with
      | mk after armed => cases armed <;> exact ⟨_, trivial, trivial, rfl⟩

/-- While a call, a task or a timer is left, somebody has a step. -/
theorem Staffed.works (staffed : Staffed state) (ready : state.boot = .ready)
    (serves : ∀ index fileId, state.slots index = .queued fileId →
      ∃ first other, state.slots first = .queued other ∧ takes state first)
    {index : Nat} {fileId : Str} (live : (state.slots index).live = some fileId) :
    ∃ label next, label.works ∧ Pooled workers takes state label ∧
      step maxRetries state label = some next := by
  by_cases locked : state.locked = true
  · rcases staffed.owner locked with ⟨holder, holds⟩ | ⟨fileIds, sweeping⟩
    · exact holder_works holds
    · rw [ready] at sweeping
      cases sweeping
  · have unlocked : state.locked = false := by simpa using locked
    cases slot : state.slots index with
    | free | done =>
        rw [slot] at live
        cases live
    | enqueue call serial content point =>
        cases point with
        | move _ _ | replace _ _ => exact holder_works (by rw [slot]; trivial)
        | submit =>
            exact ⟨.submit index, _, trivial, trivial, by simp only [step, slotStep, slot]; rfl⟩
    | attempt other job point => exact attempt_works slot unlocked
    | armed other =>
        exact ⟨.fire index, _, trivial, trivial, by simp only [step, slotStep, slot]; rfl⟩
    | queued other =>
        -- either the pool has a worker for it, or some worker is at an attempt
        by_cases busy : ∃ another, (state.slots another).atWork
        · obtain ⟨another, atWork⟩ := busy
          cases isSlot : state.slots another with
          | attempt fileId job point => exact attempt_works isSlot unlocked
          | free | enqueue _ _ _ _ | queued _ | armed _ | done =>
              rw [isSlot] at atWork
              cases atWork
        · obtain ⟨first, firstId, isQueued, taken⟩ := serves index other slot
          have room : {another | (state.slots another).atWork}.encard <
              workers.maxWorkers .upload := by
            rw [not_exists] at busy
            have nobody : {another | (state.slots another).atWork} = ∅ :=
              Set.eq_empty_of_forall_notMem busy
            rw [nobody, Set.encard_empty]
            simp [Workers.maxWorkers]
          refine ⟨.pick first, ?_⟩
          simp only [step, slotStep, isQueued, unlocked]
          cases entry : state.queue.lookup firstId with
          | none => exact ⟨_, trivial, ⟨taken, room⟩, rfl⟩
          | some job =>
              by_cases pending : job.status = .pending
              · exact ⟨_, trivial, ⟨taken, room⟩, by simp [pending]; rfl⟩
              · exact ⟨_, trivial, ⟨taken, room⟩, by simp [pending]; rfl⟩

/-- The workers stand still exactly where every call and task has ended and
every timer has fired. -/
theorem Staffed.settled_iff (staffed : Staffed state) (ready : state.boot = .ready)
    (serves : ∀ index fileId, state.slots index = .queued fileId →
      ∃ first other, state.slots first = .queued other ∧ takes state first) :
    Transition.Settled (step maxRetries) (Pooled workers takes) Label.works state ↔
      ∀ index, (state.slots index).live = none := by
  constructor
  · intro settled index
    by_contra lives
    obtain ⟨fileId, live⟩ := Option.ne_none_iff_exists'.mp lives
    obtain ⟨label, next, works, pooled, taken⟩ := staffed.works ready serves live
    rw [settled label pooled works] at taken
    cases taken
  · rintro ended label - works
    rw [Option.eq_none_iff_forall_ne_some]
    intro next taken
    obtain ⟨index, after, -, passes, -⟩ := (stepped_of_step taken).passes works
    exact passes.live (ended index)

end Progress

theorem Stepped.slots {maxRetries : Nat} {state next : State γ} {label : Label}
    (stepped : Stepped maxRetries state label next) :
    (∃ index after, ∀ other, next.slots other = if other = index then after
      else state.slots other) ∨ next.slots = fun _ => .free := by
  have still (same : next.slots = state.slots) : ∃ index after, ∀ other,
      next.slots other = if other = index then after else state.slots other := by
    refine ⟨0, state.slots 0, fun other => ?_⟩
    rw [same]
    split
    · rename_i isZero
      rw [isZero]
    · rfl
  by_cases works : label.works
  · obtain ⟨index, after, slots, -⟩ := stepped.passes works
    exact Or.inl ⟨index, after, slots⟩
  · cases stepped with
    | @begin index call second content _ _ _ _ =>
        exact Or.inl ⟨index, _, State.enqueueBegin_slots state index call second content⟩
    | @recover index uuid second name names call content _ _ _ _ _ =>
        exact Or.inl ⟨index, _, State.enqueueBegin_slots state index call second content⟩
    | @sweep index fileId fileIds _ _ => exact Or.inl ⟨index, _, State.setSlot_slots _ index _⟩
    | crash => exact Or.inr rfl
    | moveRaises _ _ =>
        exact Or.inl (still (by rw [State.removeOldFile_eq]))
    | start _ _ | recoverSkip _ _ | recovered _ _ | resume _ _ | sweepDone _ =>
        exact Or.inl (still rfl)
    | move _ | replace _ | submit _ | pickNothing _ _ _ | pick _ _ _ _ | checkExists _ _
    | checkMissing _ _ | read _ _ | readVanished _ _ | replyAccepted _ | replyRejected _
    | replyQuota _ | forget _ _ | popRemoved _ | popMissing _ _ | failRetry _ _ _
    | failOver _ _ _ | fire _ => exact absurd trivial works

theorem tally_of_reaches {maxRetries : Nat} {allowed : State γ → Label → Prop}
    {start state : State γ} {weigh : Slot γ → Nat} (free : weigh .free = 0)
    (fresh : ∀ index, start.slots index = .free)
    (reached : Reaches (step maxRetries) allowed start state) :
    ∃ total, Tally (fun index => weigh (state.slots index)) total := by
  have none {state : State γ} (isFree : ∀ index, state.slots index = .free) :
      ∃ total, Tally (fun index => weigh (state.slots index)) total :=
    ⟨0, Tally.zero.congr fun index => by rw [isFree index, free]⟩
  induction reached with
  | refl => exact none fresh
  | @tail before next _ last induction =>
      obtain ⟨label, -, taken⟩ := last
      obtain ⟨total, tally⟩ := induction
      rcases (stepped_of_step taken).slots with ⟨index, after, slots⟩ | allFree
      · have share := tally.le index
        refine ⟨total - weigh (before.slots index) + weigh after, tally.change index ?_ ?_⟩
        · intro other different
          rw [slots, if_neg different]
        · rw [slots, if_pos rfl]
          omega
      · exact none fun index => congrFun allFree index

/-- Once the start-up is over and nothing more is enqueued, the upload queue
drains, however the storage answers and in whatever order the pool takes its
tasks.  The steps of the calls, workers and timers are bounded; they go on
until every task has ended and every timer has fired; and then every entry of
the queue has been given up. -/
theorem drains {maxRetries : Nat} {workers : Workers} {takes : State γ → Nat → Prop}
    (serves : ∀ state index fileId, state.slots index = .queued fileId →
      ∃ first other, state.slots first = .queued other ∧ takes state first)
    {start state : State γ} (off : start.boot = .off) (unlocked : start.locked = false)
    (fresh : ∀ index, start.slots index = .free)
    (reached : Reaches (step maxRetries) (Pooled workers takes) start state)
    (ready : state.boot = .ready) :
    (∃ steps, ∀ count finish, Worked (step maxRetries)
      (fun state label => Pooled workers takes state label ∧ label.works) Label.works
      state count finish → count ≤ steps) ∧
    ∀ finish, Reaches (step maxRetries)
      (fun state label => Pooled workers takes state label ∧ label.works) state finish →
      (Transition.Settled (step maxRetries) (Pooled workers takes) Label.works finish ↔
        ∀ index, (finish.slots index).live = none) ∧
      ((∀ index, (finish.slots index).live = none) →
        ∀ fileId job, finish.queue.lookup fileId = some job → job.status = .failed) := by
  constructor
  · obtain ⟨slots, tally⟩ :=
      tally_of_reaches (show Slot.stepsLeft maxRetries Slot.free = 0 from rfl) fresh reached
    refine ⟨slots + 10 * state.retriesLeft maxRetries, fun count finish worked => ?_⟩
    obtain ⟨rest, within, -⟩ := worked.bounded
      (show Loaded (Slot.stepsLeft maxRetries) 10 maxRetries state _ from ⟨slots, tally, rfl⟩)
      (fun loaded allowed _ taken => by
        obtain ⟨index, after, slots, passes, -⟩ := (stepped_of_step taken).passes allowed.2
        obtain ⟨less, paid, isLess⟩ := loaded.pass 1 slots passes.stepsLeft
        exact ⟨less, by omega, isLess⟩)
      (fun _ allowed idle _ => absurd allowed.2 idle)
    omega
  · intro finish goes
    have boots {before after : State γ} {label : Label} (wasReady : before.boot = .ready)
        (works : label.works) (taken : step maxRetries before label = some after) :
        after.boot = .ready := by
      obtain ⟨_, _, -, -, boot, -⟩ := (stepped_of_step taken).passes works
      exact boot.trans wasReady
    have isReady : finish.boot = .ready :=
      goes.invariant (fun wasReady allowed taken => boots wasReady allowed.2 taken) ready
    have staffed : Staffed finish := Staffed.of_reaches off unlocked
      (reached.trans (goes.mono fun _ _ allowed => allowed.1))
    refine ⟨staffed.settled_iff isReady (serves finish), ?_⟩
    intro ended fileId job entry
    cases status : job.status with
    | failed => rfl
    | pending =>
        rcases tended_iff.mp (staffed.attended (by simp [isReady]) fileId ⟨job, entry, status⟩) with
          ⟨index, live⟩ | starting
        · rw [ended index] at live
          cases live
        · rw [isReady] at starting
          cases starting

/-- A start-up that finds no work, and a save up to its submission. -/
def startedSave : List Label :=
  [.start [['y'], ['x']], .recover 0 ['u'] 7, .recover 0 ['u'] 7, .resume, .sweep 0,
    .begin 0 (saveCall ['x']) 7, .move 0, .replace 0, .submit 0]

theorem drains_startedSave :
    ∃ state, run (step 5) (State.stopped twoSaves) startedSave = some state ∧
      (state.slots 0).live = some ['f'] ∧
      (∃ steps, ∀ count finish, Worked (step 5)
        (fun state label => Pooled {} (fun _ _ => True) state label ∧ label.works) Label.works
        state count finish → count ≤ steps) ∧
      ∀ finish, Reaches (step 5)
        (fun state label => Pooled {} (fun _ _ => True) state label ∧ label.works) state finish →
        (Transition.Settled (step 5) (Pooled {} fun _ _ => True) Label.works finish ↔
          ∀ index, (finish.slots index).live = none) ∧
        ((∀ index, (finish.slots index).live = none) →
          ∀ fileId job, finish.queue.lookup fileId = some job → job.status = .failed) := by
  obtain ⟨state, executed⟩ := Option.isSome_iff_exists.mp
    (show (run (step 5) (State.stopped twoSaves) startedSave).isSome from rfl)
  have along : AllowedAlong (step 5) (Pooled {} fun _ _ => True) (State.stopped twoSaves)
      startedSave := by
    refine AllowedAlong.of_forall fun label member _ => ?_
    cases label with
    | pick index => simp [startedSave] at member
    | begin _ _ _ | moveRaises _ | move _ | replace _ | submit _ | check _ | read _ | reply _ _
    | forget _ | pop _ | fail _ | fire _ | crash | start _ | recover _ _ _ | recovered | resume
    | sweep _ => trivial
  exact ⟨state, executed, look_of_run executed (fun state => (state.slots 0).live) rfl,
    drains (fun _ index fileId queued => ⟨index, fileId, queued, trivial⟩) rfl rfl
      (fun _ => rfl) (Reaches.of_run along executed) (look_of_run executed State.boot rfl)⟩

end FuseDrive.Upload
