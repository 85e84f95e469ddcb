import FuseDrive.Upload.OwnFate

/-!
# The retry budget

`_handle_failure` counts failures on whatever entry the queue holds for the id,
and `enqueue_file_for_upload` hands the counter of the entry it replaces on to
the new one.  So the counter belongs to the id and not to the content that is
to be sent: it is the number of failures of the content only as long as no
call finds a used counter of another content, and no failure arrives after the
entry was replaced.

The failures themselves leave no trace in the program, so the system is watched
by a history of them.  The type of contents is a parameter with a decidable
equality, and it may well tell two saves of the same bytes apart.
-/

namespace FuseDrive.Upload

open Transition

variable {γ : Type} [DecidableEq γ]

/-- An attempt that raised: the id it worked for and the content it tried to
send. -/
structure Failure (γ : Type) where
  fileId : Str
  content : γ
  isFatal : Bool

/-- The manager and the failures it has handled so far, newest first. -/
structure Watched (γ : Type) where
  manager : State γ
  failures : List (Failure γ)

/-- The number of failed attempts to send a content for an id. -/
def failuresOf (failures : List (Failure γ)) (fileId : Str) (content : γ) : Nat :=
  failures.countP fun failure => failure.fileId = fileId ∧ failure.content = content

/-- An attempt to send the content for the id ran into the storage quota. -/
def HitQuota (failures : List (Failure γ)) (fileId : Str) (content : γ) : Prop :=
  ∃ failure ∈ failures, failure.fileId = fileId ∧ failure.content = content ∧
    failure.isFatal = true

namespace Watched

/-- The history after a step: `_handle_failure` is one more failure. -/
def record (watched : Watched γ) : Label → List (Failure γ)
  | .fail index =>
      match watched.manager.slots index with
      | .attempt fileId _ (.failure content isFatal) =>
          ⟨fileId, content, isFatal⟩ :: watched.failures
      | _ => watched.failures
  | _ => watched.failures

def step (maxRetries : Nat) (watched : Watched γ) (label : Label) : Option (Watched γ) :=
  (Upload.step maxRetries watched.manager label).map fun next =>
    ⟨next, watched.record label⟩

def stopped (files : Dict LocalPath γ) : Watched γ :=
  ⟨State.stopped files, []⟩

/-- A pending entry is within its budget, and a failed one has used up the
budget of the content it holds. -/
def BudgetKept (maxRetries : Nat) (watched : Watched γ) : Prop :=
  ∀ fileId job, watched.manager.queue.lookup fileId = some job →
    (job.status = .pending → job.retries ≤ maxRetries) ∧
    (job.status = .failed →
      maxRetries + 1 ≤ failuresOf watched.failures fileId job.content ∨
        HitQuota watched.failures fileId job.content)

end Watched

/-! ## The discipline -/

/-- The entry the call replaces has an unused counter, or it is pending and was
made for the very content the call brings. -/
def FreshCounter (state : State γ) (call : EnqueueCall) : Prop :=
  match state.queue.lookup call.fileId, state.files.lookup (.journal call.tempName) with
  | some entry, some content =>
      entry.retries = 0 ∨ entry.status = .pending ∧ entry.content = content
  | _, _ => True

/-- The failed attempt tried what the entry holds, or the entry is failed
already. -/
def CountsOwn (state : State γ) : Slot γ → Prop
  | .attempt fileId _ (.failure content _) =>
      match state.queue.lookup fileId with
      | some entry => entry.status = .failed ∨ entry.content = content
      | none => True
  | _ => True

def OwnBudget (state : State γ) : Label → Prop
  | .begin _ call _ => FreshCounter state call
  | .recover _ uuid _ =>
      match state.boot with
      | .recovering (name :: _) =>
          match recoveryCall uuid name with
          | some call => FreshCounter state call
          | none => True
      | _ => True
  | .fail index => CountsOwn state (state.slots index)
  | _ => True

omit [DecidableEq γ] in
theorem FreshCounter.spec {state : State γ} {call : EnqueueCall} {content : γ}
    (fresh : FreshCounter state call)
    (temp : state.files.lookup (.journal call.tempName) = some content) {entry : Job γ}
    (found : state.queue.lookup call.fileId = some entry) :
    entry.retries = 0 ∨ entry.status = .pending ∧ entry.content = content := by
  simpa [FreshCounter, found, temp] using fresh

/-! ## The invariant -/

/-- The counter of an entry counts failures of what the entry holds. -/
def EntryBudget (maxRetries : Nat) (failures : List (Failure γ)) (fileId : Str)
    (job : Job γ) : Prop :=
  match job.status with
  | .pending =>
      job.retries ≤ maxRetries ∧ job.retries ≤ failuresOf failures fileId job.content
  | .failed =>
      maxRetries + 1 ≤ failuresOf failures fileId job.content ∨
        HitQuota failures fileId job.content

/-- So does the counter an `enqueue_file_for_upload` call is about to hand on. -/
def SlotBudget (maxRetries : Nat) (failures : List (Failure γ)) : Slot γ → Prop
  | .enqueue call _ content (.move _ retries) | .enqueue call _ content (.replace _ retries) =>
      retries ≤ maxRetries ∧ retries ≤ failuresOf failures call.fileId content
  | _ => True

structure Budgeted (maxRetries : Nat) (state : State γ) (failures : List (Failure γ)) :
    Prop where
  queue : ∀ fileId job, state.queue.lookup fileId = some job →
    EntryBudget maxRetries failures fileId job
  saved : ∀ fileId job, state.savedQueue.lookup fileId = some job →
    EntryBudget maxRetries failures fileId job
  slots : ∀ index, SlotBudget maxRetries failures (state.slots index)

/-! ## A longer history -/

theorem failuresOf_cons (failure : Failure γ) (failures : List (Failure γ)) (fileId : Str)
    (content : γ) :
    failuresOf failures fileId content ≤ failuresOf (failure :: failures) fileId content := by
  rw [failuresOf, failuresOf, List.countP_cons]
  exact Nat.le_add_right _ _

theorem failuresOf_cons_self (failures : List (Failure γ)) (fileId : Str) (content : γ)
    (isFatal : Bool) :
    failuresOf (⟨fileId, content, isFatal⟩ :: failures) fileId content =
      failuresOf failures fileId content + 1 := by
  simp [failuresOf]

omit [DecidableEq γ] in
theorem HitQuota.cons {failures : List (Failure γ)} {fileId : Str} {content : γ}
    (hit : HitQuota failures fileId content) (failure : Failure γ) :
    HitQuota (failure :: failures) fileId content := by
  obtain ⟨earlier, member, facts⟩ := hit
  exact ⟨earlier, List.mem_cons_of_mem _ member, facts⟩

theorem EntryBudget.cons {maxRetries : Nat} {failures : List (Failure γ)} {fileId : Str}
    {job : Job γ} (budget : EntryBudget maxRetries failures fileId job)
    (failure : Failure γ) : EntryBudget maxRetries (failure :: failures) fileId job := by
  have more := failuresOf_cons failure failures fileId job.content
  unfold EntryBudget at budget ⊢
  cases status : job.status with
  | pending =>
      simp only [status] at budget ⊢
      exact ⟨budget.1, budget.2.trans more⟩
  | failed =>
      simp only [status] at budget ⊢
      rcases budget with enough | hit
      · exact Or.inl (enough.trans more)
      · exact Or.inr (hit.cons failure)

theorem SlotBudget.cons {maxRetries : Nat} {failures : List (Failure γ)} {slot : Slot γ}
    (budget : SlotBudget maxRetries failures slot) (failure : Failure γ) :
    SlotBudget maxRetries (failure :: failures) slot := by
  cases slot with
  | enqueue call serial content point =>
      cases point with
      | move safePath retries | replace safePath retries =>
          exact ⟨budget.1, budget.2.trans (failuresOf_cons failure failures _ _)⟩
      | submit => trivial
  | free | queued _ | attempt _ _ _ | armed _ | done => trivial

theorem EntryBudget.fail {maxRetries : Nat} {failures : List (Failure γ)} {fileId : Str}
    {job : Job γ} {content : γ} (budget : EntryBudget maxRetries failures fileId job)
    (own : job.status = .failed ∨ job.content = content) (isFatal : Bool) :
    EntryBudget maxRetries (⟨fileId, content, isFatal⟩ :: failures) fileId
      (State.failedJob maxRetries job isFatal) := by
  cases status : job.status with
  | failed =>
      have still : (State.failedJob maxRetries job isFatal).status = .failed := by
        simp [State.failedJob, status]
      have longer := budget.cons ⟨fileId, content, isFatal⟩
      simp only [EntryBudget, status] at longer
      simp only [EntryBudget, still]
      exact longer
  | pending =>
      have same : job.content = content := by simpa [status] using own
      subst same
      simp only [EntryBudget, status] at budget
      have counted := failuresOf_cons_self failures fileId job.content isFatal
      by_cases spent : maxRetries < job.retries + 1 ∨ isFatal
      · have gone : (State.failedJob maxRetries job isFatal).status = .failed :=
          (State.failedJob_status maxRetries job isFatal).trans (if_pos spent)
        simp only [EntryBudget, gone]
        rcases spent with exhausted | fatal
        · left
          show maxRetries + 1 ≤ failuresOf _ fileId job.content
          omega
        · exact Or.inr ⟨_, List.mem_cons_self, rfl, rfl, fatal⟩
      · have kept : (State.failedJob maxRetries job isFatal).status = .pending := by
          rw [State.failedJob_status, if_neg spent, status]
        simp only [EntryBudget, kept]
        obtain ⟨within, -⟩ := not_or.mp spent
        constructor
        · exact Nat.le_of_not_lt within
        · show job.retries + 1 ≤ failuresOf _ fileId job.content
          omega

/-! ## Steps -/

section Steps

variable {maxRetries : Nat} {state next : State γ} {failures : List (Failure γ)}

theorem Budgeted.setSlot (budgeted : Budgeted maxRetries state failures) (index : Nat)
    (slot : Slot γ) (queue : next.queue = state.queue)
    (saved : next.savedQueue = state.savedQueue)
    (slots : next.slots = (state.setSlot index slot).slots)
    (ok : SlotBudget maxRetries failures slot) : Budgeted maxRetries next failures := by
  refine ⟨?_, ?_, ?_⟩
  · rw [queue]
    exact budgeted.queue
  · rw [saved]
    exact budgeted.saved
  · intro other
    rw [slots, State.setSlot_slots]
    split
    · exact ok
    · exact budgeted.slots other

theorem Budgeted.save (budgeted : Budgeted maxRetries state failures) (index : Nat)
    (slot : Slot γ) (saved : next.savedQueue = next.queue)
    (slots : next.slots = (state.setSlot index slot).slots)
    (ok : SlotBudget maxRetries failures slot)
    (entries : ∀ fileId job, next.queue.lookup fileId = some job →
      EntryBudget maxRetries failures fileId job) : Budgeted maxRetries next failures := by
  refine ⟨entries, ?_, ?_⟩
  · rw [saved]
    exact entries
  · intro other
    rw [slots, State.setSlot_slots]
    split
    · exact ok
    · exact budgeted.slots other

theorem Budgeted.cons (budgeted : Budgeted maxRetries state failures)
    (failure : Failure γ) : Budgeted maxRetries state (failure :: failures) :=
  ⟨fun fileId job found => (budgeted.queue fileId job found).cons failure,
    fun fileId job found => (budgeted.saved fileId job found).cons failure,
    fun index => (budgeted.slots index).cons failure⟩

theorem Budgeted.begin (budgeted : Budgeted maxRetries state failures) (index second : Nat)
    {call : EnqueueCall} {content : γ} (fresh : FreshCounter state call)
    (temp : state.files.lookup (.journal call.tempName) = some content)
    (queue : next.queue = state.queue) (saved : next.savedQueue = state.savedQueue)
    (slots : next.slots = (state.enqueueBegin index call second content).slots) :
    Budgeted maxRetries next failures := by
  rw [State.enqueueBegin_eq] at slots
  apply budgeted.setSlot index _ queue saved slots
  show state.existingRetries call.fileId ≤ maxRetries ∧
    state.existingRetries call.fileId ≤ failuresOf failures call.fileId content
  cases found : state.queue.lookup call.fileId with
  | none => simp [State.existingRetries, found]
  | some entry =>
      have handed : state.existingRetries call.fileId = entry.retries := by
        simp [State.existingRetries, found]
      rw [handed]
      rcases fresh.spec temp found with unused | ⟨pending, same⟩
      · simp [unused]
      · have budget := budgeted.queue _ _ found
        simpa only [EntryBudget, pending, same] using budget

theorem Budgeted.replace (budgeted : Budgeted maxRetries state failures)
    {index serial retries : Nat} {call : EnqueueCall} {content : γ} {safePath : LocalPath}
    (slot : state.slots index = .enqueue call serial content (.replace safePath retries)) :
    Budgeted maxRetries ((state.enqueueReplace call serial content safePath retries).setSlot
      index (.enqueue call serial content .submit)) failures := by
  refine budgeted.save index (.enqueue call serial content .submit) ?_ ?_ trivial ?_
  · rfl
  · rfl
  intro fileId job found
  have budget := budgeted.slots index
  rw [slot] at budget
  simp only [State.setSlot_queue, State.enqueueReplace, State.persistUploadQueueToDisk,
    Dict.lookup_insert_eq] at found
  split at found
  · rename_i same
    cases found
    subst same
    exact budget
  · exact budgeted.queue fileId job found

theorem Budgeted.remove (budgeted : Budgeted maxRetries state failures) (index : Nat)
    (fileId : Str) :
    Budgeted maxRetries ((state.removeEntry fileId).setSlot index .done) failures := by
  refine budgeted.save index .done ?_ ?_ trivial ?_
  · rfl
  · rfl
  intro other job found
  simp only [State.setSlot_queue, State.removeEntry, State.persistUploadQueueToDisk,
    Dict.lookup_erase_eq] at found
  split at found
  · cases found
  · exact budgeted.queue other job found

theorem Budgeted.fail (budgeted : Budgeted maxRetries state failures) {index : Nat}
    {fileId : Str} {job : Job γ} {content : γ} {isFatal armed : Bool} (slot : Slot γ)
    (before : state.slots index = .attempt fileId job (.failure content isFatal))
    (own : CountsOwn state (state.slots index))
    (handled : state.handleFailure maxRetries fileId isFatal = (next, armed))
    (ok : ∀ failures, SlotBudget maxRetries failures slot) :
    Budgeted maxRetries (next.setSlot index slot) (⟨fileId, content, isFatal⟩ :: failures) := by
  have longer := budgeted.cons ⟨fileId, content, isFatal⟩
  have slotsSame : next.slots = state.slots := by rw [State.handleFailure_eq handled]
  rcases State.handleFailure_saved handled with same | saved
  · rw [same]
    exact longer.setSlot index slot rfl rfl rfl (ok _)
  · apply longer.save index slot
    · exact saved
    · rw [State.setSlot, State.setSlot, slotsSame]
    · exact ok _
    · intro other entry found
      rw [State.setSlot_queue, State.handleFailure_lookup handled] at found
      split at found
      · rename_i same
        obtain ⟨old, isOld, rfl⟩ := Option.map_eq_some_iff.mp found
        subst same
        apply (budgeted.queue other old isOld).fail
        simpa [CountsOwn, before, isOld] using own
      · exact longer.queue other entry found

end Steps

theorem Budgeted.step {maxRetries : Nat} {watched after : Watched γ} {label : Label}
    (budgeted : Budgeted maxRetries watched.manager watched.failures)
    (own : OwnBudget watched.manager label)
    (taken : watched.step maxRetries label = some after) :
    Budgeted maxRetries after.manager after.failures := by
  obtain ⟨next, stepped, rfl⟩ := Option.map_eq_some_iff.mp taken
  replace stepped := stepped_of_step stepped
  cases stepped with
  | begin ready slot temp unlocked =>
      refine budgeted.begin _ _ own temp ?_ ?_ rfl
      · rw [State.enqueueBegin_eq]
      · rw [State.enqueueBegin_eq]
  | moveRaises _ _ =>
      rw [State.removeOldFile_eq]
      exact ⟨budgeted.queue, budgeted.saved, budgeted.slots⟩
  | move slot =>
      rename_i index call serial content safePath retries
      have budget := budgeted.slots index
      rw [slot] at budget
      rw [State.moveFile_eq]
      exact budgeted.setSlot _ _ rfl rfl rfl budget
  | replace slot => exact budgeted.replace slot
  | submit slot | pickNothing slot _ _ | pick slot _ _ _ | checkExists slot _
  | checkMissing slot _ | read slot _ | readVanished slot _ | replyAccepted slot
  | replyRejected slot | replyQuota slot | forget slot _ | fire slot =>
      exact budgeted.setSlot _ _ rfl rfl rfl trivial
  | popRemoved slot => exact budgeted.remove _ _
  | popMissing slot unlocked => exact budgeted.remove _ _
  | failRetry slot unlocked handled =>
      rename_i index fileId job content isFatal after
      have recorded := budgeted.fail (.armed fileId) slot own handled (fun _ => trivial)
      simpa only [Watched.record, slot] using recorded
  | failOver slot unlocked handled =>
      have recorded := budgeted.fail .done slot own handled (fun _ => trivial)
      simpa only [Watched.record, slot] using recorded
  | crash => exact ⟨by simp [State.crash], budgeted.saved, fun _ => trivial⟩
  | start off listed => exact ⟨budgeted.saved, budgeted.saved, budgeted.slots⟩
  | recover boot parsed slot temp unlocked =>
      rename_i index uuid second name names call content
      have fresh : FreshCounter watched.manager call := by
        simpa only [OwnBudget, boot, parsed] using own
      refine budgeted.begin index second fresh temp ?_ ?_ rfl
      · simp only [State.enqueueBegin_eq]
      · simp only [State.enqueueBegin_eq]
  | recoverSkip boot parsed | recovered boot returned | resume boot unlocked
  | sweepDone boot =>
      exact ⟨budgeted.queue, budgeted.saved, budgeted.slots⟩
  | sweep boot slot => exact budgeted.setSlot _ _ rfl rfl rfl trivial

/-- In every run in which no call takes over a used counter of another content
and no failure is counted on an entry of another content, the retry budget is
that of the content. -/
theorem budgetKept_of_reaches {maxRetries : Nat} {files : Dict LocalPath γ}
    {finish : Watched γ}
    (reached : Reaches (Watched.step maxRetries)
      (fun watched label => OwnBudget watched.manager label) (Watched.stopped files) finish) :
    finish.BudgetKept maxRetries := by
  have initial : Budgeted maxRetries (State.stopped files) [] :=
    ⟨by simp [State.stopped], by simp [State.stopped], fun _ => trivial⟩
  have budgeted : Budgeted maxRetries finish.manager finish.failures :=
    @Reaches.invariant _ _ _ _
      (fun watched => Budgeted maxRetries watched.manager watched.failures)
      (fun budgeted own taken => budgeted.step own taken) _ _ reached initial
  intro fileId job found
  have budget := budgeted.queue fileId job found
  constructor
  · intro pending
    simp only [EntryBudget, pending] at budget
    exact budget.1
  · intro failed
    simpa only [EntryBudget, failed] using budget

instance (state : State γ) (call : EnqueueCall) : Decidable (FreshCounter state call) := by
  unfold FreshCounter
  split <;> infer_instance

instance (state : State γ) (slot : Slot γ) : Decidable (CountsOwn state slot) := by
  unfold CountsOwn
  split
  · split <;> infer_instance
  · infer_instance

instance (state : State γ) : (label : Label) → Decidable (OwnBudget state label)
  | .begin _ call _ => inferInstanceAs (Decidable (FreshCounter state call))
  | .fail index => inferInstanceAs (Decidable (CountsOwn state (state.slots index)))
  | .recover _ uuid _ => by
      unfold OwnBudget
      rcases state.boot with _ | ⟨_ | ⟨name, names⟩⟩ | _ | _ | _
      case recovering.cons =>
        dsimp only
        cases recoveryCall uuid name with
        | none => exact inferInstanceAs (Decidable True)
        | some call => exact inferInstanceAs (Decidable (FreshCounter state call))
      all_goals exact inferInstanceAs (Decidable True)
  | .moveRaises _ | .move _ | .replace _ | .submit _ | .pick _ | .check _ | .read _
  | .reply _ _ | .forget _ | .pop _ | .fire _ | .crash | .start _ | .recovered | .resume
  | .sweep _ =>
      inferInstanceAs (Decidable True)

/-- Start on an empty queue and save the file `f` once. -/
def saveFirst : List Label :=
  [.start [['y'], ['x']], .recover 0 ['u'] 7, .recover 0 ['u'] 7, .resume, .sweep 0,
    .begin 0 (saveCall ['x']) 7, .move 0, .replace 0, .submit 0]

/-- The task fails and is tried again. -/
def failOnce : List Label :=
  [.pick 0, .check 0, .read 0, .reply 0 .rejected, .fail 0, .fire 0]

/-- All attempts but the last. -/
def spendBudget : List Label :=
  saveFirst ++ failOnce ++ failOnce ++ failOnce ++ failOnce ++ failOnce

/-- The last attempt: the entry is given up. -/
def giveUp : List Label := [.pick 0, .check 0, .read 0, .reply 0 .rejected, .fail 0]

theorem budgetKept_of_reaches_givenUp :
    ∃ finish, runAllowed (Watched.step 5) (fun watched label => OwnBudget watched.manager label)
        (Watched.stopped twoSaves) (spendBudget ++ giveUp) = some finish ∧
      (finish.manager.queue.lookup ['f']).map (fun job => (job.status, job.retries)) =
        some (.failed, 6) ∧ finish.BudgetKept 5 := by
  have executed : (runAllowed (Watched.step 5)
      (fun watched label => OwnBudget watched.manager label) (Watched.stopped twoSaves)
      (spendBudget ++ giveUp)).map (fun finish =>
        (finish.manager.queue.lookup ['f']).map fun job => (job.status, job.retries)) =
      some (some (.failed, 6)) := rfl
  obtain ⟨finish, reached, entry⟩ := Option.map_eq_some_iff.mp executed
  exact ⟨finish, reached, entry, budgetKept_of_reaches (Reaches.of_runAllowed reached)⟩

/-- The file is saved again after the entry was given up. -/
def saveAgain : List Label := [.begin 1 (saveCall ['y']) 8, .move 1, .replace 1, .submit 1]

/-- The new content starts with the used counter of the old one: its entry is
pending with 6 retries of 5, and its first failure will be its last. -/
theorem budgetKept_fails_after_givingUp :
    ¬ ∀ finish : Watched Nat, Reaches (Watched.step 5) (fun _ _ => True)
      (Watched.stopped twoSaves) finish → finish.BudgetKept 5 := by
  intro holds
  have executed : (run (Watched.step 5) (Watched.stopped twoSaves)
      (spendBudget ++ giveUp ++ saveAgain)).map (fun finish =>
        (finish.manager.queue.lookup ['f']).map fun job => (job.status, job.retries)) =
      some (some (.pending, 6)) := rfl
  obtain ⟨finish, reached, entry⟩ := Option.map_eq_some_iff.mp executed
  obtain ⟨job, found, facts⟩ := Option.map_eq_some_iff.mp entry
  obtain ⟨status, retries⟩ := Prod.mk.inj facts
  have within := (holds finish (Reaches.of_free_run reached) ['f'] job found).1 status
  omega

end FuseDrive.Upload
