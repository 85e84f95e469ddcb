import FuseDrive.Upload.Delivery
import FuseDrive.Upload.Tended

/-!
# A file that is created once

An id that is enqueued once has one slot at work on it at a time, and the slot
sends it once.  When no other call creates a file under the same name, Drive
gets one file of that name.
-/

namespace FuseDrive.Upload

variable {γ : Type}

theorem Slot.not_touches_of_idle {fileId : Str} {slot : Slot γ} (idle : slot.live ≠ some fileId) :
    ¬ slot.touches fileId := by
  cases slot with
  | enqueue call serial content point =>
      rintro (enqueuing | attempting)
      · cases point with
        | move safePath retries | replace safePath retries => exact idle enqueuing
        | submit => cases enqueuing
      · cases attempting
  | attempt other job point =>
      rintro (enqueuing | attempting)
      · cases enqueuing
      · exact idle attempting
  | free | queued _ | armed _ | done =>
      rintro (enqueuing | attempting)
      · cases enqueuing
      · cases attempting

/-! ## An id that is enqueued once -/

/-- One slot at most is at work on the id, and it does not send it twice. -/
structure Once (fileId : Str) (state : State γ) : Prop where
  lone : ∀ left right, (state.slots left).live = some fileId →
    (state.slots right).live = some fileId → left = right
  fresh : state.lastEnqueued fileId = none → ∀ index, (state.slots index).live ≠ some fileId
  sent : ∀ upload, state.lastAccepted fileId = some upload →
    state.lastEnqueued fileId ≠ none ∧
      ∀ index, (state.slots index).live = some fileId →
        (state.slots index).accepting = some fileId

/-- A call for the id is its first. -/
def EnqueuesOnce (fileId : Str) (state : State γ) : Label → Prop
  | .begin _ call _ => call.fileId = fileId → state.lastEnqueued fileId = none
  | .crash => False
  | _ => True

section Once

variable {maxRetries : Nat} {fileId : Str} {state next : State γ} {index : Nat} {slot : Slot γ}

/-- A slot stays with its id, and does not go back. -/
theorem Once.keep (once : Once fileId state)
    (slots : ∀ other, next.slots other = if other = index then slot else state.slots other)
    (enqueued : next.lastEnqueued fileId = state.lastEnqueued fileId)
    (accepted : next.lastAccepted fileId = state.lastAccepted fileId)
    (live : slot.live = some fileId → (state.slots index).live = some fileId)
    (accepting : (state.slots index).accepting = some fileId → slot.live = some fileId →
      slot.accepting = some fileId) : Once fileId next := by
  have old (other : Nat) (isLive : (next.slots other).live = some fileId) :
      (state.slots other).live = some fileId := by
    rw [slots] at isLive
    split at isLive
    · rename_i isIndex
      rw [isIndex]
      exact live isLive
    · exact isLive
  constructor
  · exact fun left right isLeft isRight => once.lone left right (old left isLeft)
      (old right isRight)
  · intro none other isLive
    rw [enqueued] at none
    exact once.fresh none other (old other isLive)
  · intro upload isUpload
    rw [accepted] at isUpload
    obtain ⟨called, isAccepting⟩ := once.sent upload isUpload
    refine ⟨enqueued ▸ called, fun other isLive => ?_⟩
    have was := isAccepting other (old other isLive)
    rw [slots] at isLive ⊢
    split
    · rename_i isIndex
      rw [if_pos isIndex] at isLive
      exact accepting (isIndex ▸ was) isLive
    · exact was

theorem Once.step (once : Once fileId state) (ready : state.boot = .ready) {label : Label}
    (enqueues : EnqueuesOnce fileId state label) (stepped : Stepped maxRetries state label next) :
    Once fileId next := by
  cases stepped with
  | @begin index call second content _ slot temp unlocked =>
      have slots := state.enqueueBegin_slots index call second content
      by_cases same : call.fileId = fileId
      · have never := enqueues same
        have isIndex (other : Nat)
            (isLive : ((state.enqueueBegin index call second content).slots other).live =
              some fileId) : other = index := by
          rw [slots] at isLive
          split at isLive
          · assumption
          · exact absurd isLive (once.fresh never other)
        have newest := lastEnqueued_cons state
          (enqueueBegin_enqueued state index call second content) fileId
        rw [if_pos (show (call.enqueued state.nextSerial content).fileId = fileId from same)]
          at newest
        constructor
        · exact fun left right isLeft isRight => (isIndex left isLeft).trans
            (isIndex right isRight).symm
        · intro none
          rw [newest] at none
          cases none
        · intro upload isUpload
          have before : state.lastAccepted fileId = some upload := by
            rw [State.enqueueBegin_eq] at isUpload
            exact isUpload
          exact absurd never (once.sent upload before).1
      · refine once.keep slots ?_ ?_ ?_ ?_
        · rw [lastEnqueued_cons state (enqueueBegin_enqueued state index call second content)]
          exact if_neg same
        · rw [State.enqueueBegin_eq]
          rfl
        · exact fun isLive => absurd (Option.some.inj isLive) same
        · exact fun _ isLive => absurd (Option.some.inj isLive) same
  | moveRaises _ _ =>
      rw [State.removeOldFile_eq]
      exact ⟨once.lone, once.fresh, once.sent⟩
  | @replyAccepted index other job content nodeId slot =>
      have newest := lastAccepted_cons state
        (recordAccepted_accepted state other nodeId job content) fileId
      by_cases same : other = fileId
      · subst same
        have isLive : (state.slots index).live = some other := by rw [slot]; rfl
        have old (third : Nat) (liveThird : (((state.recordAccepted other nodeId job
            content).setSlot index (.attempt other job (.success content))).slots third).live =
              some other) : (state.slots third).live = some other := by
          rw [State.setSlot_slots] at liveThird
          split at liveThird
          · rename_i isIndex
            exact isIndex ▸ isLive
          · exact liveThird
        constructor
        · exact fun left right isLeft isRight => once.lone left right (old left isLeft)
            (old right isRight)
        · exact fun none => absurd isLive (once.fresh none index)
        · refine fun _ _ => ⟨fun none => once.fresh none index isLive, fun third liveThird => ?_⟩
          have isIndex := once.lone third index (old third liveThird) isLive
          rw [isIndex, State.setSlot_slots_self]
          rfl
      · refine once.keep (State.setSlot_slots _ index _) rfl ?_ ?_ ?_
        · exact newest.trans (if_neg same)
        · exact fun isLive => absurd (Option.some.inj isLive) same
        · exact fun _ isLive => absurd (Option.some.inj isLive) same
  | failRetry slot unlocked handled | failOver slot unlocked handled =>
      rw [State.handleFailure_eq handled]
      refine once.keep (State.setSlot_slots _ _ _) rfl rfl ?_ ?_
      · rw [slot]
        first | exact id | exact nofun
      · rw [slot]
        exact nofun
  | move slot =>
      rw [State.moveFile_eq]
      refine once.keep (State.setSlot_slots _ _ _) rfl rfl ?_ ?_
      · rw [slot]
        exact id
      · rw [slot]
        exact nofun
  | replace slot | submit slot | pick slot _ _ _ | checkExists slot _ | checkMissing slot _
  | read slot _ | readVanished slot _ | replyRejected slot | replyQuota slot | fire slot =>
      refine once.keep (State.setSlot_slots _ _ _) rfl rfl ?_ ?_
      · rw [slot]
        exact id
      · rw [slot]
        exact nofun
  | forget slot unlocked =>
      refine once.keep (State.setSlot_slots _ _ _) rfl rfl ?_ ?_
      · rw [slot]
        exact id
      · exact fun _ => id
  | pickNothing slot _ _ | popRemoved slot | popMissing slot _ =>
      exact once.keep (State.setSlot_slots _ _ _) rfl rfl nofun nofun
  | crash => exact enqueues.elim
  | start boot _ | recover boot _ _ _ _ | recoverSkip boot _ | recovered boot _
  | resume boot _ | sweepDone boot | sweep boot _ => simp [ready] at boot

end Once

/-! ## Who creates a file of a name -/

def EnqueueCall.Creates (parentId name : Str) (call : EnqueueCall) : Prop :=
  call.isNew = true ∧ call.parentId.getD [] = parentId ∧ call.name.getD [] = name

def Job.Creates (parentId name : Str) (job : Job γ) : Prop :=
  job.jobType = .create ∧ job.parentId.getD [] = parentId ∧ job.name.getD [] = name

/-- What the slot is about to create under the name is the file of the id. -/
def SlotSole (fileId parentId name : Str) : Slot γ → Prop
  | .enqueue call _ _ _ => call.Creates parentId name ↔ call.fileId = fileId
  | .attempt other job _ => job.Creates parentId name ↔ other = fileId
  | _ => True

/-- The slot is about to create a file under the name. -/
def Slot.Creates (parentId name : Str) : Slot γ → Prop
  | .enqueue call _ _ _ => call.Creates parentId name
  | .attempt _ job _ => job.Creates parentId name
  | _ => False

/-- Under the name the manager creates the file of the id and no other. -/
structure Sole (fileId parentId name : Str) (state : State γ) : Prop where
  queue : ∀ other job, state.queue.lookup other = some job →
    (job.Creates parentId name ↔ other = fileId)
  slots : ∀ index, SlotSole fileId parentId name (state.slots index)

/-- A call creates a file under the name exactly for the id. -/
def CreatesSole (fileId parentId name : Str) : Label → Prop
  | .begin _ call _ => call.Creates parentId name ↔ call.fileId = fileId
  | .crash => False
  | _ => True

section Sole

variable {maxRetries : Nat} {fileId parentId name : Str} {state next : State γ}

/-- Nobody is about to create a file under the name, and nobody has the id. -/
theorem Sole.of_absent (absent : state.queue.lookup fileId = none)
    (idle : ∀ index, (state.slots index).live ≠ some fileId)
    (queue : ∀ other job, state.queue.lookup other = some job → ¬ job.Creates parentId name)
    (slots : ∀ index, ¬ (state.slots index).Creates parentId name) :
    Sole fileId parentId name state := by
  refine ⟨fun other job present => ?_, fun index => ?_⟩
  · refine iff_of_false (queue other job present) ?_
    rintro rfl
    rw [absent] at present
    cases present
  · have notLive := idle index
    have creates := slots index
    cases isSlot : state.slots index with
    | enqueue call serial content point =>
        rw [isSlot] at notLive creates
        exact iff_of_false creates fun same => notLive (congrArg some same)
    | attempt other job point =>
        rw [isSlot] at notLive creates
        exact iff_of_false creates fun same => notLive (congrArg some same)
    | free | queued _ | armed _ | done => trivial

theorem Sole.setSlot (sole : Sole fileId parentId name state) (index : Nat) {slot : Slot γ}
    (own : SlotSole fileId parentId name slot) :
    Sole fileId parentId name (state.setSlot index slot) := by
  refine ⟨sole.queue, fun other => ?_⟩
  rw [State.setSlot_slots]
  split
  · exact own
  · exact sole.slots other

theorem Sole.congr (sole : Sole fileId parentId name state)
    (queue : ∀ other job, next.queue.lookup other = some job →
      (job.Creates parentId name ↔ other = fileId))
    (slots : next.slots = state.slots) : Sole fileId parentId name next :=
  ⟨queue, slots ▸ sole.slots⟩

theorem Sole.removeEntry (sole : Sole fileId parentId name state) (dropped : Str) :
    Sole fileId parentId name (state.removeEntry dropped) := by
  refine sole.congr ?_ rfl
  intro other job present
  change (state.queue.erase dropped).lookup other = _ at present
  rw [Dict.lookup_erase_eq] at present
  split at present
  · cases present
  · exact sole.queue other job present

theorem EnqueueCall.creates_newJob {call : EnqueueCall} {serial retries : Nat} {content : γ}
    {safePath : LocalPath} : (State.newJob call serial content safePath retries).Creates
      parentId name ↔ call.Creates parentId name := by
  simp [Job.Creates, EnqueueCall.Creates, State.newJob, EnqueueCall.jobType]

theorem Sole.step (sole : Sole fileId parentId name state) (ready : state.boot = .ready)
    {label : Label} (creates : CreatesSole fileId parentId name label)
    (stepped : Stepped maxRetries state label next) : Sole fileId parentId name next := by
  have own (index : Nat) {slot : Slot γ} (isSlot : state.slots index = slot) :
      SlotSole fileId parentId name slot := isSlot ▸ sole.slots index
  cases stepped with
  | @begin index call second content _ slot temp unlocked =>
      have called : Sole fileId parentId name (state.setSlot index (.enqueue call
          state.nextSerial content (.move (.upload call.fileId second)
            (state.existingRetries call.fileId)))) := sole.setSlot index creates
      rw [State.enqueueBegin_eq]
      exact ⟨sole.queue, called.slots⟩
  | moveRaises _ _ =>
      rw [State.removeOldFile_eq]
      exact ⟨sole.queue, sole.slots⟩
  | @move index call serial content safePath retries slot =>
      have moved : Sole fileId parentId name
          (state.moveFile (.journal call.tempName) safePath) := by
        rw [State.moveFile_eq]
        exact ⟨sole.queue, sole.slots⟩
      have creates := own index slot
      exact moved.setSlot index creates
  | @replace index call serial content safePath retries slot =>
      have creates := own index slot
      have replaced : Sole fileId parentId name
          (state.enqueueReplace call serial content safePath retries) := by
        refine sole.congr ?_ rfl
        intro other job present
        change (state.queue.insert call.fileId _).lookup other = _ at present
        rw [Dict.lookup_insert_eq] at present
        split at present
        · rename_i isOther
          cases present
          rw [EnqueueCall.creates_newJob, isOther]
          exact creates
        · exact sole.queue other job present
      exact replaced.setSlot index creates
  | pick slot unlocked entry pending => exact sole.setSlot _ (sole.queue _ _ entry)
  | checkExists slot _ | checkMissing slot _ | read slot _ | readVanished slot _
  | replyRejected slot =>
      have creates := own _ slot
      exact sole.setSlot _ creates
  | @replyAccepted index other job content nodeId slot =>
      have recorded : Sole fileId parentId name
          (state.recordAccepted other nodeId job content) := ⟨sole.queue, sole.slots⟩
      have creates := own index slot
      exact recorded.setSlot index creates
  | @replyQuota index other job content slot =>
      have tripped : Sole fileId parentId name { state with quotaExceeded := true } :=
        ⟨sole.queue, sole.slots⟩
      have creates := own index slot
      exact tripped.setSlot index creates
  | @forget index other job content slot unlocked =>
      have removed : Sole fileId parentId name
          { state with locked := true, files := state.files.erase job.path } :=
        ⟨sole.queue, sole.slots⟩
      have creates := own index slot
      exact removed.setSlot index creates
  | popRemoved slot | popMissing slot _ => exact (sole.removeEntry _).setSlot _ trivial
  | failRetry slot unlocked handled | failOver slot unlocked handled =>
      refine Sole.setSlot (sole.congr ?_ ?_) _ trivial
      · intro other job present
        rw [State.handleFailure_lookup handled] at present
        split at present
        · rename_i isOther
          obtain ⟨entry, found, rfl⟩ := Option.map_eq_some_iff.mp present
          rw [isOther]
          exact sole.queue _ entry found
        · exact sole.queue other job present
      · rw [State.handleFailure_eq handled]
  | submit _ | pickNothing _ _ _ | fire _ => exact sole.setSlot _ trivial
  | crash => exact creates.elim
  | start boot _ | recover boot _ _ _ _ | recoverSkip boot _ | recovered boot _
  | resume boot _ | sweepDone boot | sweep boot _ => simp [ready] at boot

end Sole

/-! ## The manager and the file -/

/-- What the manager keeps in every run. -/
structure Grounded (state : State γ) : Prop where
  placed : Placed state
  locking : Locking state
  carried : Carried state
  attended : Attended state

/-- What the manager keeps for a file that is created once. -/
structure Creating (fileId parentId name : Str) (state : State γ) : Prop where
  grounded : Grounded state
  served : Served fileId state
  once : Once fileId state
  sole : Sole fileId parentId name state

section Creating

variable {maxRetries : Nat} {fileId parentId name : Str} {state next : State γ}

theorem Grounded.step (grounded : Grounded state) {label : Label}
    (stepped : Stepped maxRetries state label next) : Grounded next where
  placed := grounded.placed.step stepped
  locking := grounded.locking.step stepped
  carried := grounded.carried.step grounded.placed grounded.locking stepped
  attended := grounded.attended.step stepped

theorem Grounded.setFiles (grounded : Grounded state) {files : Dict LocalPath γ}
    (moving : ∀ index call serial content safePath retries,
      state.slots index = .enqueue call serial content (.move safePath retries) →
      files.lookup (.journal call.tempName) = state.files.lookup (.journal call.tempName)) :
    Grounded { state with files := files } where
  placed := ⟨grounded.placed.queue, grounded.placed.saved, grounded.placed.slots⟩
  locking := ⟨grounded.locking.held, grounded.locking.alone, grounded.locking.sweeping⟩
  carried := by
    intro index call serial content safePath retries isSlot
    exact (moving _ _ _ _ _ _ isSlot).trans (grounded.carried _ _ _ _ _ _ isSlot)
  attended := by
    intro started other pending
    have tended := tended_iff.mp (grounded.attended started other pending)
    exact tended_iff.mpr tended

theorem Served.stepGrounded (served : Served fileId state) (grounded : Grounded state)
    (ready : state.boot = .ready) {label : Label} (delivers : Delivers fileId state label)
    (stepped : Stepped maxRetries state label next) : Served fileId next :=
  served.step grounded.placed grounded.locking grounded.carried ready delivers stepped

theorem Creating.step (creating : Creating fileId parentId name state) (ready : state.boot = .ready)
    {label : Label} (delivers : Delivers fileId state label)
    (enqueues : EnqueuesOnce fileId state label) (creates : CreatesSole fileId parentId name label)
    (stepped : Stepped maxRetries state label next) : Creating fileId parentId name next where
  grounded := creating.grounded.step stepped
  served := creating.served.stepGrounded creating.grounded ready delivers stepped
  once := creating.once.step ready enqueues stepped
  sole := creating.sole.step ready creates stepped

theorem Creating.setFiles (creating : Creating fileId parentId name state)
    {files : Dict LocalPath γ} (grounded : Grounded { state with files := files })
    (uploads : ∀ other second, files.lookup (.upload other second) =
      state.files.lookup (.upload other second)) :
    Creating fileId parentId name { state with files := files } where
  grounded := grounded
  served := creating.served.setFiles creating.grounded.placed (uploads fileId)
  once := ⟨creating.once.lone, creating.once.fresh, creating.once.sent⟩
  sole := ⟨creating.sole.queue, creating.sole.slots⟩

/-- Nothing was ever done for the id, and nobody is about to create a file of
the name. -/
theorem Creating.of_unknown (grounded : Grounded state)
    (absent : state.queue.lookup fileId = none)
    (idle : ∀ index, (state.slots index).live ≠ some fileId)
    (neverEnqueued : state.lastEnqueued fileId = none)
    (neverAccepted : state.lastAccepted fileId = none)
    (queue : ∀ other job, state.queue.lookup other = some job → ¬ job.Creates parentId name)
    (slots : ∀ index, ¬ (state.slots index).Creates parentId name) :
    Creating fileId parentId name state where
  grounded := grounded
  served := Served.of_unknown absent (fun index => Slot.not_touches_of_idle (idle index))
    neverEnqueued
  once := by
    refine ⟨fun left _ isLive => absurd isLive (idle left), fun _ => idle, ?_⟩
    intro upload isUpload
    rw [neverAccepted] at isUpload
    cases isUpload
  sole := .of_absent absent idle queue slots

/-- When no task and no timer is left, the storage has what was enqueued
last. -/
theorem Served.settled (served : Served fileId state) (attended : Attended state)
    (ready : state.boot = .ready) (resting : ∀ index, (state.slots index).live = none) :
    state.queue.lookup fileId = none ∧ Uploaded fileId state := by
  have quiet : NotEnqueuing fileId state := by
    intro index enqueuing
    cases isSlot : state.slots index with
    | enqueue call serial content point =>
        have live := resting index
        rw [isSlot] at live
        cases live
    | free | queued _ | attempt _ _ _ | armed _ | done =>
        rw [isSlot] at enqueuing
        cases enqueuing
  have absent : state.queue.lookup fileId = none := by
    cases entry : state.queue.lookup fileId with
    | none => rfl
    | some job =>
        have pending := (served.entry job entry quiet).pending
        rcases tended_iff.mp (attended (by simp [ready]) fileId ⟨job, entry, pending⟩) with
          ⟨index, live⟩ | starting
        · rw [resting index] at live
          cases live
        · rw [ready] at starting
          exact starting.elim
  exact ⟨absent, served.gone absent quiet⟩

end Creating

end FuseDrive.Upload
