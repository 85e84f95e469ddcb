import FuseDrive.Upload.Manager

/-!
# An attempt decides the fate of its own content

`execute_pending_upload_job` copies the path of an entry, works without the
lock and then acts on the queue again by file id alone.  As long as no
`enqueue_file_for_upload` call for an id starts while an attempt for that id
is under way, and no call raises after it has removed a file that is still to be
uploaded, whatever an attempt pops, deletes or marks is its own, and the content
enqueued last stays in the queue with its local file until the storage has
accepted it.  Without that discipline a new content is lost with the old
attempt, or with a call that puts nothing in its place.
-/

namespace FuseDrive.Upload

open Transition

variable {γ : Type}

/-- The file an `enqueue_file_for_upload` call is replacing under the lock. -/
def Slot.enqueuing : Slot γ → Option Str
  | .enqueue call _ _ (.move _ _) | .enqueue call _ _ (.replace _ _) => some call.fileId
  | _ => none

/-- The file an `execute_pending_upload_job` run has read the entry of. -/
def Slot.attempting : Slot γ → Option Str
  | .attempt fileId _ _ => some fileId
  | _ => none

/-- The slot owns `UploadManager.lock` between two of its steps. -/
def Slot.holdsLock : Slot γ → Prop
  | .enqueue _ _ _ (.move _ _) | .enqueue _ _ _ (.replace _ _)
  | .attempt _ _ (.removing _) => True
  | _ => False

/-- The content an attempt has tried to upload: the bytes it has read, and
before that the content of the entry it picked. -/
def AttemptPoint.tried (job : Job γ) : AttemptPoint γ → γ
  | .sent content | .success content | .removing content | .failure content _ => content
  | .check | .missing | .read => job.content

/-- The `enqueue_file_for_upload` call that made an entry. -/
def Job.origin (fileId : Str) (job : Job γ) : Enqueued γ :=
  ⟨fileId, job.serial, job.jobType, job.parentId, job.name, job.content⟩

/-- The `enqueue_file_for_upload` call an accepted upload goes back to. -/
def Accepted.origin (upload : Accepted γ) : Enqueued γ :=
  ⟨upload.fileId, upload.serial, upload.jobType, upload.parentId, upload.name,
    upload.content⟩

/-- The newest `enqueue_file_for_upload` call for an id. -/
def State.lastEnqueued (state : State γ) (fileId : Str) : Option (Enqueued γ) :=
  state.enqueued.find? fun call => call.fileId = fileId

/-- The newest upload of an id that the storage accepted. -/
def State.lastAccepted (state : State γ) (fileId : Str) : Option (Accepted γ) :=
  state.accepted.find? fun upload => upload.fileId = fileId

/-- Everything but the end and the start of the process. -/
def Label.working : Label → Prop
  | .crash | .start _ | .recover _ _ _ | .recovered | .resume | .sweep _ => False
  | _ => True

/-- The local file of the entry, if there is one, has been accepted. -/
def State.Dispensable (state : State γ) (fileId : Str) : Prop :=
  ∀ job content, state.queue.lookup fileId = some job →
    state.files.lookup job.path = some content →
      ∃ upload, state.lastAccepted fileId = some upload ∧ upload.origin = job.origin fileId

/-- The discipline: no call starts to enqueue a file while an attempt for that
file is under way, and none raises that has removed a file which is still to be
uploaded. -/
def NoOverlap (state : State γ) (label : Label) : Prop :=
  label.working ∧
    (∀ index call second, label = .begin index call second →
      ∀ other, (state.slots other).attempting ≠ some call.fileId) ∧
    ∀ call, label = .moveRaises call → state.Dispensable call.fileId

/-- What the step of an attempt pops, deletes or marks belongs to the content
the attempt tried to upload. -/
def OwnFate (state : State γ) : Label → Prop
  | .forget index => ∀ fileId job point, state.slots index = .attempt fileId job point →
      ∀ content, state.files.lookup job.path = some content → content = point.tried job
  | .pop index | .fail index =>
      ∀ fileId job point, state.slots index = .attempt fileId job point →
        ∀ entry, state.queue.lookup fileId = some entry → entry.content = point.tried job
  | _ => True

/-- An enqueued content has been accepted, or waits in the queue with its
local file, or is just being put there. -/
def Kept (state : State γ) (last : Enqueued γ) : Prop :=
  (∃ upload, state.lastAccepted last.fileId = some upload ∧ upload.origin = last) ∨
  (∃ job, state.queue.lookup last.fileId = some job ∧ job.origin last.fileId = last ∧
    state.files.lookup job.path = some last.content) ∨
  (∃ index call serial content point path, state.slots index =
      .enqueue call serial content point ∧ call.enqueued serial content = last ∧
    (state.slots index).enqueuing = some last.fileId ∧
    state.files.lookup path = some last.content)

/-- A state in which the manager has just started working on a queue: no call
and no attempt is under way, every local file that exists is the one its entry
was made for, and the ids of the history have their entry. -/
structure Settled (state : State γ) : Prop where
  unlocked : state.locked = false
  idle : ∀ index, (∃ fileId, state.slots index = .queued fileId) ∨
    (∃ fileId, state.slots index = .armed fileId) ∨ state.slots index = .free
  path : ∀ fileId job, state.queue.lookup fileId = some job →
    ∃ second, job.path = .upload fileId second
  file : ∀ fileId job, state.queue.lookup fileId = some job →
    ∀ content, state.files.lookup job.path = some content → content = job.content
  last : ∀ fileId last, state.lastEnqueued fileId = some last →
    ∃ job, state.queue.lookup fileId = some job ∧ job.origin fileId = last ∧
      state.files.lookup job.path = some last.content

/-! ## The invariant -/

/-- What an attempt knows at each point. -/
def PointOk (state : State γ) (fileId : Str) (job : Job γ) : AttemptPoint γ → Prop
  | .check | .read => True
  | .missing => state.files.lookup job.path = none
  | .sent content | .failure content _ => content = job.content
  | .success content | .removing content =>
      content = job.content ∧
        ∀ last, state.lastEnqueued fileId = some last →
          ∃ upload, state.lastAccepted fileId = some upload ∧ upload.origin = last

/-- What holds of a slot between two of its steps. -/
def SlotOk (state : State γ) : Slot γ → Prop
  | .enqueue call serial content (.move safePath _) =>
      (∃ second, safePath = .upload call.fileId second) ∧
        state.files.lookup (.journal call.tempName) = some content ∧
        state.lastEnqueued call.fileId = some (call.enqueued serial content)
  | .enqueue call serial content (.replace safePath _) =>
      (∃ second, safePath = .upload call.fileId second) ∧
        state.files.lookup safePath = some content ∧
        state.lastEnqueued call.fileId = some (call.enqueued serial content)
  | .attempt fileId job point =>
      (∃ second, job.path = .upload fileId second) ∧
        (∀ entry, state.queue.lookup fileId = some entry →
          entry.content = job.content ∧ entry.path = job.path) ∧
        (∀ content, state.files.lookup job.path = some content →
          content = job.content) ∧
        (∀ last, state.lastEnqueued fileId = some last →
          job.origin fileId = last) ∧
        PointOk state fileId job point
  | _ => True

/-- What holds of a queue entry, up to the call that is replacing it. -/
def EntryOk (state : State γ) (fileId : Str) (job : Job γ) : Prop :=
  (∃ second, job.path = .upload fileId second) ∧
    ((∀ index, (state.slots index).enqueuing ≠ some fileId) →
      (∀ content, state.files.lookup job.path = some content → content = job.content) ∧
        ∀ last, state.lastEnqueued fileId = some last →
          job.origin fileId = last)

structure Owned (state : State γ) : Prop where
  lockHeld : ∀ index, (state.slots index).holdsLock → state.locked = true
  lockUnique : ∀ left right, (state.slots left).holdsLock →
    (state.slots right).holdsLock → left = right
  noOverlap : ∀ left right fileId, (state.slots left).enqueuing = some fileId →
    (state.slots right).attempting ≠ some fileId
  slots : ∀ index, SlotOk state (state.slots index)
  entries : ∀ fileId job, state.queue.lookup fileId = some job →
    EntryOk state fileId job
  kept : ∀ fileId last, state.lastEnqueued fileId = some last → Kept state last

theorem Slot.holdsLock_of_enqueuing {slot : Slot γ} {fileId : Str}
    (enqueuing : slot.enqueuing = some fileId) : slot.holdsLock := by
  unfold Slot.enqueuing at enqueuing
  split at enqueuing <;> simp_all [Slot.holdsLock]

theorem Slot.attempting_of_enqueuing {slot : Slot γ} {fileId : Str}
    (enqueuing : slot.enqueuing = some fileId) : slot.attempting = none := by
  cases slot with
  | attempt otherId job point => simp [Slot.enqueuing] at enqueuing
  | free | enqueue _ _ _ _ | queued _ | armed _ | done => rfl

/-- An `enqueue_file_for_upload` call that is replacing no file has released
the lock. -/
theorem EnqueuePoint.eq_submit {call : EnqueueCall} {serial : Nat} {content : γ}
    {point : EnqueuePoint}
    (idle : (Slot.enqueue call serial content point).enqueuing = none) :
    point = .submit := by
  cases point with
  | submit => rfl
  | move _ _ | replace _ _ => simp [Slot.enqueuing] at idle

theorem lastEnqueued_fileId {state : State γ} {fileId : Str} {last : Enqueued γ}
    (found : state.lastEnqueued fileId = some last) : last.fileId = fileId := by
  simpa using List.find?_some found

theorem enqueueBegin_enqueued (state : State γ) (index : Nat) (call : EnqueueCall)
    (second : Nat) (content : γ) :
    (state.enqueueBegin index call second content).enqueued =
      call.enqueued state.nextSerial content :: state.enqueued := rfl

theorem recordAccepted_accepted (state : State γ) (fileId nodeId : Str) (job : Job γ)
    (content : γ) :
    (state.recordAccepted fileId nodeId job content).accepted =
      ⟨job.jobType, fileId, nodeId, job.serial, job.parentId, job.name, content⟩ ::
        state.accepted := rfl

theorem lastEnqueued_cons (state : State γ) {next : State γ} {call : Enqueued γ}
    (enqueued : next.enqueued = call :: state.enqueued) (fileId : Str) :
    next.lastEnqueued fileId =
      if call.fileId = fileId then some call else state.lastEnqueued fileId := by
  unfold State.lastEnqueued
  rw [enqueued, List.find?_cons]
  by_cases same : call.fileId = fileId <;> simp [same]

theorem lastAccepted_cons (state : State γ) {next : State γ} {upload : Accepted γ}
    (accepted : next.accepted = upload :: state.accepted) (fileId : Str) :
    next.lastAccepted fileId =
      if upload.fileId = fileId then some upload else state.lastAccepted fileId := by
  unfold State.lastAccepted
  rw [accepted, List.find?_cons]
  by_cases same : upload.fileId = fileId <;> simp [same]

theorem lastEnqueued_congr {state next : State γ} (enqueued : next.enqueued = state.enqueued)
    (fileId : Str) : next.lastEnqueued fileId = state.lastEnqueued fileId := by
  rw [State.lastEnqueued, enqueued, State.lastEnqueued]

theorem lastAccepted_congr {state next : State γ} (accepted : next.accepted = state.accepted)
    (fileId : Str) : next.lastAccepted fileId = state.lastAccepted fileId := by
  rw [State.lastAccepted, accepted, State.lastAccepted]

/-- Two states agree on everything that concerns one file id. -/
structure SameFor (fileId : Str) (state next : State γ) : Prop where
  queue : next.queue.lookup fileId = state.queue.lookup fileId
  files : ∀ second, next.files.lookup (.upload fileId second) =
    state.files.lookup (.upload fileId second)
  enqueued : next.lastEnqueued fileId = state.lastEnqueued fileId
  accepted : next.lastAccepted fileId = state.lastAccepted fileId

theorem SlotOk.frame {state next : State γ} {fileId : Str} {job : Job γ}
    {point : AttemptPoint γ} (ok : SlotOk state (.attempt fileId job point))
    (same : SameFor fileId state next) :
    SlotOk next (.attempt fileId job point) := by
  obtain ⟨⟨second, path⟩, entry, file, last, pointOk⟩ := ok
  refine ⟨⟨second, path⟩, ?_, ?_, ?_, ?_⟩
  · rwa [same.queue]
  · rwa [path, same.files, ← path]
  · rwa [same.enqueued]
  · cases point with
    | missing =>
        change next.files.lookup job.path = none
        rw [path, same.files, ← path]
        exact pointOk
    | success content | removing content =>
        simpa only [PointOk, same.enqueued, same.accepted] using pointOk
    | check | read | sent content | failure content isFatal => exact pointOk

/-- The state a slot is judged in matters only through the files, the queue
and the two histories. -/
theorem SlotOk.congr {state next : State γ} {slot : Slot γ}
    (files : next.files = state.files) (queue : next.queue = state.queue)
    (enqueued : next.enqueued = state.enqueued)
    (accepted : next.accepted = state.accepted)
    (ok : SlotOk state slot) : SlotOk next slot := by
  have lastEnqueued : next.lastEnqueued = state.lastEnqueued :=
    funext (lastEnqueued_congr enqueued)
  have lastAccepted : next.lastAccepted = state.lastAccepted :=
    funext (lastAccepted_congr accepted)
  cases slot with
  | enqueue call serial content point =>
      cases point <;> simp_all [SlotOk]
  | attempt fileId job point =>
      exact ok.frame ⟨by rw [queue], by simp [files], by rw [lastEnqueued],
        by rw [lastAccepted]⟩
  | free | queued _ | armed _ | done => trivial

theorem Owned.noneEnqueuing {state : State γ} (owned : Owned state)
    (unlocked : state.locked = false) (index : Nat) :
    (state.slots index).enqueuing = none := by
  cases enqueuing : (state.slots index).enqueuing with
  | none => rfl
  | some fileId =>
      have held := owned.lockHeld index (Slot.holdsLock_of_enqueuing enqueuing)
      simp [unlocked] at held

theorem Owned.congr {state next : State γ} (owned : Owned state)
    (files : next.files = state.files) (queue : next.queue = state.queue)
    (enqueued : next.enqueued = state.enqueued)
    (accepted : next.accepted = state.accepted)
    (slots : next.slots = state.slots) (locked : next.locked = state.locked) :
    Owned next := by
  have lastEnqueued : next.lastEnqueued = state.lastEnqueued :=
    funext (lastEnqueued_congr enqueued)
  have lastAccepted : next.lastAccepted = state.lastAccepted :=
    funext (lastAccepted_congr accepted)
  refine ⟨?_, ?_, ?_, ?_, ?_, ?_⟩
  · rw [slots, locked]
    exact owned.lockHeld
  · rw [slots]
    exact owned.lockUnique
  · rw [slots]
    exact owned.noOverlap
  · intro index
    rw [slots]
    exact (owned.slots index).congr files queue enqueued accepted
  · intro fileId job entry
    rw [queue] at entry
    simpa only [EntryOk, slots, files, lastEnqueued] using
      owned.entries fileId job entry
  · intro fileId last found
    rw [lastEnqueued] at found
    simpa only [Kept, lastAccepted, queue, files, slots] using
      owned.kept fileId last found

/-! ## Steps that move one slot only -/

theorem Owned.setSlot {state : State γ} {index : Nat} {slot : Slot γ}
    (owned : Owned state)
    (sameLock : slot.holdsLock → (state.slots index).holdsLock)
    (before : (state.slots index).enqueuing = none)
    (after : slot.enqueuing = none)
    (alone : ∀ fileId, slot.attempting = some fileId →
      ∀ other, (state.slots other).enqueuing ≠ some fileId)
    (ok : SlotOk state slot) : Owned (state.setSlot index slot) := by
  have enqueuing : ∀ other, ((state.setSlot index slot).slots other).enqueuing =
      (state.slots other).enqueuing := by
    intro other
    rw [State.setSlot_slots]
    split
    · rename_i same
      rw [after, same, before]
    · rfl
  have lock : ∀ other, ((state.setSlot index slot).slots other).holdsLock →
      (state.slots other).holdsLock := by
    intro other held
    rw [State.setSlot_slots] at held
    split at held
    · rename_i same
      exact same ▸ sameLock held
    · exact held
  refine ⟨?_, ?_, ?_, ?_, ?_, ?_⟩
  · intro other held
    exact owned.lockHeld other (lock other held)
  · intro left right leftHeld rightHeld
    exact owned.lockUnique left right (lock left leftHeld) (lock right rightHeld)
  · intro left right fileId leftEnqueuing
    rw [enqueuing] at leftEnqueuing
    rw [State.setSlot_slots]
    split
    · intro attempting
      exact alone fileId attempting left leftEnqueuing
    · exact owned.noOverlap left right fileId leftEnqueuing
  · intro other
    rw [State.setSlot_slots]
    split
    · exact ok.congr rfl rfl rfl rfl
    · exact (owned.slots other).congr rfl rfl rfl rfl
  · intro fileId job entry
    obtain ⟨path, settled⟩ := owned.entries fileId job entry
    refine ⟨path, fun none => settled fun other => ?_⟩
    rw [← enqueuing]
    exact none other
  · intro fileId last found
    rcases owned.kept fileId last found with accepted | queued | moving
    · exact Or.inl accepted
    · exact Or.inr (Or.inl queued)
    · obtain ⟨other, call, serial, content, point, path, slotEq, origin, slotEnqueuing,
        file⟩ := moving
      have different : other ≠ index := by
        rintro rfl
        simp [before] at slotEnqueuing
      refine Or.inr (Or.inr ⟨other, call, serial, content, point, path, ?_, origin, ?_, file⟩)
      · rw [State.setSlot_slots, if_neg different, slotEq]
      · rw [enqueuing, slotEnqueuing]

/-! ## Steps that change what concerns one file id -/

/-- A step of one slot under the lock, or with the lock free, that leaves
every other file id alone. -/
theorem Owned.change {state next : State γ} {index : Nat} {slot : Slot γ}
    (owned : Owned state) (fileId : Str)
    (slots : ∀ other, next.slots other =
      if other = index then slot else state.slots other)
    (same : ∀ other, other ≠ fileId → SameFor other state next)
    (lone : ∀ other, other ≠ index → ¬ (state.slots other).holdsLock)
    (lock : slot.holdsLock → next.locked = true)
    (before : ∀ other, (state.slots index).enqueuing = some other → other = fileId)
    (after : ∀ other, slot.enqueuing = some other → other = fileId)
    (apart : slot.enqueuing = some fileId →
      ∀ other, other ≠ index → (state.slots other).attempting ≠ some fileId)
    (ok : SlotOk next slot)
    (others : ∀ other job point, other ≠ index →
      state.slots other = .attempt fileId job point →
      SlotOk next (.attempt fileId job point))
    (entry : ∀ job, next.queue.lookup fileId = some job → EntryOk next fileId job)
    (kept : ∀ last, next.lastEnqueued fileId = some last → Kept next last) :
    Owned next := by
  have noneElse : ∀ other, other ≠ index → (state.slots other).enqueuing = none := by
    intro other different
    cases enqueuing : (state.slots other).enqueuing with
    | none => rfl
    | some otherId =>
        exact absurd (Slot.holdsLock_of_enqueuing enqueuing) (lone other different)
  have holder : ∀ other, (next.slots other).holdsLock → other = index := by
    intro other held
    by_contra different
    rw [slots, if_neg different] at held
    exact lone other different held
  refine ⟨?_, ?_, ?_, ?_, ?_, ?_⟩
  · intro other held
    have isIndex := holder other held
    subst isIndex
    rw [slots, if_pos rfl] at held
    exact lock held
  · intro left right leftHeld rightHeld
    rw [holder left leftHeld, holder right rightHeld]
  · intro left right otherId leftEnqueuing rightAttempting
    have leftIsIndex := holder left (Slot.holdsLock_of_enqueuing leftEnqueuing)
    subst leftIsIndex
    rw [slots, if_pos rfl] at leftEnqueuing
    have sameId := after otherId leftEnqueuing
    subst sameId
    rw [slots] at rightAttempting
    split at rightAttempting
    · rw [Slot.attempting_of_enqueuing leftEnqueuing] at rightAttempting
      simp at rightAttempting
    · rename_i different
      exact apart leftEnqueuing right different rightAttempting
  · intro other
    rw [slots]
    split
    · exact ok
    · rename_i different
      have free := noneElse other different
      have oldOk := owned.slots other
      cases found : state.slots other with
      | enqueue call serial content point =>
          rw [found] at free
          rw [EnqueuePoint.eq_submit free]
          trivial
      | attempt otherId job point =>
          by_cases sameId : otherId = fileId
          · subst sameId
            exact others other job point different found
          · rw [found] at oldOk
            exact oldOk.frame (same otherId sameId)
      | free | queued _ | armed _ | done => trivial
  · intro otherId job found
    by_cases sameId : otherId = fileId
    · subst sameId
      exact entry job found
    · have frame := same otherId sameId
      rw [frame.queue] at found
      obtain ⟨⟨second, path⟩, settled⟩ := owned.entries otherId job found
      refine ⟨⟨second, path⟩, fun _ => ?_⟩
      have quiet : ∀ other, (state.slots other).enqueuing ≠ some otherId := by
        intro other enqueuing
        by_cases isIndex : other = index
        · subst isIndex
          exact sameId (before otherId enqueuing)
        · simp [noneElse other isIndex] at enqueuing
      obtain ⟨file, last⟩ := settled quiet
      refine ⟨?_, by rwa [frame.enqueued]⟩
      rwa [path, frame.files, ← path]
  · intro otherId last found
    by_cases sameId : otherId = fileId
    · subst sameId
      exact kept last found
    · have frame := same otherId sameId
      rw [frame.enqueued] at found
      have lastId := lastEnqueued_fileId found
      rcases owned.kept otherId last found with accepted | queued | moving
      · left
        rwa [lastId, frame.accepted, ← lastId]
      · right; left
        obtain ⟨job, present, origin, file⟩ := queued
        rw [lastId] at present
        obtain ⟨⟨second, path⟩, -⟩ := owned.entries otherId job present
        refine ⟨job, ?_, origin, ?_⟩
        · rw [lastId, frame.queue, present]
        · rwa [path, frame.files, ← path]
      · obtain ⟨other, call, _, _, point, path, slotEq, _, enqueuing, -⟩ := moving
        by_cases isIndex : other = index
        · subst isIndex
          rw [lastId] at enqueuing
          exact absurd (before otherId enqueuing) sameId
        · simp [noneElse other isIndex] at enqueuing

/-! ## `enqueue_file_for_upload` -/

theorem Owned.notHeld {state : State γ} (owned : Owned state)
    (unlocked : state.locked = false) (index : Nat) :
    ¬ (state.slots index).holdsLock := by
  intro held
  have locked := owned.lockHeld index held
  simp [unlocked] at locked

/-- Entries and attempts of two ids never share a local file. -/
theorem uploadPath_ne {path : LocalPath} {fileId other : Str} {second : Nat}
    (own : ∃ second, path = .upload fileId second) (different : other ≠ fileId) :
    LocalPath.upload other second ≠ path := by
  obtain ⟨ownSecond, rfl⟩ := own
  simp [different]

theorem Owned.begin {state : State γ} {index : Nat} {call : EnqueueCall}
    {content : γ} (owned : Owned state) (second : Nat)
    (slot : state.slots index = .free)
    (temp : state.files.lookup (.journal call.tempName) = some content)
    (unlocked : state.locked = false)
    (apart : ∀ other, (state.slots other).attempting ≠ some call.fileId) :
    Owned (state.enqueueBegin index call second content) := by
  have enqueued (fileId : Str) :
      (state.enqueueBegin index call second content).lastEnqueued fileId =
        if call.fileId = fileId then some (call.enqueued state.nextSerial content)
        else state.lastEnqueued fileId :=
    lastEnqueued_cons state (enqueueBegin_enqueued state index call second content) fileId
  have files (path : LocalPath) :
      (state.enqueueBegin index call second content).files.lookup path =
        if (state.queue.lookup call.fileId).map Job.path = some path then none
        else state.files.lookup path := by
    rw [State.enqueueBegin_eq]
    exact state.removeOldFile_lookup call.fileId path
  have queue : (state.enqueueBegin index call second content).queue = state.queue := by
    rw [State.enqueueBegin_eq]
  have notOld {path : LocalPath}
      (foreign : ∀ second, path ≠ .upload call.fileId second) :
      (state.queue.lookup call.fileId).map Job.path ≠ some path := by
    intro isOld
    obtain ⟨old, present, rfl⟩ := Option.map_eq_some_iff.mp isOld
    obtain ⟨⟨oldSecond, path⟩, -⟩ := owned.entries call.fileId old present
    exact foreign oldSecond path
  have slots (other : Nat) :
      (state.enqueueBegin index call second content).slots other =
        if other = index then
          .enqueue call state.nextSerial content (.move (.upload call.fileId second)
            (state.existingRetries call.fileId))
        else state.slots other := by
    rw [State.enqueueBegin_eq]
    exact Function.update_apply ..
  have moving : ((state.enqueueBegin index call second content).slots index).enqueuing =
      some call.fileId := by
    rw [slots, if_pos rfl]
    rfl
  refine owned.change call.fileId slots ?same (fun other _ => owned.notHeld unlocked other)
    (fun _ => rfl) ?before ?after (fun _ other _ => apart other) ?ok ?others
    ?entry ?kept
  case same =>
    intro other different
    refine ⟨by rw [queue], ?_, ?_, by rw [State.enqueueBegin_eq]; rfl⟩
    · intro otherSecond
      rw [files, if_neg (notOld _)]
      simp [different]
    · rw [enqueued, if_neg (Ne.symm different)]
  case before =>
    intro other enqueuing
    simp [slot, Slot.enqueuing] at enqueuing
  case after =>
    intro other enqueuing
    simpa [Slot.enqueuing] using enqueuing.symm
  case ok =>
    refine ⟨⟨second, rfl⟩, ?_, ?_⟩
    · rw [files, if_neg (notOld (by simp)), temp]
    · rw [enqueued, if_pos rfl]
  case others =>
    intro other job point _ attempt
    have absurdity := apart other
    simp [attempt, Slot.attempting] at absurdity
  case entry =>
    intro job present
    rw [queue] at present
    exact ⟨(owned.entries call.fileId job present).1, fun quiet =>
      absurd moving (quiet index)⟩
  case kept =>
    intro last found
    rw [enqueued, if_pos rfl, Option.some.injEq] at found
    subst found
    refine Or.inr (Or.inr ⟨index, call, _, _, _, .journal call.tempName,
      (slots index).trans (if_pos rfl), rfl, moving, ?_⟩)
    change _ = some content
    rw [files, if_neg (notOld (by simp)), temp]

/-- A call that raises has removed a file that was accepted, or none. -/
theorem Owned.moveRaises {state : State γ} {call : EnqueueCall} (owned : Owned state)
    (unlocked : state.locked = false) (dispensable : state.Dispensable call.fileId) :
    Owned (state.removeOldFile call.fileId) := by
  have files (path : LocalPath) := state.removeOldFile_lookup call.fileId path
  rw [State.removeOldFile_eq]
  generalize (state.removeOldFile call.fileId).files = remaining at files
  have shrunk {path : LocalPath} {content : γ} (found : remaining.lookup path = some content) :
      state.files.lookup path = some content := by
    rw [files] at found
    split at found
    · cases found
    · exact found
  have entry {fileId : Str} {job : Job γ} (present : state.queue.lookup fileId = some job) :=
    owned.entries fileId job present
  have settled {fileId : Str} {job : Job γ} (present : state.queue.lookup fileId = some job) :=
    (entry present).2 fun index => by simp [owned.noneEnqueuing unlocked index]
  have others (fileId : Str) (second : Nat) (different : fileId ≠ call.fileId) :
      remaining.lookup (.upload fileId second) = state.files.lookup (.upload fileId second) := by
    rw [files, if_neg]
    intro removed
    obtain ⟨job, present, path⟩ := Option.map_eq_some_iff.mp removed
    exact uploadPath_ne (entry present).1 different path.symm
  refine ⟨owned.lockHeld, owned.lockUnique, owned.noOverlap, fun index => ?_, ?_, ?_⟩
  · change SlotOk _ (state.slots index)
    have slotOk := owned.slots index
    have idle := owned.noneEnqueuing unlocked index
    cases found : state.slots index with
    | enqueue otherCall serial content point =>
        rw [found] at idle
        rw [EnqueuePoint.eq_submit idle]
        trivial
    | attempt fileId job point =>
        rw [found] at slotOk
        obtain ⟨path, sameEntry, file, last, pointOk⟩ := slotOk
        refine ⟨path, sameEntry, fun content isFile => file content (shrunk isFile), last, ?_⟩
        cases point with
        | missing =>
            change remaining.lookup job.path = none
            rw [files]
            split
            · rfl
            · exact pointOk
        | check | read | sent _ | success _ | removing _ | failure _ _ => exact pointOk
    | free | queued _ | armed _ | done => trivial
  · intro fileId job present
    refine ⟨(entry present).1, fun _ => ⟨fun content found => ?_, (settled present).2⟩⟩
    exact (settled present).1 content (shrunk found)
  · intro fileId last found
    have lastId := lastEnqueued_fileId found
    rcases owned.kept fileId last found with accepted | ⟨job, present, origin, file⟩ | moving
    · exact .inl accepted
    · rw [lastId] at present origin
      by_cases same : fileId = call.fileId
      · obtain ⟨upload, accepted, isOrigin⟩ :=
          dispensable job last.content (same ▸ present) file
        refine .inl ⟨upload, ?_, ?_⟩
        · rw [lastId, same]
          exact accepted
        · rw [isOrigin, ← same, origin]
      · refine .inr (.inl ⟨job, lastId ▸ present, lastId ▸ origin, ?_⟩)
        obtain ⟨second, path⟩ := (entry present).1
        rw [path] at file ⊢
        exact (others fileId second same).trans file
    · obtain ⟨index, -, -, -, -, -, -, -, enqueuing, -⟩ := moving
      rw [owned.noneEnqueuing unlocked index] at enqueuing
      cases enqueuing

theorem Owned.move {state : State γ} {index : Nat} {call : EnqueueCall}
    {serial : Nat} {content : γ} {safePath : LocalPath} {retries : Nat}
    (owned : Owned state)
    (slot : state.slots index = .enqueue call serial content (.move safePath retries)) :
    Owned ((state.moveFile (.journal call.tempName) safePath).setSlot index
      (.enqueue call serial content (.replace safePath retries))) := by
  have slotOk := owned.slots index
  rw [slot] at slotOk
  obtain ⟨own, temp, isLast⟩ := slotOk
  have held : (state.slots index).holdsLock := by
    rw [slot]
    trivial
  have moving : (state.slots index).enqueuing = some call.fileId := by
    rw [slot]
    rfl
  have files (path : LocalPath) := State.moveFile_lookup temp safePath path
  have safe : (state.moveFile (.journal call.tempName) safePath).files.lookup safePath =
      some content := by
    rw [files, if_pos rfl]
  rw [State.moveFile_eq] at safe ⊢
  refine owned.change call.fileId (State.setSlot_slots _ index _) ?same
    (fun other different otherHeld =>
      different (owned.lockUnique other index otherHeld held))
    (fun _ => owned.lockHeld index held) ?before ?after ?apart
    ⟨own, safe, isLast⟩ ?others ?entry ?kept
  case same =>
    intro other different
    refine ⟨rfl, fun second => ?_, rfl, rfl⟩
    exact (files _).trans ((if_neg (uploadPath_ne own different)).trans (if_neg (by simp)))
  case before =>
    intro other enqueuing
    rw [moving, Option.some.injEq] at enqueuing
    exact enqueuing.symm
  case after =>
    intro other enqueuing
    simpa [Slot.enqueuing] using enqueuing.symm
  case apart =>
    intro _ other _
    exact owned.noOverlap index other call.fileId moving
  case others =>
    intro other job point _ attempt
    have absurdity := owned.noOverlap index other call.fileId moving
    simp [attempt, Slot.attempting] at absurdity
  case entry =>
    intro job present
    refine ⟨(owned.entries call.fileId job present).1, fun quiet => ?_⟩
    have absurdity := quiet index
    simp [Slot.enqueuing] at absurdity
  case kept =>
    intro last found
    have same : last = call.enqueued serial content :=
      Option.some.inj (found.symm.trans isLast)
    subst same
    exact Or.inr (Or.inr ⟨index, call, _, _, _, safePath,
      State.setSlot_slots_self _ index _, rfl, by rw [State.setSlot_slots_self]; rfl, safe⟩)

theorem Owned.replace {state : State γ} {index : Nat} {call : EnqueueCall}
    {serial : Nat} {content : γ} {safePath : LocalPath} {retries : Nat}
    (owned : Owned state)
    (slot : state.slots index =
      .enqueue call serial content (.replace safePath retries)) :
    Owned ((state.enqueueReplace call serial content safePath retries).setSlot index
      (.enqueue call serial content .submit)) := by
  have slotOk := owned.slots index
  rw [slot] at slotOk
  obtain ⟨own, safe, isLast⟩ := slotOk
  have held : (state.slots index).holdsLock := by
    rw [slot]
    trivial
  have moving : (state.slots index).enqueuing = some call.fileId := by
    rw [slot]
    rfl
  have queue (other : Str) :
      ((state.enqueueReplace call serial content safePath retries).setSlot index
        (.enqueue call serial content .submit)).queue.lookup other =
        if other = call.fileId then
          some (State.newJob call serial content safePath retries)
        else state.queue.lookup other :=
    Dict.lookup_insert_eq ..
  have isNow {last : Enqueued γ}
      (found : state.lastEnqueued call.fileId = some last) :
      last = call.enqueued serial content :=
    Option.some.inj (found.symm.trans isLast)
  refine owned.change call.fileId (State.setSlot_slots _ index _) ?same
    (fun other different otherHeld =>
      different (owned.lockUnique other index otherHeld held))
    (fun held => held.elim) ?before ?after ?apart trivial ?others ?entry ?kept
  case same =>
    intro other different
    refine ⟨?_, fun second => rfl, rfl, rfl⟩
    rw [queue, if_neg different]
  case before =>
    intro other enqueuing
    rw [moving, Option.some.injEq] at enqueuing
    exact enqueuing.symm
  case after =>
    intro other enqueuing
    simp [Slot.enqueuing] at enqueuing
  case apart =>
    intro enqueuing
    simp [Slot.enqueuing] at enqueuing
  case others =>
    intro other job point _ attempt
    have absurdity := owned.noOverlap index other call.fileId moving
    simp [attempt, Slot.attempting] at absurdity
  case entry =>
    intro job present
    rw [queue, if_pos rfl, Option.some.injEq] at present
    subst present
    refine ⟨own, fun _ => ⟨fun stored found => ?_, fun last found => ?_⟩⟩
    · exact Option.some.inj (found.symm.trans safe)
    · rw [isNow found]
      rfl
  case kept =>
    intro last found
    rw [isNow found]
    refine Or.inr (Or.inl ⟨State.newJob call serial content safePath retries, ?_, rfl, safe⟩)
    exact (queue call.fileId).trans (if_pos rfl)

/-! ## `execute_pending_upload_job` -/

theorem Owned.advance {state : State γ} {index : Nat} {fileId : Str} {job : Job γ}
    {point later : AttemptPoint γ} (owned : Owned state)
    (slot : state.slots index = .attempt fileId job point)
    (lock : ¬ (Slot.attempt fileId job later).holdsLock)
    (ok : PointOk state fileId job later) :
    Owned (state.setSlot index (.attempt fileId job later)) := by
  have slotOk := owned.slots index
  rw [slot] at slotOk
  obtain ⟨path, entry, file, last, -⟩ := slotOk
  refine owned.setSlot (fun held => absurd held lock) ?_ rfl ?_
    ⟨path, entry, file, last, ok⟩
  · rw [slot]
    rfl
  · intro other isId left enqueuing
    have absurdity := owned.noOverlap left index other enqueuing
    rw [slot] at absurdity
    exact absurdity isId

/-- A step after which the slot neither works on the queue nor for a file. -/
theorem Owned.rest {state : State γ} {index : Nat} {slot : Slot γ}
    (owned : Owned state) (before : (state.slots index).enqueuing = none)
    (lock : ¬ slot.holdsLock) (after : slot.enqueuing = none)
    (idle : slot.attempting = none) (ok : SlotOk state slot) :
    Owned (state.setSlot index slot) := by
  refine owned.setSlot (fun held => absurd held lock) before after ?_ ok
  intro fileId attempting
  simp [idle] at attempting

theorem Owned.pick {state : State γ} {index : Nat} {fileId : Str} {job : Job γ}
    (owned : Owned state) (slot : state.slots index = .queued fileId)
    (unlocked : state.locked = false)
    (present : state.queue.lookup fileId = some job) :
    Owned (state.setSlot index (.attempt fileId job .check)) := by
  obtain ⟨path, settled⟩ := owned.entries fileId job present
  obtain ⟨file, last⟩ := settled fun other => by
    simp [owned.noneEnqueuing unlocked other]
  refine owned.setSlot (fun held => held.elim) ?_ rfl ?_
    ⟨path, ?_, file, last, trivial⟩
  · rw [slot]
    rfl
  · intro _ _ other
    simp [owned.noneEnqueuing unlocked other]
  · intro entry found
    have same : entry = job := Option.some.inj (found.symm.trans present)
    exact ⟨congrArg Job.content same, congrArg Job.path same⟩

theorem Owned.record {state : State γ} {index : Nat} {fileId nodeId : Str}
    {job : Job γ} {content : γ} (owned : Owned state)
    (slot : state.slots index = .attempt fileId job (.sent content)) :
    Owned (state.recordAccepted fileId nodeId job content) := by
  have slotOk := owned.slots index
  rw [slot] at slotOk
  obtain ⟨-, -, -, isLast, sent⟩ := slotOk
  have accepted := lastAccepted_cons state (recordAccepted_accepted state fileId nodeId job content)
  have fresh (last : Enqueued γ) (found : state.lastEnqueued fileId = some last) :
      ∃ upload,
        (state.recordAccepted fileId nodeId job content).lastAccepted fileId =
          some upload ∧ upload.origin = last := by
    refine ⟨_, (accepted fileId).trans (if_pos rfl), ?_⟩
    rw [← isLast last found, sent]
    rfl
  have frame (other : Str) (different : other ≠ fileId) :
      SameFor other state (state.recordAccepted fileId nodeId job content) :=
    ⟨rfl, fun _ => rfl, rfl, (accepted other).trans (if_neg (Ne.symm different))⟩
  refine ⟨owned.lockHeld, owned.lockUnique, owned.noOverlap, ?_, owned.entries, ?_⟩
  · intro other
    change SlotOk _ (state.slots other)
    have oldOk := owned.slots other
    cases found : state.slots other with
    | enqueue call serial stored point =>
        rw [found] at oldOk
        cases point <;> exact oldOk
    | attempt otherId otherJob point =>
        rw [found] at oldOk
        by_cases same : otherId = fileId
        · subst same
          obtain ⟨path, entry, file, last, pointOk⟩ := oldOk
          refine ⟨path, entry, file, last, ?_⟩
          cases point with
          | success stored | removing stored => exact ⟨pointOk.1, fresh⟩
          | check | missing | read | sent stored | failure stored isFatal =>
              exact pointOk
        · exact oldOk.frame (frame otherId same)
    | free | queued _ | armed _ | done => trivial
  · intro otherId last found
    have lastId := lastEnqueued_fileId found
    rcases owned.kept otherId last found with ⟨upload, isAccepted⟩ | rest
    · left
      rw [lastId] at isAccepted ⊢
      by_cases same : otherId = fileId
      · subst same
        exact fresh last found
      · rw [(frame otherId same).accepted]
        exact ⟨upload, isAccepted⟩
    · exact Or.inr rest

theorem Owned.forget {state : State γ} {index : Nat} {fileId : Str} {job : Job γ}
    {content : γ} (owned : Owned state)
    (slot : state.slots index = .attempt fileId job (.success content))
    (unlocked : state.locked = false) :
    Owned ({ state with
        locked := true
        files := state.files.erase job.path }.setSlot index
      (.attempt fileId job (.removing content))) := by
  have slotOk := owned.slots index
  rw [slot] at slotOk
  obtain ⟨own, entry, file, isLast, sent⟩ := slotOk
  have files (path : LocalPath) :
      (state.files.erase job.path).lookup path =
        if path = job.path then none else state.files.lookup path :=
    Dict.lookup_erase_eq ..
  have shrunk {path : LocalPath} {stored : γ}
      (found : (state.files.erase job.path).lookup path = some stored) :
      state.files.lookup path = some stored := by
    rw [files] at found
    split at found
    · simp at found
    · exact found
  refine owned.change fileId (State.setSlot_slots _ index _) ?same
    (fun other _ => owned.notHeld unlocked other) (fun _ => rfl) ?before
    (fun other enqueuing => by simp [Slot.enqueuing] at enqueuing)
    (fun enqueuing => by simp [Slot.enqueuing] at enqueuing) ?ok ?others ?entry ?kept
  case same =>
    intro other different
    refine ⟨rfl, fun second => ?_, rfl, rfl⟩
    exact (files _).trans (if_neg (uploadPath_ne own different))
  case before =>
    intro other enqueuing
    simp [slot, Slot.enqueuing] at enqueuing
  case ok =>
    exact ⟨own, entry, fun stored found => file stored (shrunk found), isLast, sent⟩
  case others =>
    intro other otherJob point _ attempt
    have otherOk := owned.slots other
    rw [attempt] at otherOk
    obtain ⟨path, otherEntry, otherFile, last, pointOk⟩ := otherOk
    refine ⟨path, otherEntry, fun stored found => otherFile stored (shrunk found),
      last, ?_⟩
    cases point with
    | missing =>
        change (state.files.erase job.path).lookup otherJob.path = none
        rw [files]
        split
        · rfl
        · exact pointOk
    | check | read | sent stored | success stored | removing stored
    | failure stored isFatal => exact pointOk
  case entry =>
    intro other present
    obtain ⟨path, settled⟩ := owned.entries fileId other present
    obtain ⟨otherFile, last⟩ := settled fun left => by
      simp [owned.noneEnqueuing unlocked left]
    exact ⟨path, fun _ => ⟨fun stored found => otherFile stored (shrunk found), last⟩⟩
  case kept =>
    intro last found
    left
    rw [lastEnqueued_fileId found]
    exact sent.2 last found

/-- Dropping the entry of an attempt whose content is safe, or lost its file
before the attempt looked for it. -/
theorem Owned.dropEntry {state : State γ} {index : Nat} {fileId : Str} {job : Job γ}
    {point : AttemptPoint γ} (owned : Owned state)
    (slot : state.slots index = .attempt fileId job point)
    (lone : ∀ other, other ≠ index → ¬ (state.slots other).holdsLock)
    (safe : ∀ last, state.lastEnqueued fileId = some last →
      ∃ upload, state.lastAccepted fileId = some upload ∧ upload.origin = last) :
    Owned ((state.removeEntry fileId).setSlot index .done) := by
  have queue (other : Str) :
      ((state.removeEntry fileId).setSlot index .done).queue.lookup other =
        if other = fileId then none else state.queue.lookup other :=
    Dict.lookup_erase_eq ..
  refine owned.change fileId (State.setSlot_slots _ index _) ?same lone
    (fun held => held.elim) ?before
    (fun other enqueuing => by simp [Slot.enqueuing] at enqueuing)
    (fun enqueuing => by simp [Slot.enqueuing] at enqueuing) trivial ?others ?entry ?kept
  case same =>
    intro other different
    exact ⟨(queue other).trans (if_neg different), fun _ => rfl, rfl, rfl⟩
  case before =>
    intro other enqueuing
    simp [slot, Slot.enqueuing] at enqueuing
  case others =>
    intro other otherJob otherPoint _ attempt
    have otherOk := owned.slots other
    rw [attempt] at otherOk
    obtain ⟨path, -, file, last, pointOk⟩ := otherOk
    refine ⟨path, ?_, file, last, ?_⟩
    · intro entry present
      rw [queue, if_pos rfl] at present
      simp at present
    · cases otherPoint <;> exact pointOk
  case entry =>
    intro entry present
    rw [queue, if_pos rfl] at present
    simp at present
  case kept =>
    intro last found
    left
    rw [lastEnqueued_fileId found]
    exact safe last found

/-- The entry of an attempt that found its local file missing is not waiting
for the upload of the newest content. -/
theorem Owned.safe_of_missing {state : State γ} {index : Nat} {fileId : Str}
    {job : Job γ} (owned : Owned state)
    (slot : state.slots index = .attempt fileId job .missing)
    (unlocked : state.locked = false) (last : Enqueued γ)
    (found : state.lastEnqueued fileId = some last) :
    ∃ upload, state.lastAccepted fileId = some upload ∧ upload.origin = last := by
  have slotOk := owned.slots index
  rw [slot] at slotOk
  obtain ⟨-, entry, -, -, missing⟩ := slotOk
  have lastId := lastEnqueued_fileId found
  rcases owned.kept fileId last found with accepted | queued | moving
  · rwa [lastId] at accepted
  · obtain ⟨waiting, present, -, file⟩ := queued
    rw [lastId] at present
    have gone : state.files.lookup waiting.path = none := by
      rw [(entry waiting present).2]
      exact missing
    simp [gone] at file
  · obtain ⟨other, call, _, _, point, path, -, -, enqueuing, -⟩ := moving
    simp [owned.noneEnqueuing unlocked other] at enqueuing

/-- `_handle_failure` keeps path and content of every entry. -/
theorem Owned.fail {maxRetries : Nat} {state next : State γ} {index : Nat}
    {fileId : Str} {job : Job γ} {content : γ} {isFatal armed : Bool} {slot : Slot γ}
    (owned : Owned state)
    (attempt : state.slots index = .attempt fileId job (.failure content isFatal))
    (unlocked : state.locked = false)
    (handled : state.handleFailure maxRetries fileId isFatal = (next, armed))
    (after : slot = .armed fileId ∨ slot = .done) :
    Owned (next.setSlot index slot) := by
  have queue := State.handleFailure_lookup handled
  have handledEq := State.handleFailure_eq handled
  have files : next.files = state.files := by rw [handledEq]
  have slots : next.slots = state.slots := by rw [handledEq]
  have enqueued : next.lastEnqueued = state.lastEnqueued := by
    funext other
    rw [handledEq]
    rfl
  have accepted : next.lastAccepted = state.lastAccepted := by
    funext other
    rw [handledEq]
    rfl
  have entryOf {entry : Job γ} (present : next.queue.lookup fileId = some entry) :
      ∃ old, state.queue.lookup fileId = some old ∧ old.path = entry.path ∧
        old.content = entry.content ∧ old.origin fileId = entry.origin fileId := by
    rw [queue, if_pos rfl, Option.map_eq_some_iff] at present
    obtain ⟨old, found, rfl⟩ := present
    exact ⟨old, found, rfl, rfl, rfl⟩
  have idle : slot.enqueuing = none ∧ ¬ slot.holdsLock ∧ SlotOk (next.setSlot index slot) slot := by
    rcases after with rfl | rfl <;> exact ⟨rfl, fun held => held.elim, trivial⟩
  have moved (other : Nat) : (next.setSlot index slot).slots other =
      if other = index then slot else state.slots other := by
    rw [State.setSlot_slots, slots]
  refine owned.change fileId moved ?same (fun other _ => owned.notHeld unlocked other)
    (fun held => absurd held idle.2.1) ?before ?after ?apart idle.2.2 ?others
    ?entry ?kept
  case same =>
    intro other different
    refine ⟨(queue other).trans (if_neg different), fun second => ?_,
      congrFun enqueued other, congrFun accepted other⟩
    rw [State.setSlot_files, files]
  case before =>
    intro other enqueuing
    simp [attempt, Slot.enqueuing] at enqueuing
  case after =>
    intro other enqueuing
    simp [idle.1] at enqueuing
  case apart =>
    intro enqueuing
    simp [idle.1] at enqueuing
  case others =>
    intro other otherJob point _ found
    have otherOk := owned.slots other
    rw [found] at otherOk
    obtain ⟨path, entry, file, last, pointOk⟩ := otherOk
    refine ⟨path, ?_, ?_, ?_, ?_⟩
    · intro present isEntry
      obtain ⟨old, isOld, samePath, sameContent, -⟩ := entryOf isEntry
      exact ⟨sameContent ▸ (entry old isOld).1, samePath ▸ (entry old isOld).2⟩
    · rwa [State.setSlot_files, files]
    · exact fun present isLast => last present ((congrFun enqueued fileId).symm.trans isLast)
    · cases point with
      | missing =>
          change next.files.lookup otherJob.path = none
          rw [files]
          exact pointOk
      | success stored | removing stored =>
          refine ⟨pointOk.1, fun present isLast => ?_⟩
          change ∃ upload, next.lastAccepted fileId = some upload ∧ _
          rw [accepted]
          exact pointOk.2 present ((congrFun enqueued fileId).symm.trans isLast)
      | check | read | sent stored | failure stored isFatal => exact pointOk
  case entry =>
    intro entry present
    obtain ⟨old, isOld, samePath, sameContent, sameOrigin⟩ := entryOf present
    obtain ⟨path, settled⟩ := owned.entries fileId old isOld
    obtain ⟨file, last⟩ := settled fun left => by
      simp [owned.noneEnqueuing unlocked left]
    rw [samePath] at path file
    rw [sameContent] at file
    rw [sameOrigin] at last
    refine ⟨path, fun _ => ⟨?_, ?_⟩⟩
    · rwa [State.setSlot_files, files]
    · exact fun present isLast => last present ((congrFun enqueued fileId).symm.trans isLast)
  case kept =>
    intro last found
    have isLast := (congrFun enqueued fileId).symm.trans found
    have lastId := lastEnqueued_fileId isLast
    rcases owned.kept fileId last isLast with isAccepted | queued | moving
    · left
      change ∃ upload, next.lastAccepted last.fileId = some upload ∧ _
      rwa [accepted]
    · right; left
      obtain ⟨waiting, present, origin, file⟩ := queued
      rw [lastId] at present origin ⊢
      refine ⟨State.failedJob maxRetries waiting isFatal, ?_, origin, ?_⟩
      · exact (queue fileId).trans (by rw [if_pos rfl, present]; rfl)
      · rw [State.setSlot_files, files]
        exact file
    · obtain ⟨other, call, _, _, point, path, -, -, enqueuing, -⟩ := moving
      simp [owned.noneEnqueuing unlocked other] at enqueuing

/-! ## Runs -/

theorem Settled.owned {state : State γ} (settled : Settled state) : Owned state := by
  have idle (index : Nat) : (state.slots index).enqueuing = none ∧
      (state.slots index).attempting = none ∧ ¬ (state.slots index).holdsLock ∧
      SlotOk state (state.slots index) := by
    rcases settled.idle index with ⟨fileId, slot⟩ | ⟨fileId, slot⟩ | slot <;>
      rw [slot] <;> exact ⟨rfl, rfl, fun held => held.elim, trivial⟩
  refine ⟨?_, ?_, ?_, fun index => (idle index).2.2.2, ?_, ?_⟩
  · intro index held
    exact absurd held (idle index).2.2.1
  · intro left right held
    exact absurd held (idle left).2.2.1
  · intro left right fileId enqueuing
    simp [(idle left).1] at enqueuing
  · intro fileId job present
    refine ⟨settled.path fileId job present, fun _ =>
      ⟨settled.file fileId job present, fun last found => ?_⟩⟩
    obtain ⟨entry, isEntry, origin, -⟩ := settled.last fileId last found
    have same : entry = job := Option.some.inj (isEntry.symm.trans present)
    exact same ▸ origin
  · intro fileId last found
    right; left
    rw [lastEnqueued_fileId found]
    exact settled.last fileId last found

/-- Every step of the discipline keeps the invariant. -/
theorem Owned.step {maxRetries : Nat} {state next : State γ} {label : Label}
    (owned : Owned state) (apart : NoOverlap state label)
    (stepped : Stepped maxRetries state label next) : Owned next := by
  have notEnqueuing {index : Nat} {slot : Slot γ} (isSlot : state.slots index = slot)
      (idle : slot.enqueuing = none) : (state.slots index).enqueuing = none := by
    rw [isSlot, idle]
  obtain ⟨working, alone, dispensable⟩ := apart
  cases stepped with
  | begin ready slot temp unlocked =>
      exact owned.begin _ slot temp unlocked (alone _ _ _ rfl)
  | moveRaises ready unlocked => exact owned.moveRaises unlocked (dispensable _ rfl)
  | move slot => exact owned.move slot
  | replace slot => exact owned.replace slot
  | submit slot =>
      exact owned.rest (notEnqueuing slot rfl) (fun held => held) rfl rfl trivial
  | pickNothing slot unlocked idle =>
      exact owned.rest (notEnqueuing slot rfl) (fun held => held) rfl rfl trivial
  | pick slot unlocked entry pending => exact owned.pick slot unlocked entry
  | checkExists slot file => exact owned.advance slot (fun held => held) trivial
  | checkMissing slot file => exact owned.advance slot (fun held => held) file
  | @read index fileId job content slot file =>
      have slotOk := owned.slots index
      rw [slot] at slotOk
      exact owned.advance slot (fun held => held) (slotOk.2.2.1 content file)
  | readVanished slot file => exact owned.advance slot (fun held => held) rfl
  | @replyAccepted index fileId job content nodeId slot =>
      have slotOk := owned.slots index
      rw [slot] at slotOk
      obtain ⟨-, -, -, isLast, sent⟩ := slotOk
      refine (owned.record slot).advance slot (fun held => held) ⟨sent, ?_⟩
      intro last found
      refine ⟨_, (lastAccepted_cons state rfl fileId).trans (if_pos rfl), ?_⟩
      rw [← isLast last found, sent]
      rfl
  | @replyRejected index fileId job content slot =>
      have slotOk := owned.slots index
      rw [slot] at slotOk
      exact owned.advance slot (fun held => held) slotOk.2.2.2.2
  | @replyQuota index fileId job content slot =>
      have slotOk := owned.slots index
      rw [slot] at slotOk
      have tripped : Owned { state with quotaExceeded := true } :=
        owned.congr rfl rfl rfl rfl rfl rfl
      exact tripped.advance slot (fun held => held) slotOk.2.2.2.2
  | forget slot unlocked => exact owned.forget slot unlocked
  | @popRemoved index fileId job content slot =>
      have slotOk := owned.slots index
      rw [slot] at slotOk
      have held : (state.slots index).holdsLock := by
        rw [slot]
        trivial
      exact owned.dropEntry slot
        (fun other different otherHeld =>
          different (owned.lockUnique other index otherHeld held))
        slotOk.2.2.2.2.2
  | popMissing slot unlocked =>
      exact owned.dropEntry slot (fun other _ => owned.notHeld unlocked other)
        (owned.safe_of_missing slot unlocked)
  | failRetry slot unlocked handled =>
      exact owned.fail slot unlocked handled (Or.inl rfl)
  | failOver slot unlocked handled =>
      exact owned.fail slot unlocked handled (Or.inr rfl)
  | fire slot =>
      exact owned.rest (notEnqueuing slot rfl) (fun held => held) rfl rfl trivial
  | crash | start _ _ | recover _ _ _ _ _ | recoverSkip _ _ | recovered _ _
  | resume _ _ | sweepDone _ | sweep _ _ => exact working.elim

/-- The bytes an attempt has read are those of the entry it picked. -/
theorem PointOk.tried {state : State γ} {fileId : Str} {job : Job γ}
    {point : AttemptPoint γ} (ok : PointOk state fileId job point) :
    job.content = point.tried job := by
  cases point with
  | check | missing | read => rfl
  | sent content | failure content isFatal => exact ok.symm
  | success content | removing content => exact ok.1.symm

theorem Owned.ownFate {state : State γ} (owned : Owned state) (label : Label) :
    OwnFate state label := by
  cases label with
  | forget index =>
      intro fileId job point slot content file
      have slotOk := owned.slots index
      rw [slot] at slotOk
      exact (slotOk.2.2.1 content file).trans slotOk.2.2.2.2.tried
  | pop index | fail index =>
      intro fileId job point slot entry present
      have slotOk := owned.slots index
      rw [slot] at slotOk
      exact (slotOk.2.1 entry present).1.trans slotOk.2.2.2.2.tried
  | begin _ _ _ | moveRaises _ | move _ | replace _ | submit _ | pick _ | check _ | read _
  | reply _ _ | fire _ | crash | start _ | recover _ _ _ | recovered | resume
  | sweep _ => trivial

theorem owned_of_reaches {maxRetries : Nat} {start finish : State γ}
    (settled : Settled start)
    (reached : Reaches (step maxRetries) NoOverlap start finish) : Owned finish :=
  reached.invariant
    (fun owned apart taken => owned.step apart (stepped_of_step taken))
    settled.owned

/-- The outcome of an attempt never decides the fate of a later content, in
every run of the discipline. -/
theorem ownFate_of_noOverlap {maxRetries : Nat} {start finish : State γ}
    (settled : Settled start)
    (reached : Reaches (step maxRetries) NoOverlap start finish) :
    (∀ label next, step maxRetries finish label = some next → OwnFate finish label) ∧
      ∀ fileId last, finish.lastEnqueued fileId = some last → Kept finish last := by
  have owned := owned_of_reaches settled reached
  exact ⟨fun label _ _ => owned.ownFate label, owned.kept⟩

theorem Settled.ready (files : Dict LocalPath γ) : Settled (State.ready files) :=
  ⟨rfl, fun _ => Or.inr (Or.inr rfl), nofun, nofun, nofun⟩

/-- Two saves of the file `f`, made for the contents 1 and 2. -/
def twoSaves : Dict LocalPath Nat :=
  (∅ : Dict LocalPath Nat)
    |>.insert (.journal ['x']) 1 |>.insert (.journal ['y']) 2

def saveCall (tempName : Str) : EnqueueCall := ⟨['f'], tempName, false, none, none⟩

/-- A save of `f`, a second one in the same second, and the upload of its file
by the task of the first. -/
def firstSave : List Label :=
  [.begin 0 (saveCall ['x']) 7, .move 0, .replace 0, .submit 0]

def secondSave : List Label :=
  [.move 1, .replace 1, .submit 1, .pick 0, .check 0, .read 0, .reply 0 (.accepted ['f'])]

/-- A call that raises once the second save is accepted, and the end of the
attempt. -/
def savesInTurn : List Label :=
  firstSave ++ (.begin 1 (saveCall ['y']) 7 :: secondSave ++
    [.moveRaises (saveCall ['x']), .forget 0, .pop 0, .pick 1])

theorem savesInTurn_allowed :
    AllowedAlong (step 5) NoOverlap (State.ready twoSaves) savesInTurn := by
  refine AllowedAlong.append ⟨⟨trivial, ?_, nofun⟩, fun _ _ => AllowedAlong.of_forall ?_⟩ ?_
  · intro _ _ _ _ other
    simp [State.ready, State.stopped, Slot.attempting]
  · simp [NoOverlap, Label.working]
  intro saved first
  have resting (other : Nat) : (saved.slots other).attempting = none :=
    look_of_run first _ (show (run (step 5) (State.ready twoSaves) firstSave).map
      (fun state => (state.slots other).attempting) = some none from by
        rcases other with _ | other <;> rfl)
  refine ⟨⟨trivial, ?_, nofun⟩, fun begun second => AllowedAlong.append
    (AllowedAlong.of_forall ?_) ?_⟩
  · intro _ _ _ _ other
    simp [resting other]
  · simp [secondSave, NoOverlap, Label.working]
  intro accepted answered
  have reached : run (step 5) (State.ready twoSaves)
      (firstSave ++ (.begin 1 (saveCall ['y']) 7 :: secondSave)) = some accepted := by
    rw [run_append, first]
    exact (congrArg (Option.bind · _) second).trans answered
  have entry : (accepted.queue.lookup ['f']).map (Job.origin ['f']) =
      some ((saveCall ['y']).enqueued 1 2) :=
    look_of_run reached (fun state => (state.queue.lookup ['f']).map (Job.origin ['f'])) rfl
  have last : (accepted.lastAccepted ['f']).map Accepted.origin =
      some ((saveCall ['y']).enqueued 1 2) :=
    look_of_run reached (fun state => (state.lastAccepted ['f']).map Accepted.origin) rfl
  refine ⟨⟨trivial, nofun, ?_⟩, fun _ _ => AllowedAlong.of_forall ?_⟩
  · intro call isCall job _ present _
    cases isCall
    obtain ⟨upload, isLast, origin⟩ := Option.map_eq_some_iff.mp last
    refine ⟨upload, isLast, origin.trans ?_⟩
    change accepted.queue.lookup ['f'] = some job at present
    rw [present] at entry
    exact (Option.some.inj entry).symm
  · simp [NoOverlap, Label.working]

theorem ownFate_of_noOverlap_two_saves :
    ∃ finish, run (step 5) (State.ready twoSaves) savesInTurn = some finish ∧
      (∀ label next, step 5 finish label = some next → OwnFate finish label) ∧
      ∀ fileId last, finish.lastEnqueued fileId = some last → Kept finish last := by
  obtain ⟨finish, executed⟩ := Option.isSome_iff_exists.mp
    (show (run (step 5) (State.ready twoSaves) savesInTurn).isSome from rfl)
  exact ⟨finish, executed, ownFate_of_noOverlap (Settled.ready twoSaves)
    (Reaches.of_run savesInTurn_allowed executed)⟩

/-- A second save while the first attempt waits for the storage, up to the
attempt having deleted its local file. -/
def overlappingSaves : List Label :=
  [.begin 0 (saveCall ['x']) 7, .move 0, .replace 0, .submit 0, .pick 0, .check 0,
    .read 0, .reply 0 (.accepted ['f']), .begin 1 (saveCall ['y']) 8, .move 1,
    .replace 1, .forget 0]

/-- The first attempt then drops the entry of the second save. -/
theorem ownFate_fails_on_overlap :
    ¬ ∀ start finish : State Nat, Settled start →
      Reaches (step 5) (fun _ label => label.working) start finish →
        (∀ label next, step 5 finish label = some next → OwnFate finish label) ∧
          ∀ fileId last, finish.lastEnqueued fileId = some last →
            Kept finish last := by
  intro holds
  obtain ⟨finish, executed⟩ := Option.isSome_iff_exists.mp
    (show (run (step 5) (State.ready twoSaves) overlappingSaves).isSome from rfl)
  have popped : ((run (step 5) (State.ready twoSaves) overlappingSaves).bind
      (step 5 · (.pop 0))).isSome := rfl
  have slot : (run (step 5) (State.ready twoSaves) overlappingSaves).map (·.slots 0) =
      some (.attempt ['f'] (State.newJob (saveCall ['x']) 0 1 (.upload ['f'] 7) 0)
        (.removing 1)) := rfl
  have entry : (run (step 5) (State.ready twoSaves) overlappingSaves).map
      (·.queue.lookup ['f']) =
      some (some (State.newJob (saveCall ['y']) 1 2 (.upload ['f'] 8) 0)) := rfl
  rw [executed] at popped slot entry
  obtain ⟨next, taken⟩ := Option.isSome_iff_exists.mp popped
  have along : AllowedAlong (step 5) (fun _ label => label.working)
      (State.ready twoSaves) overlappingSaves :=
    AllowedAlong.of_forall (by simp [overlappingSaves, Label.working])
  have ownFate := (holds _ finish (Settled.ready twoSaves)
    (Reaches.of_run along executed)).1 (.pop 0) next taken
  have same := ownFate _ _ _ (Option.some.inj slot) _ (Option.some.inj entry)
  simp [State.newJob, AttemptPoint.tried] at same

end FuseDrive.Upload
