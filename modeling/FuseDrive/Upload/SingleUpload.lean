import FuseDrive.Upload.Manager

/-!
# One task for each queue entry

Tasks for a file id come from `enqueue_file_for_upload`, from the journal
recovery and the sweep of `__init__`, and from retry timers; the entry itself
does not say whether a task is at work on it.  As long as none of these
sources adds a task for an id that has one already, an entry is sent by one
attempt at a time and a create entry is accepted at most once, over any number
of restarts.  The start-up sweep breaks that discipline for every journal file
that has just been recovered.
-/

namespace FuseDrive.Upload

open Transition

variable {γ : Type}

/-- The id whose life line the slot is. -/
def Slot.live : Slot γ → Option Str
  | .enqueue call _ _ _ => some call.fileId
  | .queued fileId | .attempt fileId _ _ | .armed fileId => some fileId
  | .free | .done => none

/-- The identity of the entry an `enqueue_file_for_upload` call is about to
put into the queue. -/
def Slot.newSerial : Slot γ → Option Nat
  | .enqueue _ serial _ (.move _ _) | .enqueue _ serial _ (.replace _ _) => some serial
  | _ => none

/-- The id of an attempt between the answer of Drive and the removal of the
entry. -/
def Slot.accepting : Slot γ → Option Str
  | .attempt fileId _ (.success _) | .attempt fileId _ (.removing _) => some fileId
  | _ => none

/-- A crash does not fall between the answer of Drive and the removal of the
entry. -/
def CleanCrash (state : State γ) (label : Label) : Prop :=
  label = .crash → ∀ index, (state.slots index).accepting = none

/-- The discipline: no source adds a task for an id that has one. -/
def OneTask (state : State γ) (label : Label) : Prop :=
  CleanCrash state label ∧
    match label with
    | .begin _ call _ => ∀ index, (state.slots index).live ≠ some call.fileId
    | .recover _ uuid _ => ∀ name names call, state.boot = .recovering (name :: names) →
        recoveryCall uuid name = some call →
          ∀ index, (state.slots index).live ≠ some call.fileId
    | .resume => ∀ fileId ∈ state.pendingIds,
        ∀ index, (state.slots index).live ≠ some fileId
    | _ => True

/-- No two attempts have the request of one entry with the storage. -/
def SentOnce (state : State γ) : Prop :=
  ∀ left right leftId rightId leftJob rightJob leftContent rightContent,
    state.slots left = .attempt leftId leftJob (.sent leftContent) →
    state.slots right = .attempt rightId rightJob (.sent rightContent) →
    leftJob.serial = rightJob.serial → left = right

/-- The create entries whose upload the storage accepted. -/
def State.created (state : State γ) : List Nat :=
  (state.accepted.filter fun upload => upload.jobType = .create).map Accepted.serial

/-- No create entry was accepted twice. -/
def CreatedOnce (state : State γ) : Prop :=
  state.created.Nodup

/-- The process has not been started yet: any journal files and any saved
queue, whose entries are different objects. -/
structure Cold (state : State γ) : Prop where
  boot : state.boot = .off
  slots : ∀ index, state.slots index = .free
  accepted : state.accepted = []
  bounded : ∀ fileId job, state.savedQueue.lookup fileId = some job →
    job.serial < state.nextSerial
  distinct : ∀ left right leftJob rightJob,
    state.savedQueue.lookup left = some leftJob →
    state.savedQueue.lookup right = some rightJob →
    leftJob.serial = rightJob.serial → left = right

/-! ## The invariant -/

/-- What holds of a slot between two of its steps. -/
def SingleSlot (state : State γ) : Slot γ → Prop
  | .enqueue _ serial _ (.move _ _) | .enqueue _ serial _ (.replace _ _) =>
      serial < state.nextSerial ∧
        (∀ fileId job, state.savedQueue.lookup fileId = some job →
          job.serial ≠ serial) ∧
        ∀ upload ∈ state.accepted, upload.serial ≠ serial
  | .attempt fileId job _ =>
      ∃ entry, state.savedQueue.lookup fileId = some entry ∧ entry.serial = job.serial
  | _ => True

structure Single (state : State γ) : Prop where
  saved : state.boot ≠ .off → state.savedQueue = state.queue
  off : state.boot = .off → ∀ index, (state.slots index).live = none
  bounded : ∀ fileId job, state.savedQueue.lookup fileId = some job →
    job.serial < state.nextSerial
  distinct : ∀ left right leftJob rightJob,
    state.savedQueue.lookup left = some leftJob →
    state.savedQueue.lookup right = some rightJob →
    leftJob.serial = rightJob.serial → left = right
  lone : ∀ left right fileId, (state.slots left).live = some fileId →
    (state.slots right).live = some fileId → left = right
  calls : ∀ left right serial, (state.slots left).newSerial = some serial →
    (state.slots right).newSerial = some serial → left = right
  slots : ∀ index, SingleSlot state (state.slots index)
  past : ∀ upload ∈ state.accepted, upload.serial < state.nextSerial
  created : CreatedOnce state
  leaving : ∀ upload ∈ state.accepted, upload.jobType = .create →
    ∀ fileId job, state.savedQueue.lookup fileId = some job →
      job.serial = upload.serial → ∃ index, (state.slots index).accepting = some fileId
  sweeping : ∀ fileIds, state.boot = .sweeping fileIds →
    fileIds.Nodup ∧ ∀ fileId ∈ fileIds, ∀ index, (state.slots index).live ≠ some fileId

theorem Slot.live_of_accepting {slot : Slot γ} {fileId : Str}
    (accepting : slot.accepting = some fileId) : slot.live = some fileId := by
  cases slot with
  | attempt otherId job point =>
      cases point with
      | success content | removing content => exact accepting
      | check | missing | read | sent content | failure content isFatal =>
          simp [Slot.accepting] at accepting
  | free | enqueue _ _ _ _ | queued _ | armed _ | done =>
      simp [Slot.accepting] at accepting

/-- A slot with a life line only exists in a started process, where the saved
queue is the queue. -/
theorem Single.saved_of_live {state : State γ} (single : Single state)
    {index : Nat} {fileId : Str} (live : (state.slots index).live = some fileId) :
    state.boot ≠ .off ∧ state.savedQueue = state.queue := by
  have started : state.boot ≠ .off := by
    intro off
    simp [single.off off index] at live
  exact ⟨started, single.saved started⟩

/-- A call that is about to make its entry has a serial of its own. -/
theorem SingleSlot.fresh {state : State γ} {slot : Slot γ} {serial : Nat}
    (ok : SingleSlot state slot) (isNew : slot.newSerial = some serial) :
    serial < state.nextSerial ∧
      (∀ fileId job, state.savedQueue.lookup fileId = some job → job.serial ≠ serial) ∧
      ∀ upload ∈ state.accepted, upload.serial ≠ serial := by
  cases slot with
  | enqueue call own content point =>
      cases point with
      | move safePath retries | replace safePath retries =>
          cases isNew
          exact ok
      | submit => cases isNew
  | free | queued _ | attempt _ _ _ | armed _ | done => cases isNew

/-- What a slot knows stays true while its new serial does not come up and the
entry of its id stays. -/
theorem SingleSlot.frame {state next : State γ} {slot : Slot γ}
    (ok : SingleSlot state slot) (later : state.nextSerial ≤ next.nextSerial)
    (entries : ∀ fileId job, next.savedQueue.lookup fileId = some job →
      slot.newSerial = some job.serial →
        ∃ old, state.savedQueue.lookup fileId = some old ∧ old.serial = job.serial)
    (accepted : ∀ upload ∈ next.accepted, slot.newSerial = some upload.serial →
      upload ∈ state.accepted)
    (live : ∀ fileId, slot.live = some fileId →
      next.savedQueue.lookup fileId = state.savedQueue.lookup fileId) :
    SingleSlot next slot := by
  cases slot with
  | enqueue call serial content point =>
      cases point with
      | move safePath retries | replace safePath retries =>
          obtain ⟨bounded, fresh, unseen⟩ := ok
          refine ⟨Nat.lt_of_lt_of_le bounded later, ?_, ?_⟩
          · intro fileId job present same
            obtain ⟨old, wasPresent, oldSerial⟩ :=
              entries fileId job present (congrArg some same.symm)
            exact fresh fileId old wasPresent (oldSerial.trans same)
          · intro upload member same
            exact unseen upload (accepted upload member (congrArg some same.symm)) same
      | submit => trivial
  | attempt fileId job point =>
      change ∃ entry, next.savedQueue.lookup fileId = some entry ∧ _
      rw [live fileId rfl]
      exact ok
  | free | queued _ | armed _ | done => trivial

theorem SingleSlot.congr {state next : State γ} {slot : Slot γ}
    (saved : next.savedQueue = state.savedQueue)
    (accepted : next.accepted = state.accepted)
    (later : state.nextSerial ≤ next.nextSerial)
    (ok : SingleSlot state slot) : SingleSlot next slot := by
  refine ok.frame later ?_ ?_ ?_
  · intro fileId job present _
    rw [saved] at present
    exact ⟨job, present, rfl⟩
  · intro upload member _
    rw [accepted] at member
    exact member
  · intro fileId _
    rw [saved]

/-! ## Steps of one slot that leave the saved queue alone -/

theorem Single.moveSlot {state next : State γ} {index : Nat} {slot : Slot γ}
    (single : Single state)
    (slots : ∀ other, next.slots other =
      if other = index then slot else state.slots other)
    (boot : next.boot = state.boot)
    (saved : next.savedQueue = state.savedQueue) (queue : next.queue = state.queue)
    (serials : next.nextSerial = state.nextSerial)
    (accepted : next.accepted = state.accepted)
    (live : ∀ fileId, slot.live = some fileId →
      (state.slots index).live = some fileId)
    (newSerial : ∀ serial, slot.newSerial = some serial →
      (state.slots index).newSerial = some serial)
    (accepting : ∀ fileId, (state.slots index).accepting = some fileId →
      slot.accepting = some fileId)
    (ok : SingleSlot state slot) : Single next := by
  have liveBefore (other : Nat) (fileId : Str)
      (isLive : (next.slots other).live = some fileId) :
      (state.slots other).live = some fileId := by
    rw [slots] at isLive
    split at isLive
    · rename_i same
      exact same ▸ live fileId isLive
    · exact isLive
  have newBefore (other : Nat) (serial : Nat)
      (isNew : (next.slots other).newSerial = some serial) :
      (state.slots other).newSerial = some serial := by
    rw [slots] at isNew
    split at isNew
    · rename_i same
      exact same ▸ newSerial serial isNew
    · exact isNew
  refine ⟨?_, ?_, ?_, ?_, ?_, ?_, ?_, ?_, ?_, ?_, ?_⟩
  · rw [boot, saved, queue]
    exact single.saved
  · intro off other
    rw [boot] at off
    cases isLive : (next.slots other).live with
    | none => rfl
    | some fileId =>
        rw [← liveBefore other fileId isLive]
        exact single.off off other
  · rw [saved, serials]
    exact single.bounded
  · rw [saved]
    exact single.distinct
  · intro left right fileId leftLive rightLive
    exact single.lone left right fileId (liveBefore left fileId leftLive)
      (liveBefore right fileId rightLive)
  · intro left right serial leftNew rightNew
    exact single.calls left right serial (newBefore left serial leftNew)
      (newBefore right serial rightNew)
  · intro other
    rw [slots]
    split
    · exact ok.congr saved accepted serials.ge
    · exact (single.slots other).congr saved accepted serials.ge
  · rw [accepted, serials]
    exact single.past
  · unfold CreatedOnce State.created
    rw [accepted]
    exact single.created
  · intro upload member create fileId job present same
    rw [accepted] at member
    rw [saved] at present
    obtain ⟨other, isAccepting⟩ :=
      single.leaving upload member create fileId job present same
    refine ⟨other, ?_⟩
    rw [slots]
    split
    · rename_i isIndex
      subst isIndex
      exact accepting fileId isAccepting
    · exact isAccepting
  · intro fileIds sweeping
    rw [boot] at sweeping
    obtain ⟨nodup, apart⟩ := single.sweeping fileIds sweeping
    refine ⟨nodup, fun fileId member other isLive => ?_⟩
    exact apart fileId member other (liveBefore other fileId isLive)

theorem Single.accept {state : State γ} {index : Nat} {fileId nodeId : Str}
    {job : Job γ} {content : γ} (single : Single state)
    (slot : state.slots index = .attempt fileId job (.sent content)) :
    Single ((state.recordAccepted fileId nodeId job content).setSlot index
      (.attempt fileId job (.success content))) := by
  have live : (state.slots index).live = some fileId := by
    rw [slot]
    rfl
  have slotOk := single.slots index
  rw [slot] at slotOk
  obtain ⟨entry, present, serial⟩ := slotOk
  have slots := State.setSlot_slots (state.recordAccepted fileId nodeId job content)
    index (.attempt fileId job (.success content))
  have liveSame (other : Nat) :
      (((state.recordAccepted fileId nodeId job content).setSlot index
        (.attempt fileId job (.success content))).slots other).live =
        (state.slots other).live := by
    rw [slots]
    split
    · rename_i same
      rw [same, live]
      rfl
    · rfl
  have newSame (other : Nat) :
      (((state.recordAccepted fileId nodeId job content).setSlot index
        (.attempt fileId job (.success content))).slots other).newSerial =
        (state.slots other).newSerial := by
    rw [slots]
    split
    · rename_i same
      rw [same, slot]
      rfl
    · rfl
  -- an earlier upload of the entry would have left this very slot accepting
  have unseen (upload : Accepted γ) (member : upload ∈ state.accepted)
      (create : upload.jobType = .create) : upload.serial ≠ job.serial := by
    intro same
    obtain ⟨other, accepting⟩ := single.leaving upload member create fileId entry
      present (serial.trans same.symm)
    have isIndex := single.lone other index fileId (Slot.live_of_accepting accepting) live
    subst isIndex
    simp [slot, Slot.accepting] at accepting
  refine ⟨single.saved, ?_, single.bounded, single.distinct, ?_, ?_, ?_, ?_, ?_, ?_, ?_⟩
  · intro off other
    rw [liveSame]
    exact single.off off other
  · intro left right
    rw [liveSame, liveSame]
    exact single.lone left right
  · intro left right
    rw [newSame, newSame]
    exact single.calls left right
  · intro other
    rw [slots]
    split
    · exact ⟨entry, present, serial⟩
    · refine (single.slots other).frame Nat.le.refl ?_ ?_ fun _ _ => rfl
      · exact fun otherId otherJob found _ => ⟨otherJob, found, rfl⟩
      · intro upload member isNew
        rcases List.mem_cons.mp member with rfl | isOld
        · exact absurd serial (((single.slots other).fresh isNew).2.1 fileId entry present)
        · exact isOld
  · intro upload member
    rcases List.mem_cons.mp member with rfl | member
    · exact serial ▸ single.bounded fileId entry present
    · exact single.past upload member
  · change (List.map Accepted.serial (List.filter _ (_ :: state.accepted))).Nodup
    by_cases create : job.jobType = .create
    · rw [List.filter_cons_of_pos (by simpa using create), List.map_cons,
        List.nodup_cons]
      refine ⟨?_, single.created⟩
      intro member
      obtain ⟨upload, isOld, same⟩ := List.mem_map.mp member
      obtain ⟨isOld, isCreate⟩ := List.mem_filter.mp isOld
      exact unseen upload isOld (by simpa using isCreate) same
    · rw [List.filter_cons_of_neg (by simpa using create)]
      exact single.created
  · intro upload member create otherId otherJob found same
    rcases List.mem_cons.mp member with rfl | member
    · have sameId : otherId = fileId :=
        single.distinct otherId fileId otherJob entry found present
          (same.trans serial.symm)
      refine ⟨index, ?_⟩
      rw [slots, if_pos rfl, sameId]
      rfl
    · obtain ⟨other, accepting⟩ :=
        single.leaving upload member create otherId otherJob found same
      refine ⟨other, ?_⟩
      rw [slots]
      split
      · rename_i isIndex
        subst isIndex
        simp [slot, Slot.accepting] at accepting
      · exact accepting
  · intro fileIds sweeping
    obtain ⟨nodup, apart⟩ := single.sweeping fileIds sweeping
    refine ⟨nodup, fun otherId member other => ?_⟩
    rw [liveSame]
    exact apart otherId member other

/-! ## Steps that change one entry -/

/-- The only slot of an id replaces, updates or drops its entry and saves the
queue. -/
theorem Single.changeEntry {state next : State γ} {index : Nat} {fileId : Str}
    {slot : Slot γ} (single : Single state)
    (live : (state.slots index).live = some fileId)
    (slots : ∀ other, next.slots other =
      if other = index then slot else state.slots other)
    (boot : next.boot = state.boot) (saved : next.savedQueue = next.queue)
    (same : ∀ other, other ≠ fileId →
      next.savedQueue.lookup other = state.savedQueue.lookup other)
    (serials : next.nextSerial = state.nextSerial)
    (accepted : next.accepted = state.accepted)
    (after : ∀ other, slot.live = some other → other = fileId)
    (noCall : slot.newSerial = none) (ok : SingleSlot next slot)
    (entry : ∀ job, next.savedQueue.lookup fileId = some job →
      (∃ old, state.savedQueue.lookup fileId = some old ∧ old.serial = job.serial) ∨
        (state.slots index).newSerial = some job.serial)
    (unseen : ∀ job, next.savedQueue.lookup fileId = some job →
      (state.slots index).accepting = none) : Single next := by
  obtain ⟨started, -⟩ := single.saved_of_live live
  have liveBefore (other : Nat) (otherId : Str)
      (isLive : (next.slots other).live = some otherId) :
      (state.slots other).live = some otherId := by
    rw [slots] at isLive
    split at isLive
    · rename_i isIndex
      rw [isIndex, after otherId isLive, live]
    · exact isLive
  have newBefore (other : Nat) (serial : Nat)
      (isNew : (next.slots other).newSerial = some serial) :
      other ≠ index ∧ (state.slots other).newSerial = some serial := by
    rw [slots] at isNew
    split at isNew
    · simp [noCall] at isNew
    · exact ⟨‹_›, isNew⟩
  -- an entry of the new queue carries an old serial of its id or the call's
  have origin (otherId : Str) (job : Job γ)
      (present : next.savedQueue.lookup otherId = some job) :
      (∃ old, state.savedQueue.lookup otherId = some old ∧ old.serial = job.serial) ∨
        (otherId = fileId ∧ (state.slots index).newSerial = some job.serial) := by
    by_cases sameId : otherId = fileId
    · subst sameId
      rcases entry job present with old | fresh
      · exact Or.inl old
      · exact Or.inr ⟨rfl, fresh⟩
    · rw [same otherId sameId] at present
      exact Or.inl ⟨job, present, rfl⟩
  refine ⟨fun _ => saved, ?_, ?_, ?_, ?_, ?_, ?_, ?_, ?_, ?_, ?_⟩
  · intro off
    exact absurd (boot ▸ off) started
  · intro otherId job present
    rw [serials]
    rcases origin otherId job present with ⟨old, wasPresent, serial⟩ | ⟨-, isNew⟩
    · exact serial ▸ single.bounded otherId old wasPresent
    · exact ((single.slots index).fresh isNew).1
  · intro left right leftJob rightJob leftPresent rightPresent serial
    rcases origin left leftJob leftPresent with
      ⟨leftOld, leftWas, leftSerial⟩ | ⟨leftId, leftNew⟩ <;>
      rcases origin right rightJob rightPresent with
        ⟨rightOld, rightWas, rightSerial⟩ | ⟨rightId, rightNew⟩
    · exact single.distinct left right leftOld rightOld leftWas rightWas
        (leftSerial.trans (serial.trans rightSerial.symm))
    · exact absurd (leftSerial.trans serial)
        (((single.slots index).fresh rightNew).2.1 left leftOld leftWas)
    · exact absurd (rightSerial.trans serial.symm)
        (((single.slots index).fresh leftNew).2.1 right rightOld rightWas)
    · exact leftId.trans rightId.symm
  · intro left right otherId leftLive rightLive
    exact single.lone left right otherId (liveBefore left otherId leftLive)
      (liveBefore right otherId rightLive)
  · intro left right serial leftNew rightNew
    exact single.calls left right serial (newBefore left serial leftNew).2
      (newBefore right serial rightNew).2
  · intro other
    rw [slots]
    split
    · exact ok
    · rename_i different
      refine (single.slots other).frame serials.ge ?_ ?_ ?_
      · intro otherId job present isNew
        rcases origin otherId job present with was | ⟨-, alsoNew⟩
        · exact was
        · exact absurd (single.calls other index _ isNew alsoNew) different
      · intro upload member _
        rw [accepted] at member
        exact member
      · intro otherId isLive
        apply same
        intro sameId
        subst sameId
        exact different (single.lone other index otherId isLive live)
  · rw [accepted, serials]
    exact single.past
  · unfold CreatedOnce State.created
    rw [accepted]
    exact single.created
  · intro upload member create otherId job present serial
    rw [accepted] at member
    rcases origin otherId job present with ⟨old, wasPresent, oldSerial⟩ | ⟨-, isNew⟩
    · obtain ⟨other, accepting⟩ := single.leaving upload member create otherId old
        wasPresent (oldSerial.trans serial)
      refine ⟨other, ?_⟩
      rw [slots]
      split
      · rename_i isIndex
        subst isIndex
        have sameId : otherId = fileId := by
          simpa [Slot.live_of_accepting accepting] using live
        subst sameId
        simp [unseen job present] at accepting
      · exact accepting
    · exact absurd serial.symm (((single.slots index).fresh isNew).2.2 upload member)
  · intro fileIds sweeping
    rw [boot] at sweeping
    obtain ⟨nodup, apart⟩ := single.sweeping fileIds sweeping
    exact ⟨nodup, fun otherId member other isLive =>
      apart otherId member other (liveBefore other otherId isLive)⟩

theorem Single.drop {state : State γ} {index : Nat} {fileId : Str}
    (single : Single state) (live : (state.slots index).live = some fileId) :
    Single ((state.removeEntry fileId).setSlot index .done) := by
  obtain ⟨started, saved⟩ := single.saved_of_live live
  have lookup (other : Str) :
      (state.queue.erase fileId).lookup other =
        if other = fileId then none else state.queue.lookup other :=
    Dict.lookup_erase_eq ..
  refine single.changeEntry live (State.setSlot_slots _ index _) rfl rfl ?_ rfl rfl
    nofun rfl trivial ?_ ?_
  · intro other different
    rw [saved]
    exact (lookup other).trans (if_neg different)
  · intro job present
    have absent := (lookup fileId).symm.trans present
    simp at absent
  · intro job present
    have absent := (lookup fileId).symm.trans present
    simp at absent

theorem Single.fail {maxRetries : Nat} {state next : State γ} {index : Nat}
    {fileId : Str} {job : Job γ} {content : γ} {isFatal armed : Bool} {slot : Slot γ}
    (single : Single state)
    (attempt : state.slots index = .attempt fileId job (.failure content isFatal))
    (handled : state.handleFailure maxRetries fileId isFatal = (next, armed))
    (after : slot = .armed fileId ∨ slot = .done) :
    Single (next.setSlot index slot) := by
  have live : (state.slots index).live = some fileId := by
    rw [attempt]
    rfl
  obtain ⟨started, saved⟩ := single.saved_of_live live
  have handledEq := State.handleFailure_eq handled
  have queue := State.handleFailure_lookup handled
  have persisted : next.savedQueue = next.queue := by
    rcases State.handleFailure_saved handled with rfl | persisted
    · exact saved
    · exact persisted
  have slots : next.slots = state.slots := by rw [handledEq]
  have moved (other : Nat) : (next.setSlot index slot).slots other =
      if other = index then slot else state.slots other := by
    rw [State.setSlot_slots, slots]
  refine single.changeEntry live moved (by rw [handledEq]; rfl) persisted ?_
    (by rw [handledEq]; rfl) (by rw [handledEq]; rfl) ?_ ?_ ?_ ?_ ?_
  · intro other different
    rw [State.setSlot_savedQueue, persisted, saved]
    exact (queue other).trans (if_neg different)
  · rintro other isLive
    rcases after with rfl | rfl <;> cases isLive
    rfl
  · rcases after with rfl | rfl <;> rfl
  · rcases after with rfl | rfl <;> trivial
  · intro entry present
    rw [State.setSlot_savedQueue, persisted, queue, if_pos rfl,
      Option.map_eq_some_iff] at present
    obtain ⟨old, wasPresent, rfl⟩ := present
    exact Or.inl ⟨old, by rw [saved, wasPresent], rfl⟩
  · intro _ _
    rw [attempt]
    rfl

/-! ## Steps that start a life line -/

theorem Single.begin {state next : State γ} {index : Nat} {call : EnqueueCall}
    {content : γ} {safePath : LocalPath} {retries : Nat} (single : Single state)
    (slot : state.slots index = .free)
    (slots : ∀ other, next.slots other =
      if other = index then
        .enqueue call state.nextSerial content (.move safePath retries)
      else state.slots other)
    (started : state.boot ≠ .off) (boot : next.boot ≠ .off)
    (noSweep : ∀ fileIds, next.boot ≠ .sweeping fileIds)
    (saved : next.savedQueue = state.savedQueue) (queue : next.queue = state.queue)
    (serials : next.nextSerial = state.nextSerial + 1)
    (accepted : next.accepted = state.accepted)
    (alone : ∀ other, (state.slots other).live ≠ some call.fileId) : Single next := by
  have later : state.nextSerial ≤ next.nextSerial := by omega
  refine ⟨?_, fun off => absurd off boot, ?_, ?_, ?_, ?_, ?_, ?_, ?_, ?_, ?_⟩
  · intro _
    rw [saved, queue]
    exact single.saved started
  · intro fileId job present
    rw [saved] at present
    exact Nat.lt_of_lt_of_le (single.bounded fileId job present) later
  · rw [saved]
    exact single.distinct
  · intro left right fileId leftLive rightLive
    rw [slots] at leftLive rightLive
    split at leftLive <;> split at rightLive
    · exact ‹left = index›.trans ‹right = index›.symm
    · cases leftLive
      exact absurd rightLive (alone right)
    · cases rightLive
      exact absurd leftLive (alone left)
    · exact single.lone left right fileId leftLive rightLive
  · have old (other serial : Nat) (isNew : (state.slots other).newSerial = some serial) :
        serial < state.nextSerial := ((single.slots other).fresh isNew).1
    intro left right serial leftNew rightNew
    rw [slots] at leftNew rightNew
    split at leftNew <;> split at rightNew
    · exact ‹left = index›.trans ‹right = index›.symm
    · cases leftNew
      exact absurd (old right _ rightNew) (Nat.lt_irrefl _)
    · cases rightNew
      exact absurd (old left _ leftNew) (Nat.lt_irrefl _)
    · exact single.calls left right serial leftNew rightNew
  · intro other
    rw [slots]
    split
    · refine ⟨by omega, ?_, ?_⟩
      · intro fileId job present
        rw [saved] at present
        exact Nat.ne_of_lt (single.bounded fileId job present)
      · intro upload member
        rw [accepted] at member
        exact Nat.ne_of_lt (single.past upload member)
    · exact (single.slots other).congr saved accepted later
  · intro upload member
    rw [accepted] at member
    exact Nat.lt_of_lt_of_le (single.past upload member) later
  · unfold CreatedOnce State.created
    rw [accepted]
    exact single.created
  · intro upload member create fileId job present same
    rw [accepted] at member
    rw [saved] at present
    obtain ⟨other, accepting⟩ :=
      single.leaving upload member create fileId job present same
    refine ⟨other, ?_⟩
    rw [slots]
    split
    · rename_i isIndex
      subst isIndex
      simp [slot, Slot.accepting] at accepting
    · exact accepting
  · intro fileIds sweeping
    exact absurd sweeping (noSweep fileIds)

theorem Single.sweep {state : State γ} {index : Nat} {fileId : Str}
    {fileIds : List Str} (single : Single state)
    (boot : state.boot = .sweeping (fileId :: fileIds))
    (slot : state.slots index = .free) :
    Single { state.setSlot index (.queued fileId) with boot := .sweeping fileIds } := by
  obtain ⟨nodup, apart⟩ := single.sweeping _ boot
  rw [List.nodup_cons] at nodup
  have slots := State.setSlot_slots state index (.queued fileId)
  have liveAfter (other : Nat) (otherId : Str)
      (isLive : ((state.setSlot index (.queued fileId)).slots other).live = some otherId) :
      other = index ∧ otherId = fileId ∨ (state.slots other).live = some otherId := by
    rw [slots] at isLive
    split at isLive
    · cases isLive
      exact Or.inl ⟨‹_›, rfl⟩
    · exact Or.inr isLive
  refine ⟨fun _ => single.saved (by simp [boot]), nofun, single.bounded, single.distinct,
    ?_, ?_, ?_, single.past, single.created, ?_, ?_⟩
  · intro left right otherId leftLive rightLive
    rcases liveAfter left otherId leftLive with ⟨leftIndex, leftId⟩ | leftOld <;>
      rcases liveAfter right otherId rightLive with ⟨rightIndex, rightId⟩ | rightOld
    · exact leftIndex.trans rightIndex.symm
    · exact absurd (leftId ▸ rightOld) (apart fileId List.mem_cons_self right)
    · exact absurd (rightId ▸ leftOld) (apart fileId List.mem_cons_self left)
    · exact single.lone left right otherId leftOld rightOld
  · intro left right serial leftNew rightNew
    change ((state.setSlot index (.queued fileId)).slots left).newSerial = _ at leftNew
    change ((state.setSlot index (.queued fileId)).slots right).newSerial = _ at rightNew
    rw [slots] at leftNew rightNew
    split at leftNew <;> split at rightNew
    · exact ‹left = index›.trans ‹right = index›.symm
    · simp [Slot.newSerial] at leftNew
    · simp [Slot.newSerial] at rightNew
    · exact single.calls left right serial leftNew rightNew
  · intro other
    change SingleSlot _ ((state.setSlot index (.queued fileId)).slots other)
    rw [slots]
    split
    · trivial
    · exact (single.slots other).congr rfl rfl Nat.le.refl
  · intro upload member create otherId job present same
    obtain ⟨other, accepting⟩ :=
      single.leaving upload member create otherId job present same
    refine ⟨other, ?_⟩
    change ((state.setSlot index (.queued fileId)).slots other).accepting = _
    rw [slots]
    split
    · rename_i isIndex
      subst isIndex
      simp [slot, Slot.accepting] at accepting
    · exact accepting
  · intro rest sweeping
    cases sweeping
    refine ⟨nodup.2, fun otherId member other isLive => ?_⟩
    rcases liveAfter other otherId isLive with ⟨-, sameId⟩ | old
    · exact nodup.1 (sameId ▸ member)
    · exact apart otherId (List.mem_cons_of_mem fileId member) other old

/-! ## Start and crash -/

theorem Single.reboot {state next : State γ} (single : Single state)
    (slots : next.slots = state.slots) (saved : next.savedQueue = state.savedQueue)
    (serials : next.nextSerial = state.nextSerial)
    (accepted : next.accepted = state.accepted) (boot : next.boot ≠ .off)
    (loaded : next.savedQueue = next.queue)
    (sweeping : ∀ fileIds, next.boot = .sweeping fileIds → fileIds.Nodup ∧
      ∀ fileId ∈ fileIds, ∀ index, (state.slots index).live ≠ some fileId) :
    Single next := by
  refine ⟨fun _ => loaded, fun off => absurd off boot, ?_, ?_, ?_, ?_, ?_, ?_, ?_, ?_, ?_⟩
  · rw [saved, serials]
    exact single.bounded
  · rw [saved]
    exact single.distinct
  · rw [slots]
    exact single.lone
  · rw [slots]
    exact single.calls
  · intro index
    rw [slots]
    exact (single.slots index).congr saved accepted serials.ge
  · rw [accepted, serials]
    exact single.past
  · unfold CreatedOnce State.created
    rw [accepted]
    exact single.created
  · rw [accepted, saved, slots]
    exact single.leaving
  · rw [slots]
    exact sweeping

theorem Single.crash {state : State γ} (single : Single state)
    (clean : ∀ index, (state.slots index).accepting = none) : Single state.crash := by
  refine ⟨fun started => absurd rfl started, fun _ _ => rfl, single.bounded,
    single.distinct, nofun, nofun, fun _ => trivial, single.past, single.created, ?_,
    nofun⟩
  intro upload member create fileId job present same
  obtain ⟨index, accepting⟩ :=
    single.leaving upload member create fileId job present same
  simp [clean index] at accepting

theorem nodup_pendingIds (state : State γ) : state.pendingIds.Nodup := by
  have keys : (state.queue.entries.map Sigma.fst).Nodup := state.queue.nodupKeys
  exact keys.sublist (List.filter_sublist.map Sigma.fst)

/-! ## Runs -/

theorem Cold.single {state : State γ} (cold : Cold state) : Single state := by
  obtain ⟨boot, slots, accepted, bounded, distinct⟩ := cold
  refine ⟨fun started => absurd boot started, ?_, bounded, distinct, ?_, ?_, ?_, ?_, ?_,
    ?_, ?_⟩
  · intro _ index
    rw [slots]
    rfl
  · intro left _ _ live
    simp [slots left, Slot.live] at live
  · intro left _ _ new
    simp [slots left, Slot.newSerial] at new
  · intro index
    rw [slots]
    trivial
  · simp [accepted]
  · simp [CreatedOnce, State.created, accepted]
  · simp [accepted]
  · simp [boot]

theorem Single.step {maxRetries : Nat} {state next : State γ} {label : Label}
    (single : Single state) (disciplined : OneTask state label)
    (stepped : Stepped maxRetries state label next) : Single next := by
  obtain ⟨clean, disciplined⟩ := disciplined
  -- a slot that stays with its id, holds no new serial and was not accepted
  have moveOf {index : Nat} {before slot : Slot γ}
      (isBefore : state.slots index = before)
      (live : ∀ fileId, slot.live = some fileId → before.live = some fileId)
      (newSerial : ∀ serial, slot.newSerial = some serial →
        before.newSerial = some serial)
      (accepting : ∀ fileId, before.accepting = some fileId →
        slot.accepting = some fileId)
      (ok : SingleSlot state slot) : Single (state.setSlot index slot) :=
    single.moveSlot (State.setSlot_slots state index slot) rfl rfl rfl rfl rfl
      (isBefore ▸ live) (isBefore ▸ newSerial) (isBefore ▸ accepting) ok
  have knows {index : Nat} {slot : Slot γ} (isSlot : state.slots index = slot) :
      SingleSlot state slot := isSlot ▸ single.slots index
  have keeps {index : Nat} {fileId : Str} {job : Job γ} {point later : AttemptPoint γ}
      (isSlot : state.slots index = .attempt fileId job point) :
      SingleSlot state (.attempt fileId job later) := by
    have slotOk := knows isSlot
    exact slotOk
  cases stepped with
  | @begin index call second content ready slot temp unlocked =>
      rw [State.enqueueBegin_eq]
      exact single.begin slot (fun other => Function.update_apply ..) (by simp [ready])
        (by simp [ready]) (by simp [ready]) rfl rfl rfl rfl disciplined
  | moveRaises _ _ =>
      rw [State.removeOldFile_eq]
      exact ⟨single.saved, single.off, single.bounded, single.distinct, single.lone,
        single.calls, single.slots, single.past, single.created, single.leaving,
        single.sweeping⟩
  | @move index call serial content safePath retries slot =>
      have slotOk := knows slot
      rw [State.moveFile_eq]
      exact single.moveSlot (State.setSlot_slots _ index _) rfl rfl rfl rfl rfl
        (by simp [slot, Slot.live]) (by simp [slot, Slot.newSerial])
        (by simp [slot, Slot.accepting]) slotOk
  | @replace index call serial content safePath retries slot =>
      have live : (state.slots index).live = some call.fileId := by
        rw [slot]
        rfl
      obtain ⟨started, saved⟩ := single.saved_of_live live
      refine single.changeEntry live (State.setSlot_slots _ index _) rfl rfl ?_ rfl rfl
        (fun other isLive => (Option.some.inj isLive).symm) rfl trivial ?_ ?_
      · intro other different
        rw [saved]
        exact (Dict.lookup_insert_eq ..).trans (if_neg different)
      · intro job present
        right
        rw [slot]
        have isJob := (Dict.lookup_insert_eq ..).symm.trans present
        rw [if_pos rfl, Option.some.injEq] at isJob
        subst isJob
        rfl
      · intro _ _
        rw [slot]
        rfl
  | submit slot =>
      exact moveOf slot (by simp [Slot.live]) nofun nofun trivial
  | pickNothing slot unlocked idle => exact moveOf slot nofun nofun nofun trivial
  | @pick index fileId job slot unlocked entry pending =>
      have live : (state.slots index).live = some fileId := by
        rw [slot]
        rfl
      refine moveOf slot (by simp [Slot.live]) nofun nofun ⟨job, ?_, rfl⟩
      rw [(single.saved_of_live live).2, entry]
  | checkExists slot file =>
      exact moveOf slot (by simp [Slot.live]) nofun nofun (keeps slot)
  | checkMissing slot file =>
      exact moveOf slot (by simp [Slot.live]) nofun nofun (keeps slot)
  | read slot file =>
      exact moveOf slot (by simp [Slot.live]) nofun nofun (keeps slot)
  | readVanished slot file =>
      exact moveOf slot (by simp [Slot.live]) nofun nofun (keeps slot)
  | replyAccepted slot => exact single.accept slot
  | replyRejected slot =>
      exact moveOf slot (by simp [Slot.live]) nofun nofun (keeps slot)
  | @replyQuota index fileId job content slot =>
      exact single.moveSlot (State.setSlot_slots _ index _) rfl rfl rfl rfl rfl
        (by simp [slot, Slot.live]) nofun (by simp [slot, Slot.accepting]) (keeps slot)
  | @forget index fileId job content slot unlocked =>
      exact single.moveSlot (State.setSlot_slots _ index _) rfl rfl rfl rfl rfl
        (by simp [slot, Slot.live]) nofun (by simp [slot, Slot.accepting]) (keeps slot)
  | @popRemoved index fileId job content slot =>
      exact single.drop (by rw [slot]; rfl)
  | @popMissing index fileId job slot unlocked =>
      exact single.drop (by rw [slot]; rfl)
  | @failRetry index fileId job content isFatal after slot unlocked handled =>
      exact single.fail slot handled (Or.inl rfl)
  | @failOver index fileId job content isFatal after slot unlocked handled =>
      exact single.fail slot handled (Or.inr rfl)
  | fire slot => exact moveOf slot (by simp [Slot.live]) nofun nofun trivial
  | crash => exact single.crash (clean rfl)
  | start off listed =>
      exact single.reboot rfl rfl rfl rfl nofun rfl nofun
  | @recover index uuid second name names call content boot parsed slot temp unlocked =>
      rw [State.enqueueBegin_eq]
      exact single.begin slot (fun other => Function.update_apply ..) (by simp [boot])
        nofun nofun rfl rfl rfl rfl (disciplined name names call boot parsed)
  | recoverSkip boot parsed =>
      exact single.reboot rfl rfl rfl rfl nofun (single.saved (by simp [boot])) nofun
  | recovered boot returned =>
      exact single.reboot rfl rfl rfl rfl nofun (single.saved (by simp [boot])) nofun
  | resume boot unlocked =>
      refine single.reboot rfl rfl rfl rfl nofun (single.saved (by simp [boot])) ?_
      intro fileIds sweeping
      cases sweeping
      exact ⟨nodup_pendingIds state, disciplined⟩
  | sweepDone boot =>
      exact single.reboot rfl rfl rfl rfl nofun (single.saved (by simp [boot])) nofun
  | sweep boot slot => exact single.sweep boot slot

theorem Single.sentOnce {state : State γ} (single : Single state) : SentOnce state := by
  intro left right leftId rightId leftJob rightJob leftContent rightContent
    leftSlot rightSlot serial
  have leftOk := single.slots left
  have rightOk := single.slots right
  rw [leftSlot] at leftOk
  rw [rightSlot] at rightOk
  obtain ⟨leftEntry, leftPresent, leftSerial⟩ := leftOk
  obtain ⟨rightEntry, rightPresent, rightSerial⟩ := rightOk
  have sameId : leftId = rightId :=
    single.distinct leftId rightId leftEntry rightEntry leftPresent rightPresent
      (leftSerial.trans (serial.trans rightSerial.symm))
  refine single.lone left right leftId ?_ ?_
  · rw [leftSlot]
    rfl
  · rw [rightSlot, sameId]
    rfl

theorem single_of_reaches {maxRetries : Nat} {start finish : State γ}
    (cold : Cold start)
    (reached : Reaches (step maxRetries) OneTask start finish) : Single finish :=
  reached.invariant
    (fun single disciplined taken => single.step disciplined (stepped_of_step taken))
    cold.single

/-- An entry is sent by one attempt at a time and a create entry is accepted
at most once, in every run in which no source adds a task for an id that has
one already. -/
theorem sentOnce_of_oneTask {maxRetries : Nat} {start finish : State γ}
    (cold : Cold start)
    (reached : Reaches (step maxRetries) OneTask start finish) :
    SentOnce finish ∧ CreatedOnce finish := by
  have single := single_of_reaches cold reached
  exact ⟨single.sentOnce, single.created⟩

theorem Cold.stopped (files : Dict LocalPath γ) : Cold (State.stopped files) :=
  ⟨rfl, fun _ => rfl, rfl, by simp [State.stopped], by simp [State.stopped]⟩

/-- The journal file of a new file `a` in the directory `p`. -/
def orphan : Str := createJournalName ['p'] ['a'] ['x']

def orphanFiles : Dict LocalPath Nat :=
  (∅ : Dict LocalPath Nat).insert (.journal orphan) 1

/-- The recovered file is uploaded before the start-up sweep looks at the
queue. -/
def recoveredFirst : List Label :=
  [.start [orphan]] ++
    [.recover 0 ['u'] 7, .move 0, .replace 0, .submit 0, .recovered, .pick 0,
      .check 0, .read 0, .reply 0 (.accepted ['n']), .forget 0, .pop 0]

theorem sentOnce_of_oneTask_recoveredFirst :
    ∃ finish, run (step 5) (State.stopped orphanFiles)
        (recoveredFirst ++ [.resume, .sweep 1]) = some finish ∧
      SentOnce finish ∧ CreatedOnce finish := by
  obtain ⟨finish, executed⟩ := Option.isSome_iff_exists.mp
    (show (run (step 5) (State.stopped orphanFiles)
      (recoveredFirst ++ [.resume, .sweep 1])).isSome from rfl)
  have along : AllowedAlong (step 5) OneTask (State.stopped orphanFiles)
      (recoveredFirst ++ [.resume, .sweep 1]) := by
    refine AllowedAlong.append (AllowedAlong.append ?_ ?_) ?_
    · exact AllowedAlong.of_forall (by simp [OneTask, CleanCrash])
    · intro booted started
      have slots : (run (step 5) (State.stopped orphanFiles) [.start [orphan]]).map
          (·.slots) = some fun _ => .free := rfl
      rw [started] at slots
      refine ⟨⟨nofun, ?_⟩, fun next _ =>
        AllowedAlong.of_forall (by simp [OneTask, CleanCrash])⟩
      intro _ _ _ _ _ index
      simp [Option.some.inj slots, Slot.live]
    · intro uploaded worked
      have pending : (run (step 5) (State.stopped orphanFiles) recoveredFirst).map
          (·.pendingIds) = some [] := rfl
      rw [worked] at pending
      refine ⟨⟨nofun, ?_⟩, fun next _ =>
        AllowedAlong.of_forall (by simp [OneTask, CleanCrash])⟩
      intro fileId member
      simp [Option.some.inj pending] at member
  exact ⟨finish, executed, sentOnce_of_oneTask (Cold.stopped orphanFiles)
    (Reaches.of_run along executed)⟩

/-- The start-up sweep adds a second task for the recovered file, and both
tasks send it. -/
def sweptTwice : List Label :=
  [.start [orphan], .recover 0 ['u'] 7, .move 0, .replace 0, .submit 0, .recovered,
    .resume, .sweep 1, .sweep 2, .pick 0, .pick 1, .check 0, .check 1, .read 0, .read 1]

/-- The entry the recovery made of the journal file. -/
def recoveredJob : Job Nat :=
  State.newJob ⟨"rec_u".toList, orphan, true, some ['p'], some ['a']⟩ 0 1
    (.upload "rec_u".toList 7) 0

theorem sentOnce_fails_after_recovery :
    ¬ ∀ start finish : State Nat, Cold start →
      Reaches (step 5) CleanCrash start finish →
        SentOnce finish ∧ CreatedOnce finish := by
  intro holds
  obtain ⟨finish, executed⟩ := Option.isSome_iff_exists.mp
    (show (run (step 5) (State.stopped orphanFiles) sweptTwice).isSome from rfl)
  have slots : (run (step 5) (State.stopped orphanFiles) sweptTwice).map
      (fun state => (state.slots 0, state.slots 1)) =
      some (.attempt "rec_u".toList recoveredJob (.sent 1),
        .attempt "rec_u".toList recoveredJob (.sent 1)) := rfl
  rw [executed] at slots
  obtain ⟨left, right⟩ := Prod.mk.inj (Option.some.inj slots)
  have along : AllowedAlong (step 5) CleanCrash (State.stopped orphanFiles) sweptTwice :=
    AllowedAlong.of_forall (by simp [sweptTwice, CleanCrash])
  have sentOnce := (holds _ finish (Cold.stopped orphanFiles)
    (Reaches.of_run along executed)).1
  have absurdity := sentOnce 0 1 _ _ _ _ _ _ left right rfl
  simp at absurdity

end FuseDrive.Upload
