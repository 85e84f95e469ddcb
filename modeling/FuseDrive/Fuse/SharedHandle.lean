import FuseDrive.Fuse.Handles
import FuseDrive.Transition
import Mathlib.Logic.Function.Basic

/-!
# Concurrent calls on one writing handle

The calls of a handle share one descriptor with one position.  `read` and
`write` take the lock of the handle around the base download, the seek and the
transfer, `truncate` takes `fd_lock` instead, and on a local-only handle nothing
is locked.  So each step between two locks or system calls is a step of its own
here.

The calls take effect one after the other, at their transfers, as long as no two
downloads of the base overlap and, on a local-only handle, no seek comes between
the seek and the transfer of another call.
-/

namespace FuseDrive.Fuse

open Transition (Reaches)

/-! ## The steps of a call -/

/-- Where a call is: before `fd_lock`, at the lookup of the handle under it,
before the lock of the handle, then the steps of `_ensure_downloaded`, the seek,
the transfer, and before the release of the lock.  `none` is an exception. -/
inductive SharedPoint where
  | enter
  | looking
  | lock
  | check
  | fetch
  | store
  | mark
  | seek
  | transfer
  | leave (data : Option (List Bytes))
  | finished (data : Option (List Bytes))

/-- A handle and the calls on it. -/
structure SharedHandle where
  handle : WriteHandle
  fdLock : Option Nat
  handleLock : Option Nat
  calls : Nat → Option (Call × SharedPoint)

/-- `fails` says whether the storage answers a fetch with an exception, or the
lock manager refuses a lock. -/
inductive SharedLabel where
  | begin (id : Nat) (call : Call)
  | advance (id : Nat) (fails : Bool)

def Call.isTruncate : Call → Bool
  | .truncate _ => true
  | _ => false

/-- What follows `_ensure_downloaded`. -/
def Call.afterEnsure (call : Call) : SharedPoint :=
  if call.isTruncate then .transfer else .seek

namespace SharedHandle

def moveTo (state : SharedHandle) (id : Nat) (call : Call) (point : SharedPoint) :
    SharedHandle :=
  { state with calls := Function.update state.calls id (some (call, point)) }

/-- The bytes a transfer returns and the handle after it. -/
def transferred (handle : WriteHandle) : Call → List Bytes × WriteHandle
  | .read length _ =>
      ([(handle.temp.read length).1], { handle with temp := (handle.temp.read length).2 })
  | .write data _ => ([], { handle with temp := handle.temp.write data, isModified := true })
  | .truncate length =>
      ([], { handle with temp := handle.temp.ftruncate length, isModified := true })

/-- `os.lseek` of the call. -/
def sought (handle : WriteHandle) : Call → WriteHandle
  | .read _ offset | .write _ offset => { handle with temp := handle.temp.lseek offset }
  | .truncate _ => handle

/-- Whether `_ensure_downloaded` fetches anything. -/
def fetches (session : Session) : Bool :=
  match session.cached with
  | some node => 0 < node.size
  | none => false

/-- One step of a call; `session` has the cached record and the content of the
file. -/
def advance (isLocalOnly : Bool) (session : Session) (state : SharedHandle) (id : Nat)
    (call : Call) (fails : Bool) : SharedPoint → Option SharedHandle
  | .enter =>
      if state.fdLock.isSome then none
      else
        some ({ state with fdLock := some id }.moveTo id call
          (if call.isTruncate then .check else .looking))
  | .looking =>
      some ({ state with fdLock := none }.moveTo id call
        (if isLocalOnly then .seek else .lock))
  | .lock =>
      if fails then some (state.moveTo id call (.finished none))
      else if state.handleLock.isSome then none
      else some ({ state with handleLock := some id }.moveTo id call .check)
  | .check =>
      some (state.moveTo id call
        (if state.handle.baseDownloaded then call.afterEnsure else .fetch))
  | .fetch =>
      if fails then some (state.moveTo id call (.leave none))
      else some (state.moveTo id call (if fetches session then .store else .mark))
  | .store =>
      some ({ state with
        handle := { state.handle with temp := state.handle.temp.write session.current }
        }.moveTo id call .mark)
  | .mark =>
      some ({ state with handle := { state.handle with baseDownloaded := true } }.moveTo id call
        call.afterEnsure)
  | .seek => some ({ state with handle := sought state.handle call }.moveTo id call .transfer)
  | .transfer =>
      let (data, handle) := transferred state.handle call
      some ({ state with handle := handle }.moveTo id call
        (if isLocalOnly then .finished (some data) else .leave (some data)))
  | .leave data =>
      some (if call.isTruncate then { state with fdLock := none }.moveTo id call (.finished data)
        else { state with handleLock := none }.moveTo id call (.finished data))
  | .finished _ => none

/-- `truncate` of a local-only file goes by its path and takes no lock. -/
def step (isLocalOnly : Bool) (session : Session) (state : SharedHandle) :
    SharedLabel → Option SharedHandle
  | .begin id call =>
      if (state.calls id).isSome then none
      else
        some (state.moveTo id call
          (if isLocalOnly && call.isTruncate then .transfer else .enter))
  | .advance id fails =>
      match state.calls id with
      | some (call, point) => advance isLocalOnly session state id call fails point
      | none => none

/-- A handle that no call is at work on. -/
def idle (handle : WriteHandle) : SharedHandle := ⟨handle, none, none, fun _ => none⟩

end SharedHandle

/-! ## One call after the other -/

/-- What each call returns. -/
def Session.answers (session : Session) : List (Nat × Call) → List (Nat × Call × List Bytes)
  | [] => []
  | (id, call) :: order =>
      (id, call, (session.call call).1) :: (session.call call).2.answers order

def Session.after (session : Session) (order : List (Nat × Call)) : Session :=
  order.foldl (fun session entry => (session.call entry.2).2) session

/-- What a call that went well has returned, or is about to. -/
@[simp] def SharedPoint.returns : SharedPoint → Option (List Bytes)
  | .leave data | .finished data => data
  | _ => none

def SharedPoint.isFinished : SharedPoint → Prop
  | .finished _ => True
  | _ => False

/-- The calls, without those that raised, are as if made in this order. -/
structure InOrder (session : Session) (state : SharedHandle) (order : List (Nat × Call)) :
    Prop where
  nodup : (order.map Prod.fst).Nodup
  /-- The order has calls that went well. -/
  only : ∀ entry ∈ order, ∃ point data, state.calls entry.1 = some (entry.2, point) ∧
    point.returns = some data
  /-- Each of them returned what it returns in this order. -/
  answered : ∀ {id call point data}, state.calls id = some (call, point) →
    point.returns = some data → (id, call, data) ∈ session.answers order
  /-- When all calls have ended the file is what this order makes of it. -/
  file : (∀ id call point, state.calls id = some (call, point) → point.isFinished) →
    state.handle.temp.bytes = (session.after order).handle.temp.bytes

/-! ## Calls that keep apart -/

namespace SharedPoint

/-- Between the check of `base_downloaded` and its assignment. -/
@[simp] def downloads : SharedPoint → Bool
  | .fetch | .store | .mark => true
  | _ => false

/-- After `_ensure_downloaded`. -/
@[simp] def ready : SharedPoint → Bool
  | .seek | .transfer => true
  | .leave data | .finished data => data.isSome
  | _ => false

/-- Under the lock of the handle. -/
@[simp] def holds (isLocalOnly : Bool) (call : Call) : SharedPoint → Bool
  | .check | .fetch | .store | .mark | .seek | .transfer | .leave _ =>
      !isLocalOnly && !call.isTruncate
  | _ => false

end SharedPoint

/-- No call begins a download while one is under way, and on a local-only handle
none seeks between the seek and the transfer of another. -/
def KeepApart (isLocalOnly : Bool) (state : SharedHandle) : SharedLabel → Prop
  | .begin _ _ => True
  | .advance id _ => ∀ call point, state.calls id = some (call, point) →
      (point = .check → state.handle.baseDownloaded = false →
        ∀ other otherCall otherPoint, state.calls other = some (otherCall, otherPoint) →
          otherPoint.downloads = false) ∧
      (isLocalOnly = true → point = .seek →
        ∀ other otherCall, state.calls other = some (otherCall, .transfer) →
          otherCall.isTruncate = true)

/-- Where a call reads or writes. -/
def Call.offset : Call → Option Nat
  | .read _ offset | .write _ offset => some offset
  | .truncate _ => none

/-! ## The invariant -/

/-- What holds of a call. -/
structure CallFits (isLocalOnly : Bool) (session : Session) (state : SharedHandle) (id : Nat)
    (call : Call) (point : SharedPoint) : Prop where
  locked : point.holds isLocalOnly call = true → state.handleLock = some id
  downloading : point.downloads = true → state.handle.baseDownloaded = false ∧
    ∀ other otherCall otherPoint, state.calls other = some (otherCall, otherPoint) →
      otherPoint.downloads = true → other = id
  fetching : point = .fetch ∨ point = .store → state.handle.temp = session.handle.temp
  fetched : point = .store → SharedHandle.fetches session = true
  marking : point = .mark → state.handle.temp = session.ensured.temp
  ready : point.ready = true → state.handle.baseDownloaded = true
  positioned : point = .transfer → ∀ offset, call.offset = some offset →
    state.handle.temp.position = offset
  alone : isLocalOnly = true → point = .transfer → call.isTruncate = false →
    ∀ other otherCall, state.calls other = some (otherCall, .transfer) →
      otherCall.isTruncate = false → other = id

/-- The calls at work fit, and the file has what the calls of the order make of
it. -/
structure Tidy (isLocalOnly : Bool) (session : Session) (state : SharedHandle)
    (order : List (Nat × Call)) : Prop where
  fits : ∀ {id call point}, state.calls id = some (call, point) →
    CallFits isLocalOnly session state id call point
  kept : session.handle.baseDownloaded = true → state.handle.baseDownloaded = true
  untouched : state.handle.baseDownloaded = false → order = [] ∧
    ((∀ id call point, state.calls id = some (call, point) → point.downloads = false) →
      state.handle.temp = session.handle.temp)
  content : state.handle.baseDownloaded = true →
    state.handle.temp.bytes = (session.after order).ensured.temp.bytes
  reason : state.handle.baseDownloaded = true → session.handle.baseDownloaded = true ∨
    ∃ id call point, state.calls id = some (call, point) ∧ point.ready = true
  nodup : (order.map Prod.fst).Nodup
  only : ∀ entry ∈ order, ∃ point data, state.calls entry.1 = some (entry.2, point) ∧
    point.returns = some data
  answered : ∀ {id call point data}, state.calls id = some (call, point) →
    point.returns = some data → (id, call, data) ∈ session.answers order

section Steps

variable {isLocalOnly : Bool} {session : Session} {state later : SharedHandle}
  {order : List (Nat × Call)} {id : Nat} {call : Call} {old new : SharedPoint}

theorem CallFits.of_notDownloading (notDownloading : new.downloads = false)
    (locked : new.holds isLocalOnly call = true → state.handleLock = some id)
    (ready : new.ready = true → state.handle.baseDownloaded = true)
    (positioned : new = .transfer → ∀ offset, call.offset = some offset →
      state.handle.temp.position = offset)
    (alone : isLocalOnly = true → new = .transfer → call.isTruncate = false →
      ∀ other otherCall, state.calls other = some (otherCall, .transfer) →
        otherCall.isTruncate = false → other = id) :
    CallFits isLocalOnly session state id call new where
  locked := locked
  downloading downloads := absurd (notDownloading.symm.trans downloads) Bool.false_ne_true
  fetching isFetching := by
    rcases isFetching with rfl | rfl
    · cases notDownloading
    · cases notDownloading
  fetched isStore := by
    subst isStore
    cases notDownloading
  marking isMark := by
    subst isMark
    cases notDownloading
  ready := ready
  positioned := positioned
  alone := alone

theorem calls_update {other : Nat} {otherCall : Call} {point : SharedPoint}
    (moved : later.calls = Function.update state.calls id (some (call, new)))
    (is : later.calls other = some (otherCall, point)) :
    other = id ∧ otherCall = call ∧ point = new ∨
      other ≠ id ∧ state.calls other = some (otherCall, point) := by
  rw [moved] at is
  by_cases same : other = id
  · subst same
    rw [Function.update_self] at is
    cases is
    exact .inl ⟨rfl, rfl, rfl⟩
  · rw [Function.update_of_ne same] at is
    exact .inr ⟨same, is⟩

theorem only_update (moved : later.calls = Function.update state.calls id (some (call, new)))
    (sameCall : ∀ otherCall point, state.calls id = some (otherCall, point) →
      otherCall = call ∧ new.returns = point.returns)
    {entry : Nat × Call}
    (only : ∃ point data, state.calls entry.1 = some (entry.2, point) ∧
      point.returns = some data) :
    ∃ point data, later.calls entry.1 = some (entry.2, point) ∧ point.returns = some data := by
  obtain ⟨point, data, is, returned⟩ := only
  rw [moved]
  by_cases same : entry.1 = id
  · rw [same] at is
    obtain ⟨isCall, stillReturns⟩ := sameCall _ _ is
    refine ⟨new, data, ?_, stillReturns.trans returned⟩
    rw [same, Function.update_self, isCall]
  · exact ⟨point, data, by rw [Function.update_of_ne same, is], returned⟩

theorem Tidy.quiet (tidy : Tidy isLocalOnly session state order)
    (handle : later.handle = state.handle)
    (moved : later.calls = Function.update state.calls id (some (call, new)))
    (sameCall : ∀ otherCall point, state.calls id = some (otherCall, point) →
      otherCall = call ∧ new.returns = point.returns)
    (locks : ∀ other otherCall point, other ≠ id → state.calls other = some (otherCall, point) →
      point.holds isLocalOnly otherCall = true → later.handleLock = some other)
    (fits : CallFits isLocalOnly session later id call new)
    (downloads : new.downloads = true → ∀ other otherCall point, other ≠ id →
      state.calls other = some (otherCall, point) → point.downloads = false)
    (transfers : new = .transfer → call.isTruncate = true)
    (ended : ∀ otherCall point, state.calls id = some (otherCall, point) →
      point.downloads = true → new.downloads = false →
        state.handle.temp = session.handle.temp)
    (ready : ∀ otherCall point, state.calls id = some (otherCall, point) →
      point.ready = true → new.ready = true)
    (begins : state.calls id = none → new.returns = none) :
    Tidy isLocalOnly session later order where
  fits := by
    intro other otherCall point is
    rcases calls_update moved is with ⟨rfl, rfl, rfl⟩ | ⟨notSame, was⟩
    · exact fits
    · have fitted := tidy.fits was
      constructor
      · exact locks other otherCall point notSame was
      · intro isDownloading
        rw [handle]
        refine ⟨(fitted.downloading isDownloading).1, fun third thirdCall thirdPoint is => ?_⟩
        intro alsoDownloading
        rcases calls_update moved is with ⟨rfl, rfl, rfl⟩ | ⟨-, wasThird⟩
        · have notDownloading := downloads alsoDownloading other otherCall point notSame was
          rw [isDownloading] at notDownloading
          cases notDownloading
        · exact (fitted.downloading isDownloading).2 third thirdCall thirdPoint wasThird
            alsoDownloading
      · rw [handle]
        exact fitted.fetching
      · exact fitted.fetched
      · rw [handle]
        exact fitted.marking
      · rw [handle]
        exact fitted.ready
      · rw [handle]
        exact fitted.positioned
      · intro local_ atTransfer notTruncate third thirdCall is notTruncateEither
        rcases calls_update moved is with ⟨rfl, rfl, same⟩ | ⟨-, wasThird⟩
        · rw [transfers same.symm] at notTruncateEither
          cases notTruncateEither
        · exact fitted.alone local_ atTransfer notTruncate third thirdCall wasThird
            notTruncateEither
  kept downloaded := by
    rw [handle]
    exact tidy.kept downloaded
  untouched notDownloaded := by
    rw [handle] at notDownloaded ⊢
    obtain ⟨noOrder, untouched⟩ := tidy.untouched notDownloaded
    refine ⟨noOrder, fun nobody => ?_⟩
    have notNew : new.downloads = false :=
      nobody id call new (by rw [moved, Function.update_self])
    by_cases wasDownloading : ∃ otherCall point, state.calls id = some (otherCall, point) ∧
        point.downloads = true
    · obtain ⟨otherCall, point, was, isDownloading⟩ := wasDownloading
      exact ended otherCall point was isDownloading notNew
    · refine untouched fun other otherCall point was => ?_
      by_cases same : other = id
      · subst same
        exact Bool.eq_false_iff.mpr fun isDownloading =>
          wasDownloading ⟨otherCall, point, was, isDownloading⟩
      · refine nobody other otherCall point ?_
        rw [moved, Function.update_of_ne same, was]
  content downloaded := by
    rw [handle] at downloaded ⊢
    exact tidy.content downloaded
  reason downloaded := by
    rw [handle] at downloaded
    refine (tidy.reason downloaded).imp_right ?_
    rintro ⟨other, otherCall, point, was, isReady⟩
    by_cases same : other = id
    · subst same
      exact ⟨other, call, new, by rw [moved, Function.update_self],
        ready otherCall point was isReady⟩
    · exact ⟨other, otherCall, point, by rw [moved, Function.update_of_ne same, was], isReady⟩
  nodup := tidy.nodup
  only entry member := only_update moved sameCall (tidy.only entry member)
  answered := by
    intro other otherCall point data is returned
    rcases calls_update moved is with ⟨rfl, rfl, rfl⟩ | ⟨-, was⟩
    · cases was : state.calls other with
      | none =>
          rw [begins was] at returned
          cases returned
      | some pair =>
          obtain ⟨oldCall, oldPoint⟩ := pair
          obtain ⟨rfl, same⟩ := sameCall _ _ was
          exact tidy.answered was (same.symm.trans returned)
    · exact tidy.answered was returned

theorem Tidy.moves (tidy : Tidy isLocalOnly session state order)
    (is : state.calls id = some (call, old)) (handle : later.handle = state.handle)
    (lock : later.handleLock = state.handleLock)
    (moved : later.calls = Function.update state.calls id (some (call, new)))
    (returns : new.returns = old.returns)
    (fits : CallFits isLocalOnly session later id call new)
    (downloads : new.downloads = true → ∀ other otherCall point, other ≠ id →
      state.calls other = some (otherCall, point) → point.downloads = false)
    (transfers : new = .transfer → call.isTruncate = true)
    (ended : old.downloads = true → new.downloads = false →
      state.handle.temp = session.handle.temp)
    (ready : old.ready = true → new.ready = true) :
    Tidy isLocalOnly session later order := by
  have same {otherCall : Call} {point : SharedPoint}
      (was : state.calls id = some (otherCall, point)) : otherCall = call ∧ point = old := by
    rw [is] at was
    cases was
    exact ⟨rfl, rfl⟩
  refine tidy.quiet handle moved ?_ ?_ fits downloads transfers ?_ ?_ ?_
  · intro otherCall point was
    obtain ⟨rfl, rfl⟩ := same was
    exact ⟨rfl, returns⟩
  · intro other otherCall point _ was isHeld
    rw [lock]
    exact (tidy.fits was).locked isHeld
  · intro otherCall point was
    obtain ⟨rfl, rfl⟩ := same was
    exact ended
  · intro otherCall point was
    obtain ⟨rfl, rfl⟩ := same was
    exact ready
  · intro none
    rw [is] at none
    cases none

theorem Tidy.localOnly (tidy : Tidy isLocalOnly session state order)
    (noBase : isLocalOnly = true → session.handle.baseDownloaded = true)
    (local_ : isLocalOnly = true) : state.handle.baseDownloaded = true :=
  tidy.kept (noBase local_)

theorem Tidy.begin (tidy : Tidy isLocalOnly session state order)
    (noBase : isLocalOnly = true → session.handle.baseDownloaded = true)
    (notBegun : state.calls id = none) :
    Tidy isLocalOnly session (state.moveTo id call
      (if isLocalOnly && call.isTruncate then .transfer else .enter)) order := by
  have nothing {otherCall : Call} {point : SharedPoint}
      (was : state.calls id = some (otherCall, point)) : False := by
    rw [notBegun] at was
    cases was
  have locks : ∀ other otherCall point, other ≠ id → state.calls other = some (otherCall, point) →
      point.holds isLocalOnly otherCall = true → state.handleLock = some other :=
    fun _ _ _ _ was isHeld => (tidy.fits was).locked isHeld
  split
  · rename_i localTruncate
    obtain ⟨local_, truncate⟩ := (Bool.and_eq_true ..).mp localTruncate
    refine tidy.quiet rfl rfl (fun _ _ was => (nothing was).elim) locks ?_ (by simp
      [SharedPoint.downloads]) (fun _ => truncate) (fun _ _ was => (nothing was).elim)
      (fun _ _ was => (nothing was).elim) (fun _ => rfl)
    apply CallFits.of_notDownloading
    · rfl
    · simp [SharedPoint.holds, local_]
    · exact fun _ => tidy.localOnly noBase local_
    · intro _ offset isOffset
      cases call with
      | truncate => cases isOffset
      | _ => cases truncate
    · intro _ _ notTruncate
      rw [truncate] at notTruncate
      cases notTruncate
  · refine tidy.quiet rfl rfl (fun _ _ was => (nothing was).elim) locks ?_ (by simp
      [SharedPoint.downloads]) (fun impossible => by cases impossible)
      (fun _ _ was => (nothing was).elim) (fun _ _ was => (nothing was).elim) (fun _ => rfl)
    apply CallFits.of_notDownloading
    · rfl
    · simp [SharedPoint.holds]
    · simp [SharedPoint.ready]
    · simp
    · simp

theorem Tidy.enter (tidy : Tidy isLocalOnly session state order)
    (is : state.calls id = some (call, .enter)) :
    Tidy isLocalOnly session ({ state with fdLock := some id }.moveTo id call
      (if call.isTruncate then .check else .looking)) order := by
  cases truncate : call.isTruncate with
  | true =>
      refine tidy.moves is rfl rfl rfl rfl ?_ ?_ ?_ ?_ ?_
      · apply CallFits.of_notDownloading
        all_goals simp [truncate]
      all_goals simp
  | false =>
      refine tidy.moves is rfl rfl rfl rfl ?_ ?_ ?_ ?_ ?_
      · apply CallFits.of_notDownloading
        all_goals simp
      all_goals simp

theorem Tidy.looking (tidy : Tidy isLocalOnly session state order)
    (noBase : isLocalOnly = true → session.handle.baseDownloaded = true)
    (is : state.calls id = some (call, .looking)) :
    Tidy isLocalOnly session ({ state with fdLock := none }.moveTo id call
      (if isLocalOnly then .seek else .lock)) order := by
  cases isLocalOnly with
  | true =>
      refine tidy.moves is rfl rfl rfl rfl ?_ ?_ ?_ ?_ ?_
      · apply CallFits.of_notDownloading
        case ready => exact fun _ => tidy.localOnly noBase rfl
        all_goals simp
      all_goals simp
  | false =>
      refine tidy.moves is rfl rfl rfl rfl ?_ ?_ ?_ ?_ ?_
      · apply CallFits.of_notDownloading
        all_goals simp
      all_goals simp

theorem Tidy.refused (tidy : Tidy isLocalOnly session state order)
    (is : state.calls id = some (call, .lock)) :
    Tidy isLocalOnly session (state.moveTo id call (.finished none)) order := by
  refine tidy.moves is rfl rfl rfl rfl ?_ ?_ ?_ ?_ ?_
  · apply CallFits.of_notDownloading
    all_goals simp
  all_goals simp

theorem Tidy.lock (tidy : Tidy isLocalOnly session state order)
    (is : state.calls id = some (call, .lock)) (free : state.handleLock = none) :
    Tidy isLocalOnly session ({ state with handleLock := some id }.moveTo id call .check)
      order := by
  refine tidy.quiet rfl rfl ?_ ?_ ?_ ?_ ?_ ?_ ?_ ?_
  · intro otherCall point was
    rw [is] at was
    cases was
    exact ⟨rfl, rfl⟩
  · intro other otherCall point _ was isHeld
    have held := (tidy.fits was).locked isHeld
    rw [free] at held
    cases held
  · apply CallFits.of_notDownloading
    case locked => exact fun _ => rfl
    all_goals simp
  · simp
  · simp
  · intro otherCall point was
    rw [is] at was
    cases was
    simp
  · intro otherCall point was
    rw [is] at was
    cases was
    simp
  · simp

theorem Tidy.check (tidy : Tidy isLocalOnly session state order)
    (is : state.calls id = some (call, .check))
    (apart : state.handle.baseDownloaded = false → ∀ other otherCall otherPoint,
      state.calls other = some (otherCall, otherPoint) → otherPoint.downloads = false) :
    Tidy isLocalOnly session (state.moveTo id call
      (if state.handle.baseDownloaded then call.afterEnsure else .fetch)) order := by
  have locked := (tidy.fits is).locked
  cases downloaded : state.handle.baseDownloaded with
  | true =>
      cases truncate : call.isTruncate with
      | true =>
          have after : call.afterEnsure = .transfer := by simp [Call.afterEnsure, truncate]
          rw [if_pos rfl, after]
          refine tidy.moves is rfl rfl rfl rfl ?_ ?_ ?_ ?_ ?_
          · apply CallFits.of_notDownloading
            case ready => exact fun _ => downloaded
            case positioned =>
              intro _ offset isOffset
              cases call with
              | truncate => cases isOffset
              | _ => cases truncate
            all_goals simp [truncate]
          all_goals simp [truncate]
      | false =>
          have after : call.afterEnsure = .seek := by simp [Call.afterEnsure, truncate]
          rw [if_pos rfl, after]
          refine tidy.moves is rfl rfl rfl rfl ?_ ?_ ?_ ?_ ?_
          · apply CallFits.of_notDownloading
            case ready => exact fun _ => downloaded
            case locked => exact locked
            all_goals simp
          all_goals simp
  | false =>
      rw [if_neg Bool.false_ne_true]
      have nobody := apart downloaded
      obtain ⟨-, untouched⟩ := tidy.untouched downloaded
      refine tidy.moves is rfl rfl rfl rfl ?_ ?_ ?_ ?_ ?_
      · constructor
        case locked => exact locked
        case downloading =>
          refine fun _ => ⟨downloaded, fun other otherCall point was isDownloading => ?_⟩
          rcases calls_update rfl was with ⟨same, -⟩ | ⟨-, wasOther⟩
          · exact same
          · rw [nobody other otherCall point wasOther] at isDownloading
            cases isDownloading
        case fetching => exact fun _ => untouched fun other => nobody other
        all_goals simp
      case refine_2 => exact fun _ other otherCall point _ => nobody other otherCall point
      all_goals simp

theorem Session.ensured_eq (notDownloaded : session.handle.baseDownloaded = false) :
    session.ensured = { session.handle with
      temp := if SharedHandle.fetches session then session.handle.temp.write session.current
        else session.handle.temp
      baseDownloaded := true } := by
  unfold Session.ensured ensureDownloaded SharedHandle.fetches
  rw [notDownloaded, if_neg Bool.false_ne_true]
  cases session.cached with
  | none => rfl
  | some node =>
      by_cases positive : 0 < node.size
      · simp [positive]
      · simp [positive]

theorem Tidy.notDownloaded (tidy : Tidy isLocalOnly session state order)
    (notDownloaded : state.handle.baseDownloaded = false) :
    session.handle.baseDownloaded = false := by
  cases downloaded : session.handle.baseDownloaded with
  | false => rfl
  | true => exact (tidy.kept downloaded).symm.trans notDownloaded

theorem Tidy.fetch (tidy : Tidy isLocalOnly session state order)
    (is : state.calls id = some (call, .fetch)) :
    Tidy isLocalOnly session
      (state.moveTo id call (if SharedHandle.fetches session then .store else .mark)) order := by
  have fitted := tidy.fits is
  obtain ⟨notDownloaded, onlyOne⟩ := fitted.downloading rfl
  have atStart := fitted.fetching (.inl rfl)
  have others : ∀ other otherCall point, other ≠ id →
      state.calls other = some (otherCall, point) → point.downloads = false := by
    intro other otherCall point notSame was
    exact Bool.eq_false_iff.mpr fun isDownloading =>
      notSame (onlyOne other otherCall point was isDownloading)
  have stillOne (new : SharedPoint) : ∀ other otherCall point,
      (state.moveTo id call new).calls other = some (otherCall, point) →
        point.downloads = true → other = id := by
    intro other otherCall point was isDownloading
    rcases calls_update rfl was with ⟨same, -⟩ | ⟨-, wasOther⟩
    · exact same
    · exact onlyOne other otherCall point wasOther isDownloading
  cases fetches : SharedHandle.fetches session with
  | true =>
      refine tidy.moves is rfl rfl rfl rfl ?_ (fun _ => others) ?_ ?_ ?_
      · constructor
        case locked => exact fitted.locked
        case downloading => exact fun _ => ⟨notDownloaded, stillOne _⟩
        case fetching => exact fun _ => atStart
        case fetched => exact fun _ => fetches
        all_goals simp
      all_goals simp
  | false =>
      refine tidy.moves is rfl rfl rfl rfl ?_ (fun _ => others) ?_ ?_ ?_
      · constructor
        case locked => exact fitted.locked
        case downloading => exact fun _ => ⟨notDownloaded, stillOne _⟩
        case marking =>
          intro _
          rw [Session.ensured_eq (tidy.notDownloaded notDownloaded), fetches]
          exact atStart
        all_goals simp
      all_goals simp

theorem Tidy.failed (tidy : Tidy isLocalOnly session state order)
    (is : state.calls id = some (call, .fetch)) :
    Tidy isLocalOnly session (state.moveTo id call (.leave none)) order := by
  have fitted := tidy.fits is
  refine tidy.moves is rfl rfl rfl rfl ?_ ?_ ?_ ?_ ?_
  · apply CallFits.of_notDownloading
    case locked => exact fitted.locked
    all_goals simp
  case refine_4 => exact fun _ _ => fitted.fetching (.inl rfl)
  all_goals simp

theorem Tidy.leave (tidy : Tidy isLocalOnly session state order) {data : Option (List Bytes)}
    (is : state.calls id = some (call, .leave data)) :
    Tidy isLocalOnly session
      (if call.isTruncate then { state with fdLock := none }.moveTo id call (.finished data)
        else { state with handleLock := none }.moveTo id call (.finished data)) order := by
  have fitted := tidy.fits is
  have ready : SharedPoint.ready (.finished data) = true →
      state.handle.baseDownloaded = true := fitted.ready
  cases truncate : call.isTruncate with
  | true =>
      refine tidy.moves is rfl rfl rfl rfl ?_ ?_ ?_ ?_ ?_
      · apply CallFits.of_notDownloading
        case ready => exact ready
        all_goals simp
      all_goals simp
  | false =>
      refine tidy.quiet rfl rfl ?_ ?_ ?_ ?_ ?_ ?_ ?_ ?_
      · intro otherCall point was
        rw [is] at was
        cases was
        exact ⟨rfl, rfl⟩
      · intro other otherCall point notSame was isHeld
        have held := (tidy.fits was).locked isHeld
        have isRemote : isLocalOnly = false := by
          cases isLocalOnly with
          | false => rfl
          | true => cases point <;> simp at isHeld
        have own := fitted.locked (by simp [isRemote, truncate])
        rw [own] at held
        cases held
        exact absurd rfl notSame
      · apply CallFits.of_notDownloading
        case ready => exact ready
        all_goals simp
      · simp
      · simp
      · intro otherCall point was
        rw [is] at was
        cases was
        simp
      · intro otherCall point was
        rw [is] at was
        cases was
        simp
      · intro none
        rw [is] at none
        cases none

/-- While a base is downloaded no other call is past its check. -/
theorem Tidy.others_of_downloading (tidy : Tidy isLocalOnly session state order)
    (is : state.calls id = some (call, old)) (downloads : old.downloads = true)
    {other : Nat} {otherCall : Call} {point : SharedPoint} (notSame : other ≠ id)
    (was : state.calls other = some (otherCall, point)) :
    point.downloads = false ∧ point.ready = false := by
  obtain ⟨notDownloaded, onlyOne⟩ := (tidy.fits is).downloading downloads
  constructor
  · exact Bool.eq_false_iff.mpr fun isDownloading =>
      notSame (onlyOne other otherCall point was isDownloading)
  · refine Bool.eq_false_iff.mpr fun isReady => ?_
    rw [(tidy.fits was).ready isReady] at notDownloaded
    cases notDownloaded

theorem CallFits.of_waiting (notDownloading : new.downloads = false) (notReady : new.ready = false)
    (locked : new.holds isLocalOnly call = true → state.handleLock = some id) :
    CallFits isLocalOnly session state id call new := by
  have notTransfer : new ≠ .transfer := by
    rintro rfl
    cases notReady
  apply CallFits.of_notDownloading notDownloading locked
  · intro isReady
    rw [notReady] at isReady
    cases isReady
  · exact fun isTransfer => absurd isTransfer notTransfer
  · exact fun _ isTransfer => absurd isTransfer notTransfer

theorem Tidy.answered_update (tidy : Tidy isLocalOnly session state order)
    (moved : later.calls = Function.update state.calls id (some (call, new)))
    (returns : new.returns = none) {other : Nat} {otherCall : Call} {point : SharedPoint}
    {data : List Bytes} (is : later.calls other = some (otherCall, point))
    (returned : point.returns = some data) :
    (other, otherCall, data) ∈ session.answers order := by
  rcases calls_update moved is with ⟨rfl, rfl, rfl⟩ | ⟨-, was⟩
  · rw [returns] at returned
    cases returned
  · exact tidy.answered was returned

theorem Tidy.only_of_none (tidy : Tidy isLocalOnly session state order)
    (is : state.calls id = some (call, old)) (wasNone : old.returns = none)
    (moved : later.calls = Function.update state.calls id (some (call, new)))
    (returns : new.returns = none) :
    ∀ entry ∈ order, ∃ point data, later.calls entry.1 = some (entry.2, point) ∧
      point.returns = some data := by
  intro entry member
  refine only_update moved ?_ (tidy.only entry member)
  intro otherCall point was
  rw [is] at was
  cases was
  exact ⟨rfl, returns.trans wasNone.symm⟩

theorem Tidy.store (tidy : Tidy isLocalOnly session state order)
    (is : state.calls id = some (call, .store)) :
    Tidy isLocalOnly session ({ state with
      handle := { state.handle with temp := state.handle.temp.write session.current }
      }.moveTo id call .mark) order := by
  have fitted := tidy.fits is
  obtain ⟨notDownloaded, onlyOne⟩ := fitted.downloading rfl
  have fetches := fitted.fetched rfl
  have written : state.handle.temp.write session.current = session.ensured.temp := by
    rw [Session.ensured_eq (tidy.notDownloaded notDownloaded), fetches,
      fitted.fetching (.inr rfl)]
    rfl
  constructor
  case fits =>
    intro other otherCall point was
    rcases calls_update rfl was with ⟨rfl, rfl, rfl⟩ | ⟨notSame, wasOther⟩
    · constructor
      case locked => exact fitted.locked
      case downloading =>
        refine fun _ => ⟨notDownloaded, fun third thirdCall point was isDownloading => ?_⟩
        rcases calls_update rfl was with ⟨same, -⟩ | ⟨-, wasThird⟩
        · exact same
        · exact onlyOne third thirdCall point wasThird isDownloading
      case marking => exact fun _ => written
      all_goals simp
    · obtain ⟨notDownloading, notReady⟩ := tidy.others_of_downloading is rfl notSame wasOther
      exact .of_waiting notDownloading notReady (tidy.fits wasOther).locked
  case kept => exact tidy.kept
  case untouched =>
    refine fun _ => ⟨(tidy.untouched notDownloaded).1, fun nobody => ?_⟩
    have isDownloading := nobody id call .mark (Function.update_self ..)
    cases isDownloading
  case content =>
    exact fun downloaded => absurd (notDownloaded.symm.trans downloaded) Bool.false_ne_true
  case reason =>
    exact fun downloaded => absurd (notDownloaded.symm.trans downloaded) Bool.false_ne_true
  case nodup => exact tidy.nodup
  case only => exact tidy.only_of_none is rfl rfl rfl
  case answered => exact tidy.answered_update rfl rfl

theorem Tidy.mark (tidy : Tidy isLocalOnly session state order)
    (is : state.calls id = some (call, .mark)) :
    Tidy isLocalOnly session ({ state with
      handle := { state.handle with baseDownloaded := true } }.moveTo id call call.afterEnsure)
      order := by
  have fitted := tidy.fits is
  obtain ⟨notDownloaded, onlyOne⟩ := fitted.downloading rfl
  have atEnsured := fitted.marking rfl
  have noOrder := (tidy.untouched notDownloaded).1
  have returns : call.afterEnsure.returns = none := by
    unfold Call.afterEnsure
    split <;> rfl
  have isReady : call.afterEnsure.ready = true := by
    unfold Call.afterEnsure
    split <;> rfl
  constructor
  case fits =>
    intro other otherCall point was
    rcases calls_update rfl was with ⟨rfl, rfl, rfl⟩ | ⟨notSame, wasOther⟩
    · have others : ∀ third thirdCall, third ≠ other →
          state.calls third ≠ some (thirdCall, .transfer) := by
        intro third thirdCall notSame wasThird
        cases (tidy.others_of_downloading is rfl notSame wasThird).2
      apply CallFits.of_notDownloading
      · unfold Call.afterEnsure
        split <;> rfl
      · intro holds
        refine fitted.locked ?_
        unfold Call.afterEnsure at holds
        split at holds <;> exact holds
      · exact fun _ => rfl
      · intro isTransfer offset isOffset
        unfold Call.afterEnsure at isTransfer
        split at isTransfer
        · rename_i truncate
          cases otherCall with
          | truncate => cases isOffset
          | _ => cases truncate
        · cases isTransfer
      · intro _ _ _ third thirdCall was _
        rcases calls_update rfl was with ⟨same, -⟩ | ⟨notSame, wasThird⟩
        · exact same
        · exact absurd wasThird (others third thirdCall notSame)
    · obtain ⟨notDownloading, notReady⟩ := tidy.others_of_downloading is rfl notSame wasOther
      exact .of_waiting notDownloading notReady (tidy.fits wasOther).locked
  case kept => exact fun _ => rfl
  case untouched =>
    intro impossible
    cases impossible
  case content =>
    intro _
    rw [noOrder]
    exact congrArg TempFile.bytes atEnsured
  case reason => exact fun _ => .inr ⟨id, call, _, Function.update_self .., isReady⟩
  case nodup => exact tidy.nodup
  case only => exact tidy.only_of_none is rfl rfl returns
  case answered => exact tidy.answered_update rfl returns

/-- Only one call reads or writes past its seek. -/
theorem Tidy.exclusive (tidy : Tidy isLocalOnly session state order)
    (isRemote : isLocalOnly = false) {other : Nat} {otherCall : Call} {point : SharedPoint}
    (is : state.calls id = some (call, old)) (was : state.calls other = some (otherCall, point))
    (truncate : call.isTruncate = false) (notTruncateEither : otherCall.isTruncate = false)
    (isAfter : old = .seek ∨ old = .transfer) (isTransfer : point = .transfer) : other = id := by
  have held : state.handleLock = some id := by
    refine (tidy.fits is).locked ?_
    rcases isAfter with rfl | rfl
    · simp [isRemote, truncate]
    · simp [isRemote, truncate]
  have alsoHeld : state.handleLock = some other := by
    refine (tidy.fits was).locked ?_
    subst isTransfer
    simp [isRemote, notTruncateEither]
  exact Option.some.inj (alsoHeld.symm.trans held)

theorem Call.isTruncate_of_offset {offset : Nat} (isOffset : call.offset = some offset) :
    call.isTruncate = false := by
  cases call with
  | truncate => cases isOffset
  | _ => rfl

theorem Tidy.downloads_eq_false (tidy : Tidy isLocalOnly session state order)
    (downloaded : state.handle.baseDownloaded = true) (is : state.calls id = some (call, old)) :
    old.downloads = false := by
  rw [Bool.eq_false_iff]
  intro isDownloading
  have notDownloaded := ((tidy.fits is).downloading isDownloading).1
  exact absurd (notDownloaded.symm.trans downloaded) Bool.false_ne_true

/-- A call that moves the position leaves no other one behind its seek. -/
theorem Tidy.positioned_other (tidy : Tidy isLocalOnly session state order)
    {handle : WriteHandle} {other offset : Nat} {otherCall : Call}
    (is : state.calls id = some (call, old)) (isAfter : old = .seek ∨ old = .transfer)
    (stays : call.isTruncate = true → handle.temp.position = state.handle.temp.position)
    (alone : isLocalOnly = true → call.isTruncate = false → otherCall.isTruncate = false →
      other = id)
    (was : state.calls other = some (otherCall, .transfer)) (notSame : other ≠ id)
    (isOffset : otherCall.offset = some offset) : handle.temp.position = offset := by
  have notTruncate := Call.isTruncate_of_offset isOffset
  cases truncate : call.isTruncate with
  | true =>
      rw [stays truncate]
      exact (tidy.fits was).positioned rfl offset isOffset
  | false =>
      cases local_ : isLocalOnly with
      | true => exact absurd (alone local_ truncate notTruncate) notSame
      | false =>
          exact absurd (tidy.exclusive local_ is was truncate notTruncate isAfter rfl) notSame

theorem Tidy.seek (tidy : Tidy isLocalOnly session state order)
    (is : state.calls id = some (call, .seek))
    (apart : isLocalOnly = true → ∀ other otherCall,
      state.calls other = some (otherCall, .transfer) → otherCall.isTruncate = true) :
    Tidy isLocalOnly session
      ({ state with handle := SharedHandle.sought state.handle call }.moveTo id call .transfer)
      order := by
  have fitted := tidy.fits is
  have downloaded := fitted.ready rfl
  have sameFlag : (SharedHandle.sought state.handle call).baseDownloaded = true := by
    cases call <;> exact downloaded
  have sameBytes : (SharedHandle.sought state.handle call).temp.bytes =
      state.handle.temp.bytes := by
    cases call <;> rfl
  constructor
  case fits =>
    intro other otherCall point was
    rcases calls_update rfl was with ⟨rfl, rfl, rfl⟩ | ⟨notSame, wasOther⟩
    · apply CallFits.of_notDownloading
      · rfl
      · exact fitted.locked
      · exact fun _ => sameFlag
      · intro _ offset isOffset
        cases otherCall with
        | truncate => cases isOffset
        | _ =>
            cases isOffset
            rfl
      · intro local_ _ _ third thirdCall was notTruncateEither
        rcases calls_update rfl was with ⟨same, -⟩ | ⟨-, wasThird⟩
        · exact same
        · rw [apart local_ third thirdCall wasThird] at notTruncateEither
          cases notTruncateEither
    · have otherFits := tidy.fits wasOther
      refine CallFits.of_notDownloading (tidy.downloads_eq_false downloaded wasOther)
        otherFits.locked ?_ ?_ ?_
      · exact fun _ => sameFlag
      · intro isTransfer offset isOffset
        subst isTransfer
        refine tidy.positioned_other is (.inl rfl) ?_ ?_ wasOther notSame isOffset
        · intro truncate
          cases call with
          | truncate => rfl
          | _ => cases truncate
        · intro local_ _ notTruncate
          rw [apart local_ other otherCall wasOther] at notTruncate
          cases notTruncate
      · intro local_ isTransfer notTruncate
        subst isTransfer
        rw [apart local_ other otherCall wasOther] at notTruncate
        cases notTruncate
  case kept => exact fun _ => sameFlag
  case untouched =>
    exact fun impossible => absurd (impossible.symm.trans sameFlag) Bool.false_ne_true
  case content =>
    intro _
    exact sameBytes.trans (tidy.content downloaded)
  case reason => exact fun _ => .inr ⟨id, call, .transfer, Function.update_self .., rfl⟩
  case nodup => exact tidy.nodup
  case only => exact tidy.only_of_none is rfl rfl rfl
  case answered => exact tidy.answered_update rfl rfl

theorem SharedHandle.transferred_meaning {handle : WriteHandle}
    (positioned : ∀ offset, call.offset = some offset → handle.temp.position = offset) :
    (SharedHandle.transferred handle call).1 = (call.meaning handle.temp.bytes).1 ∧
      (SharedHandle.transferred handle call).2.temp.bytes =
        (call.meaning handle.temp.bytes).2 ∧
      (SharedHandle.transferred handle call).2.baseDownloaded = handle.baseDownloaded := by
  cases call with
  | read length offset =>
      have here := positioned offset rfl
      subst here
      exact ⟨rfl, rfl, rfl⟩
  | write data offset =>
      have here := positioned offset rfl
      subst here
      exact ⟨rfl, rfl, rfl⟩
  | truncate length => exact ⟨rfl, rfl, rfl⟩

theorem Session.answers_concat (session : Session) (order : List (Nat × Call)) (id : Nat)
    (call : Call) :
    session.answers (order ++ [(id, call)]) =
      session.answers order ++ [(id, call, ((session.after order).call call).1)] := by
  induction order generalizing session with
  | nil => rfl
  | cons entry order induction =>
      obtain ⟨other, otherCall⟩ := entry
      exact congrArg (List.cons _) (induction _)

theorem Session.after_concat (session : Session) (order : List (Nat × Call)) (id : Nat)
    (call : Call) :
    session.after (order ++ [(id, call)]) = ((session.after order).call call).2 :=
  List.foldl_concat ..

/-- A call takes effect at its transfer. -/
theorem Tidy.transfer (tidy : Tidy isLocalOnly session state order)
    (is : state.calls id = some (call, .transfer)) :
    Tidy isLocalOnly session
      ({ state with handle := (SharedHandle.transferred state.handle call).2 }.moveTo id call
        (if isLocalOnly then .finished (some (SharedHandle.transferred state.handle call).1)
          else .leave (some (SharedHandle.transferred state.handle call).1)))
      (order ++ [(id, call)]) := by
  have fitted := tidy.fits is
  have downloaded := fitted.ready rfl
  obtain ⟨sameData, sameBytes, sameFlag⟩ :=
    SharedHandle.transferred_meaning (fitted.positioned rfl)
  obtain ⟨meansData, meansBytes, afterDownloaded⟩ := (session.after order).call_meaning call
  rw [tidy.content downloaded] at sameData sameBytes
  generalize ended : (if isLocalOnly then
    SharedPoint.finished (some (SharedHandle.transferred state.handle call).1)
    else .leave (some (SharedHandle.transferred state.handle call).1)) = new
  have returns : new.returns = some (SharedHandle.transferred state.handle call).1 := by
    rw [← ended]
    split <;> rfl
  have isReady : new.ready = true := by
    rw [← ended]
    split <;> rfl
  have notTransfer : new ≠ .transfer := by
    rw [← ended]
    split <;> simp
  have endedWell : new.downloads = false := by
    rw [← ended]
    split <;> rfl
  have stillDownloaded := sameFlag.trans downloaded
  have notOrdered : ∀ entry ∈ order, entry.1 ≠ id := by
    rintro entry member rfl
    obtain ⟨point, data, was, returned⟩ := tidy.only entry member
    rw [is] at was
    cases was
    cases returned
  constructor
  case fits =>
    intro other otherCall point was
    rcases calls_update rfl was with ⟨rfl, rfl, rfl⟩ | ⟨notSame, wasOther⟩
    · refine CallFits.of_notDownloading endedWell ?_ (fun _ => stillDownloaded)
        (fun isTransfer => absurd isTransfer notTransfer)
        (fun _ isTransfer => absurd isTransfer notTransfer)
      intro holds
      refine fitted.locked ?_
      rw [← ended] at holds
      split at holds
      · cases holds
      · exact holds
    · have otherFits := tidy.fits wasOther
      refine CallFits.of_notDownloading (tidy.downloads_eq_false downloaded wasOther)
        otherFits.locked (fun _ => stillDownloaded) ?_ ?_
      · intro isTransfer offset isOffset
        subst isTransfer
        refine tidy.positioned_other is (.inr rfl) ?_ ?_ wasOther notSame isOffset
        · intro truncate
          cases call with
          | truncate => rfl
          | _ => cases truncate
        · intro local_ truncate notTruncate
          exact fitted.alone local_ rfl truncate other otherCall wasOther notTruncate
      · intro local_ isTransfer notTruncate third thirdCall was notTruncateEither
        rcases calls_update rfl was with ⟨-, -, same⟩ | ⟨-, wasThird⟩
        · exact absurd same.symm notTransfer
        · exact otherFits.alone local_ isTransfer notTruncate third thirdCall wasThird
            notTruncateEither
  case kept => exact fun _ => stillDownloaded
  case untouched =>
    exact fun impossible => absurd (impossible.symm.trans stillDownloaded) Bool.false_ne_true
  case content =>
    intro _
    rw [Session.after_concat, Session.ensured_of_downloaded afterDownloaded]
    exact sameBytes.trans meansBytes.symm
  case reason => exact fun _ => .inr ⟨id, call, new, Function.update_self .., isReady⟩
  case nodup =>
    rw [List.map_append, List.nodup_append]
    refine ⟨tidy.nodup, List.nodup_singleton _, ?_⟩
    intro first member second single
    obtain ⟨entry, isEntry, rfl⟩ := List.mem_map.mp member
    rw [List.mem_singleton.mp single]
    exact notOrdered entry isEntry
  case only =>
    intro entry member
    rcases List.mem_append.mp member with earlier | single
    · obtain ⟨point, data, was, returned⟩ := tidy.only entry earlier
      refine ⟨point, data, ?_, returned⟩
      exact (Function.update_of_ne (notOrdered entry earlier) ..).trans was
    · rw [List.mem_singleton.mp single]
      exact ⟨new, _, Function.update_self .., returns⟩
  case answered =>
    intro other otherCall point data was returned
    rw [Session.answers_concat, List.mem_append]
    rcases calls_update rfl was with ⟨rfl, rfl, rfl⟩ | ⟨-, wasOther⟩
    · right
      rw [returns] at returned
      cases returned
      rw [meansData, ← sameData]
      exact List.mem_singleton_self _
    · exact .inl (tidy.answered wasOther returned)

end Steps

/-! ## Runs -/

section Runs

variable {isLocalOnly : Bool} {session : Session} {state later : SharedHandle}
  {order : List (Nat × Call)}

/-- Each step of calls that keep apart leaves the order, or lengthens it. -/
theorem Tidy.step (tidy : Tidy isLocalOnly session state order)
    (noBase : isLocalOnly = true → session.handle.baseDownloaded = true) {label : SharedLabel}
    (apart : KeepApart isLocalOnly state label)
    (stepped : SharedHandle.step isLocalOnly session state label = some later) :
    ∃ order, Tidy isLocalOnly session later order := by
  cases label with
  | begin id call =>
      simp only [SharedHandle.step, Option.ite_none_left_eq_some, Option.some.injEq] at stepped
      obtain ⟨notBegun, rfl⟩ := stepped
      exact ⟨order, tidy.begin noBase (Option.not_isSome_iff_eq_none.mp notBegun)⟩
  | advance id fails =>
      cases is : state.calls id with
      | none =>
          simp only [SharedHandle.step, is] at stepped
          cases stepped
      | some pair =>
          obtain ⟨call, point⟩ := pair
          obtain ⟨apartDownloads, apartSeeks⟩ := apart call point is
          simp only [SharedHandle.step, is] at stepped
          cases point with
          | enter =>
              simp only [SharedHandle.advance, Option.ite_none_left_eq_some,
                Option.some.injEq] at stepped
              obtain ⟨-, rfl⟩ := stepped
              exact ⟨order, tidy.enter is⟩
          | looking =>
              cases stepped
              exact ⟨order, tidy.looking noBase is⟩
          | lock =>
              simp only [SharedHandle.advance] at stepped
              split at stepped
              · cases stepped
                exact ⟨order, tidy.refused is⟩
              · simp only [Option.ite_none_left_eq_some, Option.some.injEq] at stepped
                obtain ⟨free, rfl⟩ := stepped
                exact ⟨order, tidy.lock is (Option.not_isSome_iff_eq_none.mp free)⟩
          | check =>
              cases stepped
              exact ⟨order, tidy.check is (apartDownloads rfl)⟩
          | fetch =>
              simp only [SharedHandle.advance] at stepped
              split at stepped
              · cases stepped
                exact ⟨order, tidy.failed is⟩
              · cases stepped
                exact ⟨order, tidy.fetch is⟩
          | store =>
              cases stepped
              exact ⟨order, tidy.store is⟩
          | mark =>
              cases stepped
              exact ⟨order, tidy.mark is⟩
          | seek =>
              cases stepped
              exact ⟨order, tidy.seek is fun local_ => apartSeeks local_ rfl⟩
          | transfer =>
              cases stepped
              exact ⟨_, tidy.transfer is⟩
          | leave data =>
              cases stepped
              exact ⟨order, tidy.leave is⟩
          | finished data => cases stepped

theorem Tidy.idle (session : Session) :
    Tidy isLocalOnly session (SharedHandle.idle session.handle) [] where
  fits is := by cases is
  kept := id
  untouched _ := ⟨rfl, fun _ => rfl⟩
  content downloaded := by
    show _ = session.ensured.temp.bytes
    rw [Session.ensured_of_downloaded downloaded]
    rfl
  reason := .inl
  nodup := List.nodup_nil
  only entry member := by cases member
  answered is := by cases is

theorem Session.after_downloaded
    (reason : session.handle.baseDownloaded = true ∨ order ≠ []) :
    (session.after order).handle.baseDownloaded = true := by
  rcases List.eq_nil_or_concat order with rfl | ⟨earlier, ⟨id, call⟩, rfl⟩
  · exact reason.resolve_right fun notEmpty => notEmpty rfl
  · rw [List.concat_eq_append, Session.after_concat]
    exact ((session.after earlier).call_meaning call).2.2

theorem Tidy.inOrder (tidy : Tidy isLocalOnly session state order) :
    InOrder session state order where
  nodup := tidy.nodup
  only := tidy.only
  answered := tidy.answered
  file := by
    intro finished
    cases downloaded : state.handle.baseDownloaded with
    | true =>
        have reason : session.handle.baseDownloaded = true ∨ order ≠ [] := by
          refine (tidy.reason downloaded).imp_right ?_
          rintro ⟨id, call, point, is, isReady⟩ rfl
          have isFinished := finished id call point is
          cases point with
          | finished data =>
              obtain ⟨bytes, rfl⟩ := Option.isSome_iff_exists.mp isReady
              cases tidy.answered is rfl
          | _ => exact isFinished.elim
        rw [tidy.content downloaded,
          Session.ensured_of_downloaded (Session.after_downloaded reason)]
    | false =>
        obtain ⟨rfl, untouched⟩ := tidy.untouched downloaded
        refine congrArg TempFile.bytes (untouched fun id call point is => ?_)
        have isFinished := finished id call point is
        cases point with
        | finished data => rfl
        | _ => exact isFinished.elim

/-- The calls fit some order. -/
def Orderly (isLocalOnly : Bool) (session : Session) (state : SharedHandle) : Prop :=
  ∃ order, Tidy isLocalOnly session state order

/-- In every run whose calls keep apart they are as if made one after the other. -/
theorem inOrder_of_reaches (noBase : isLocalOnly = true → session.handle.baseDownloaded = true)
    (reached : Reaches (SharedHandle.step isLocalOnly session) (KeepApart isLocalOnly)
      (SharedHandle.idle session.handle) state) :
    ∃ order, InOrder session state order := by
  have orderly : Orderly isLocalOnly session state := by
    refine reached.invariant ?_ ⟨[], Tidy.idle session⟩
    rintro before label after ⟨order, tidy⟩ apart stepped
    exact tidy.step noBase apart stepped
  obtain ⟨order, tidy⟩ := orderly
  exact ⟨order, tidy.inOrder⟩

end Runs

/-! ## Calls that do not keep apart -/

section Samples

variable {isLocalOnly : Bool} {session : Session} {order : List (Nat × Call)}

theorem Session.answers_of_constant {content : Bytes}
    (has : session.ensured.temp.bytes = content)
    (constant : ∀ entry ∈ order, (entry.2.meaning content).2 = content) {id : Nat} {call : Call}
    {data : List Bytes} (member : (id, call, data) ∈ session.answers order) :
    data = (call.meaning content).1 := by
  induction order generalizing session with
  | nil => cases member
  | cons entry order induction =>
      obtain ⟨first, firstCall⟩ := entry
      obtain ⟨sameData, sameBytes, downloaded⟩ := session.call_meaning firstCall
      rw [has] at sameData sameBytes
      rcases List.mem_cons.mp member with same | later
      · cases same
        exact sameData
      · refine induction ?_ (fun entry member => constant entry (List.mem_cons_of_mem _ member))
          later
        rw [Session.ensured_of_downloaded downloaded, sameBytes]
        exact constant (first, firstCall) List.mem_cons_self

/-- A step moves one call. -/
theorem calls_of_advance {state later : SharedHandle} {id : Nat} {call : Call} {fails : Bool}
    {point : SharedPoint}
    (stepped : SharedHandle.advance isLocalOnly session state id call fails point = some later) :
    ∃ new, later.calls = Function.update state.calls id (some (call, new)) := by
  cases point with
  | enter =>
      simp only [SharedHandle.advance, Option.ite_none_left_eq_some, Option.some.injEq] at stepped
      obtain ⟨-, rfl⟩ := stepped
      exact ⟨_, rfl⟩
  | lock =>
      simp only [SharedHandle.advance] at stepped
      split at stepped
      · cases stepped
        exact ⟨_, rfl⟩
      · simp only [Option.ite_none_left_eq_some, Option.some.injEq] at stepped
        obtain ⟨-, rfl⟩ := stepped
        exact ⟨_, rfl⟩
  | fetch =>
      simp only [SharedHandle.advance] at stepped
      split at stepped
      · cases stepped
        exact ⟨_, rfl⟩
      · cases stepped
        exact ⟨_, rfl⟩
  | leave data =>
      cases stepped
      split
      · exact ⟨_, rfl⟩
      · exact ⟨_, rfl⟩
  | finished data => cases stepped
  | _ =>
      cases stepped
      exact ⟨_, rfl⟩

theorem begun_of_step {state later : SharedHandle} {label : SharedLabel}
    (stepped : SharedHandle.step isLocalOnly session state label = some later) {id : Nat}
    {call : Call} {point : SharedPoint} (is : later.calls id = some (call, point)) :
    (∃ point, state.calls id = some (call, point)) ∨ label = .begin id call := by
  cases label with
  | begin other otherCall =>
      simp only [SharedHandle.step, Option.ite_none_left_eq_some, Option.some.injEq] at stepped
      obtain ⟨-, rfl⟩ := stepped
      rcases calls_update rfl is with ⟨rfl, rfl, -⟩ | ⟨-, was⟩
      · exact .inr rfl
      · exact .inl ⟨point, was⟩
  | advance other fails =>
      cases atWork : state.calls other with
      | none =>
          simp only [SharedHandle.step, atWork] at stepped
          cases stepped
      | some pair =>
          obtain ⟨otherCall, old⟩ := pair
          simp only [SharedHandle.step, atWork] at stepped
          obtain ⟨new, moved⟩ := calls_of_advance stepped
          rcases calls_update moved is with ⟨rfl, rfl, -⟩ | ⟨-, was⟩
          · exact .inl ⟨old, atWork⟩
          · exact .inl ⟨point, was⟩

theorem begun_of_run {labels : List SharedLabel} {start finish : SharedHandle}
    (executed : Transition.run (SharedHandle.step isLocalOnly session) start labels = some finish)
    {id : Nat} {call : Call} {point : SharedPoint}
    (is : finish.calls id = some (call, point)) :
    (∃ point, start.calls id = some (call, point)) ∨ .begin id call ∈ labels := by
  induction labels generalizing start with
  | nil =>
      cases executed
      exact .inl ⟨point, is⟩
  | cons label labels induction =>
      obtain ⟨next, stepped, rest⟩ := Option.bind_eq_some_iff.mp executed
      rcases induction rest with ⟨nextPoint, was⟩ | later
      · rcases begun_of_step stepped was with earlier | rfl
        · exact .inl earlier
        · exact .inr List.mem_cons_self
      · exact .inr (List.mem_cons_of_mem _ later)

/-- A handle of a file with the content 1, which nobody has read yet. -/
def freshSession : Session :=
  .opened (some ⟨['f'], ['a'], false, 1, 0⟩) none [1]

/-- A local-only handle of a file with the content 1, 2. -/
def localSession : Session := ⟨⟨⟨[1, 2], 0⟩, true, true⟩, none, none, []⟩

/-- A `truncate` and a `read` both find that the base is not downloaded. -/
def twoDownloads : List SharedLabel :=
  .begin 0 (.read 2 0) :: .begin 1 (.truncate 1) ::
    (List.replicate 5 (.advance 0 false) ++ List.replicate 7 (.advance 1 false) ++
      List.replicate 5 (.advance 0 false))

/-- A `read` seeks before another one reads. -/
def twoSeeks : List SharedLabel :=
  [.begin 0 (.read 1 0), .begin 1 (.read 1 1), .advance 0 false, .advance 0 false,
    .advance 1 false, .advance 1 false, .advance 0 false, .advance 1 false, .advance 0 false,
    .advance 1 false]

def afterTwoDownloads : SharedHandle :=
  (Transition.run (SharedHandle.step false freshSession) (.idle freshSession.handle)
    twoDownloads).getD (.idle freshSession.handle)

def afterTwoSeeks : SharedHandle :=
  (Transition.run (SharedHandle.step true localSession) (.idle localSession.handle)
    twoSeeks).getD (.idle localSession.handle)

theorem not_inOrder {labels : List SharedLabel} {finish : SharedHandle} (content : Bytes)
    (executed : Transition.run (SharedHandle.step isLocalOnly session)
      (.idle session.handle) labels = some finish)
    (has : session.ensured.temp.bytes = content)
    (constant : ∀ id call, .begin id call ∈ labels → (call.meaning content).2 = content)
    {id : Nat} {call : Call} {data : List Bytes}
    (is : finish.calls id = some (call, .finished (some data)))
    (other : data ≠ (call.meaning content).1) : ¬ ∃ order, InOrder session finish order := by
  rintro ⟨order, inOrder⟩
  refine other (Session.answers_of_constant has ?_ (inOrder.answered is rfl))
  intro entry member
  obtain ⟨point, _, begun, -⟩ := inOrder.only entry member
  rcases begun_of_run executed begun with ⟨_, impossible⟩ | begins
  · cases impossible
  · exact constant entry.1 entry.2 begins

/-- Whatever the order of the steps, the calls are as if made one after the
other. -/
def AlwaysInOrder (isLocalOnly : Bool) : Prop :=
  ∀ (session : Session) (state : SharedHandle),
    (isLocalOnly = true → session.handle.baseDownloaded = true) →
    Reaches (SharedHandle.step isLocalOnly session) (fun _ _ => True)
      (SharedHandle.idle session.handle) state → ∃ order, InOrder session state order

/-- They are not, neither on a handle whose base is not downloaded nor on a
local-only one. -/
theorem not_alwaysInOrder : ¬ AlwaysInOrder false ∧ ¬ AlwaysInOrder true := by
  constructor
  · intro always
    have executed : Transition.run (SharedHandle.step false freshSession)
      (.idle freshSession.handle) twoDownloads = some afterTwoDownloads := rfl
    have ended : afterTwoDownloads.calls 0 = some (.read 2 0, .finished (some [[1, 1]])) := rfl
    refine not_inOrder [1] executed rfl ?_ ended (by decide)
      (always freshSession afterTwoDownloads nofun (.of_free_run executed))
    intro id call begins
    simp only [twoDownloads, List.mem_cons, SharedLabel.begin.injEq, List.mem_append,
      List.mem_replicate, reduceCtorEq, and_false, or_false] at begins
    rcases begins with ⟨-, rfl⟩ | ⟨-, rfl⟩
    · rfl
    · rfl
  · intro always
    have executed : Transition.run (SharedHandle.step true localSession)
      (.idle localSession.handle) twoSeeks = some afterTwoSeeks := rfl
    have ended : afterTwoSeeks.calls 0 = some (.read 1 0, .finished (some [[2]])) := rfl
    refine not_inOrder [1, 2] executed rfl ?_ ended (by decide)
      (always localSession afterTwoSeeks (fun _ => rfl) (.of_free_run executed))
    intro id call begins
    simp only [twoSeeks, List.mem_cons, SharedLabel.begin.injEq, reduceCtorEq, or_false,
      List.not_mem_nil] at begins
    rcases begins with ⟨-, rfl⟩ | ⟨-, rfl⟩
    · rfl
    · rfl

/-! ## Calls that keep apart and overlap -/

/-- A condition on three calls that can be computed and implies the other one. -/
def PlainlyApart (isLocalOnly : Bool) (state : SharedHandle) : SharedLabel → Bool
  | .begin id _ => id < 3
  | .advance id _ =>
      match state.calls id with
      | some (_, .check) => state.handle.baseDownloaded ||
          [0, 1, 2].all fun other => (state.calls other).all fun call => !call.2.downloads
      | some (_, .seek) => !isLocalOnly
      | _ => true

/-- Only these calls were begun. -/
def OnlyThree (state : SharedHandle) : Prop :=
  ∀ id call point, state.calls id = some (call, point) → id < 3

theorem OnlyThree.keepApart {state : SharedHandle} {label : SharedLabel} (only : OnlyThree state)
    (plain : PlainlyApart isLocalOnly state label = true) : KeepApart isLocalOnly state label := by
  cases label with
  | begin => trivial
  | advance id fails =>
      intro call point is
      simp only [PlainlyApart, is] at plain
      constructor
      · intro isCheck notDownloaded other otherCall otherPoint was
        subst isCheck
        simp only [notDownloaded, Bool.false_or] at plain
        have inside : other ∈ [0, 1, 2] := by
          have less := only other otherCall otherPoint was
          simp only [List.mem_cons, List.not_mem_nil, or_false]
          omega
        have all := List.all_eq_true.mp plain other inside
        simpa [was] using all
      · intro isLocal isSeek
        subst isSeek
        simp [isLocal] at plain

theorem OnlyThree.step {state later : SharedHandle} {label : SharedLabel} (only : OnlyThree state)
    (plain : PlainlyApart isLocalOnly state label = true)
    (stepped : SharedHandle.step isLocalOnly session state label = some later) :
    OnlyThree later := by
  intro id call point is
  rcases begun_of_step stepped is with ⟨before, was⟩ | begins
  · exact only id call before was
  · subst begins
    exact of_decide_eq_true plain

/-- A write downloads the base; a truncate comes between its seek and its
transfer, and a read waits for it. -/
def truncateBetween : List SharedLabel :=
  .begin 0 (.write [9, 8] 1) :: .begin 1 (.read 3 0) :: .begin 2 (.truncate 2) ::
    (List.replicate 7 (.advance 0 false) ++ [.advance 2 false, .advance 2 false, .advance 0 false,
      .advance 2 false, .advance 2 false, .advance 1 false, .advance 0 false, .advance 1 false,
      .advance 0 false] ++ List.replicate 5 (.advance 1 false))

theorem inOrder_of_reaches_truncateBetween :
    ∃ finish, Transition.run (SharedHandle.step false freshSession) (.idle freshSession.handle)
        truncateBetween = some finish ∧
      finish.calls 1 = some (.read 3 0, .finished (some [[1, 9, 8]])) ∧
      finish.calls 2 = some (.truncate 2, .finished (some [])) ∧
      finish.handle.temp.bytes = [1, 9, 8] ∧ ∃ order, InOrder freshSession finish order := by
  obtain ⟨finish, executed⟩ := Option.isSome_iff_exists.mp
    (show (Transition.runAllowed (SharedHandle.step false freshSession) (PlainlyApart false · ·)
      (.idle freshSession.handle) truncateBetween).isSome from rfl)
  have apart : OnlyThree finish ∧ Reaches (SharedHandle.step false freshSession)
      (KeepApart false) (.idle freshSession.handle) finish := by
    refine Reaches.viewed id ?_ ?_ ?_ (Reaches.of_runAllowed executed)
    · exact fun only plain stepped => OnlyThree.step only plain stepped
    · exact fun only plain stepped => .inr ⟨_, OnlyThree.keepApart only plain, stepped⟩
    · exact fun _ _ _ is => nomatch is
  exact ⟨finish, (Transition.run_of_runAllowed executed).2,
    Transition.look_of_run executed (·.calls 1) rfl,
    Transition.look_of_run executed (·.calls 2) rfl,
    Transition.look_of_run executed (·.handle.temp.bytes) rfl,
    inOrder_of_reaches (fun isLocal => absurd isLocal Bool.false_ne_true) apart.2⟩

end Samples

end FuseDrive.Fuse
