import FuseDrive.Cache.RangeRead
import FuseDrive.Retry

/-!
# The request for a chunk

`download_file_chunk_from_api` asks for a range of bytes over HTTP.  The request
is repeated while it raises, but its first response is taken as it is: the body
is the chunk with status 206, where it is the range that was asked for, and
with status 200 as well, where it is the whole file.
-/

namespace FuseDrive.Cache

/-! ## The client -/

structure Response where
  status : Nat
  content : Bytes

inductive FetchError where
  | retryError
  | runtimeError (response : Response)

/-- `@retry` without a predicate repeats whatever was raised. -/
def retriesAll {ε : Type} (_ : ε) : Except Empty Bool := .ok true

/-- `stop_after_attempt(5)` -/
def furtherFetches : Nat := 4

def downloadFileChunkFromApi {ε : Type} (outcomes : Nat → Except ε Response) :
    Except FetchError Bytes :=
  match Retry.retrying retriesAll furtherFetches outcomes with
  | .returned response =>
      if response.status = 200 ∨ response.status = 206 then .ok response.content
      else .error (.runtimeError response)
  | .reraised _ | .exhausted => .error .retryError
  | .predicateRaised raised => nomatch raised

/-- A server may answer the request for a range with the range, or with the
whole file. -/
structure ServesRange {ε : Type} (content : Bytes) (first last : Nat)
    (outcomes : Nat → Except ε Response) : Prop where
  ranged : ∀ {attempt response}, outcomes attempt = .ok response → response.status = 206 →
    response.content = slice content first (last + 1 - first)
  whole : ∀ {attempt response}, outcomes attempt = .ok response → response.status = 200 →
    response.content = content

/-- The first response decides, whatever its status. -/
theorem downloadFileChunkFromApi_eq {ε : Type} (outcomes : Nat → Except ε Response) :
    downloadFileChunkFromApi outcomes =
      match Retry.firstReturned outcomes furtherFetches 0 with
      | some response =>
          if response.status = 200 ∨ response.status = 206 then .ok response.content
          else .error (.runtimeError response)
      | none => .error .retryError := by
  have always : ∀ error : ε, retriesAll error = .ok true := fun _ => rfl
  rw [downloadFileChunkFromApi, Retry.retrying, Retry.attempts_of_always always]
  cases Retry.firstReturned outcomes furtherFetches 0 <;> rfl

/-! ## The step of a download -/

section Download

variable {ε : Type} {config : Config} {state : State UInt8} {task : Task UInt8}
  {outcomes : Nat → Except ε Response}

theorem driveChunk_eq_drive_iff (isTotal : task.total = (state.drive task.fileId).length)
    (inside : config.chunkStart task.chunk < task.total) :
    state.drive task.fileId = state.driveChunk config task ↔ task.total ≤ config.chunkSize := by
  obtain ⟨ordered, bounded, short⟩ := chunkEnd_bounds config inside
  constructor
  · intro same
    have longest : (state.driveChunk config task).length ≤
        config.chunkEnd task.chunk task.total + 1 - config.chunkStart task.chunk :=
      List.length_take_le _ _
    rw [← same, ← isTotal] at longest
    omega
  · intro fits
    have first : config.chunkStart task.chunk = 0 := by
      unfold Config.chunkStart at inside ⊢
      have zero : task.chunk < 1 :=
        Nat.lt_of_mul_lt_mul_right (by omega : task.chunk * config.chunkSize < 1 * config.chunkSize)
      rw [Nat.lt_one_iff.mp zero, Nat.zero_mul]
    have last : config.chunkEnd task.chunk task.total + 1 = task.total := by
      unfold Config.chunkEnd
      omega
    rw [State.driveChunk, first, last, isTotal, Nat.sub_zero, slice_length_self]

/-- The request is repeated while it raises and its first response decides.  It
is the step of the download that asks the storage: what raises fails it, and a
body that comes back is the chunk it fetches if the status is 206 or the file
fits into one chunk, and only then. -/
theorem chunkRequest_refines {weather : Weather}
    (serves : ServesRange (state.drive task.fileId) (config.chunkStart task.chunk)
      (config.chunkEnd task.chunk task.total) outcomes)
    (isTotal : task.total = (state.drive task.fileId).length)
    (inside : config.chunkStart task.chunk < task.total) :
    (downloadFileChunkFromApi outcomes =
      match Retry.firstReturned outcomes furtherFetches 0 with
      | some response =>
          if response.status = 200 ∨ response.status = 206 then .ok response.content
          else .error (.runtimeError response)
      | none => .error .retryError) ∧
    match downloadFileChunkFromApi outcomes with
    | .error _ =>
        downloadStep config { weather with storageFails := true } state task .requested =
          some (state, .leaving none)
    | .ok data =>
        downloadStep config { weather with storageFails := false } state task .requested =
            some (state, .fetched data) ↔
          (∃ response, Retry.firstReturned outcomes furtherFetches 0 = some response ∧
            response.status = 206) ∨ task.total ≤ config.chunkSize := by
  refine ⟨downloadFileChunkFromApi_eq outcomes, ?_⟩
  rw [downloadFileChunkFromApi_eq]
  cases isFirst : Retry.firstReturned outcomes furtherFetches 0 with
  | none => rfl
  | some response =>
      obtain ⟨attempt, answered⟩ := Retry.exists_of_firstReturned isFirst
      by_cases accepted : response.status = 200 ∨ response.status = 206
      · have fetched : downloadStep config { weather with storageFails := false } state task
            .requested = some (state, .fetched (state.driveChunk config task)) := rfl
        simp only [if_pos accepted, fetched, Option.some.injEq, Prod.mk.injEq, true_and,
          TaskPoint.fetched.injEq, exists_eq_left']
        rcases accepted with whole | ranged
        · rw [serves.whole answered whole, eq_comm, driveChunk_eq_drive_iff isTotal inside]
          simp [whole]
        · exact iff_of_true (serves.ranged answered ranged).symm (Or.inl ranged)
      · simp only [if_neg accepted]
        rfl

end Download

/-- A server that ignores ranges, after one timeout. -/
def rangeIgnored : Nat → Except Unit Response
  | 0 => .error ()
  | _ + 1 => .ok ⟨200, [1, 2, 3]⟩

/-- The second chunk of a file, which is not what comes back. -/
def secondChunk : Task UInt8 := ⟨['f'], 1, 3, false, .requested, 0⟩

theorem chunkRequest_refines_rangeIgnored :
    downloadFileChunkFromApi rangeIgnored = .ok [1, 2, 3] ∧
      Retry.firstReturned rangeIgnored furtherFetches 0 = some ⟨200, [1, 2, 3]⟩ ∧
      match downloadFileChunkFromApi rangeIgnored with
      | .error _ =>
          downloadStep ⟨2, by decide, false⟩ { fairWeather with storageFails := true }
            (State.empty 1 [1, 2, 3]) secondChunk .requested =
              some (State.empty 1 [1, 2, 3], .leaving none)
      | .ok data =>
          downloadStep ⟨2, by decide, false⟩ { fairWeather with storageFails := false }
              (State.empty 1 [1, 2, 3]) secondChunk .requested =
                some (State.empty 1 [1, 2, 3], .fetched data) ↔
            (∃ response, Retry.firstReturned rangeIgnored furtherFetches 0 = some response ∧
              response.status = 206) ∨ 3 ≤ 2 := by
  refine ⟨rfl, rfl, (@chunkRequest_refines Unit ⟨2, by decide, false⟩ (State.empty 1 [1, 2, 3])
    secondChunk rangeIgnored fairWeather ⟨?_, ?_⟩ rfl (by decide)).2⟩
  · intro attempt response answered status
    cases attempt <;> cases answered
    cases status
  · intro attempt response answered status
    cases attempt <;> cases answered
    rfl

end FuseDrive.Cache
