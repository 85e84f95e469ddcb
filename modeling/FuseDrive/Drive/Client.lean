import FuseDrive.Dict
import FuseDrive.Retry

/-!
# Requests to the Drive API

`drive_client` sends every request through `_execute_with_retry`, which
repeats it while `_is_retryable` says so.  `delete_file` turns the `HttpError`
that comes out into exceptions of the operating system.
-/

namespace FuseDrive.Drive

/-- A value as `json.loads` builds it. -/
inductive Json where
  | null
  | boolean (value : Bool)
  /-- A number, whichever: nothing looks at it. -/
  | number
  | string (text : Str)
  | array (elements : List Json)
  /-- The members of an object, whose keys are distinct. -/
  | object (members : List (Str × Json))

/-- An `HttpError`; the body is `none` where decoding or parsing it raises
`ValueError`. -/
structure HttpError where
  status : Nat
  body : Option Json

/-- What the API answers to one request. -/
abbrev ApiOutcome := Except HttpError Unit

inductive Exception where
  | httpError (error : HttpError)
  /-- tenacity's `RetryError`. -/
  | retryError
  | attributeError
  | typeError
  | permissionError
  | fileNotFoundError
  | osError

/-! ## `_is_retryable` -/

namespace Json

/-- `value.get(key, default)`, a method of dictionaries only. -/
def get (value : Json) (key : Str) (default : Json) : Except Exception Json :=
  match value with
  | .object members => .ok ((members.lookup key).getD default)
  | _ => .error .attributeError

/-- What a `for` loop over the value takes from it. -/
def iterate : Json → Except Exception (List Json)
  | .array elements => .ok elements
  | .object members => .ok (members.map fun entry => .string entry.1)
  | .string text => .ok (text.map fun character => .string [character])
  | .null => .error .typeError
  | .boolean _ => .error .typeError
  | .number => .error .typeError

/-- `value == text`. -/
def equals (value : Json) (text : Str) : Bool :=
  match value with
  | .string found => found = text
  | _ => false

end Json

/-- What `_is_retryable` returns, and whether it trips the quota circuit
breaker. -/
structure Verdict where
  retryable : Bool
  trips : Bool
deriving DecidableEq

/-- The loop over the errors of a body. -/
def judgeErrors : List Json → Except Exception Verdict
  | [] => .ok ⟨true, false⟩
  | err :: errors => do
      let reason ← err.get "reason".toList .null
      if reason.equals "storageQuotaExceeded".toList then .ok ⟨false, true⟩
      else if reason.equals "insufficientFilePermissions".toList then .ok ⟨false, false⟩
      else judgeErrors errors

/-- `_is_retryable` on an `HttpError`. -/
def isRetryable (exception : HttpError) : Except Exception Verdict :=
  if exception.status = 404 then .ok ⟨false, false⟩
  else if exception.status = 403 then
    match exception.body with
    | none => .ok ⟨true, false⟩
    | some content => do
        let error ← content.get "error".toList (.object [])
        let errors ← error.get "errors".toList (.array [])
        judgeErrors (← errors.iterate)
  else .ok ⟨true, false⟩

/-! ## `_execute_with_retry` and `delete_file` -/

def retryVerdict (exception : HttpError) : Except Exception Bool :=
  (isRetryable exception).map Verdict.retryable

/-- `stop_after_attempt(5)`: four further attempts. -/
def furtherAttempts : Nat := 4

/-- tenacity raises the error of an attempt that is not retried as it is. -/
def executeWithRetry (outcomes : Nat → ApiOutcome) : Except Exception Unit :=
  match Retry.retrying retryVerdict furtherAttempts outcomes with
  | .returned _ => .ok ()
  | .reraised error => .error (.httpError error)
  | .exhausted => .error .retryError
  | .predicateRaised raised => .error raised

def deleteFile (outcomes : Nat → ApiOutcome) : Except Exception Unit :=
  match executeWithRetry outcomes with
  | .error (.httpError error) =>
      if error.status = 403 then .error .permissionError
      else if error.status = 404 then .error .fileNotFoundError
      else .error .osError
  | result => result

/-- The call returns or raises an exception of the operating system. -/
def Translated : Except Exception Unit → Prop
  | .ok _ => True
  | .error .permissionError => True
  | .error .fileNotFoundError => True
  | .error .osError => True
  | .error _ => False

/-- One of the five attempts succeeds or fails with an error that is not
retried, and the attempts before it are retried. -/
def Settled (outcomes : Nat → ApiOutcome) : Prop :=
  Retry.Settles retryVerdict outcomes furtherAttempts 0

/-! ## What the predicate raises -/

/-- What `_is_retryable` raises is not translated by anyone. -/
def Exception.FromPredicate : Exception → Prop
  | .attributeError => True
  | .typeError => True
  | _ => False

/-- The computation raises nothing but what comes from the predicate. -/
def RaisesFromPredicate {α : Type} (computed : Except Exception α) : Prop :=
  ∀ raised, computed = .error raised → raised.FromPredicate

theorem RaisesFromPredicate.bind {α β : Type} {computed : Except Exception α}
    {next : α → Except Exception β} (first : RaisesFromPredicate computed)
    (rest : ∀ value, RaisesFromPredicate (next value)) :
    RaisesFromPredicate (computed >>= next) := by
  cases computed with
  | ok value => exact rest value
  | error error =>
      intro raised same
      cases same
      exact first error rfl

theorem Json.get_raises (value : Json) (key : Str) (default : Json) :
    RaisesFromPredicate (value.get key default) := by
  intro raised same
  cases value <;> cases same <;> trivial

theorem Json.iterate_raises (value : Json) : RaisesFromPredicate value.iterate := by
  intro raised same
  cases value <;> cases same <;> trivial

theorem judgeErrors_raises (errors : List Json) : RaisesFromPredicate (judgeErrors errors) := by
  induction errors with
  | nil => exact nofun
  | cons err errors induction =>
      apply (err.get_raises _ _).bind
      intro reason
      split
      · exact nofun
      · split
        · exact nofun
        · exact induction

theorem isRetryable_raises (exception : HttpError) :
    RaisesFromPredicate (isRetryable exception) := by
  unfold isRetryable
  split
  · exact nofun
  · split
    · split
      · exact nofun
      · rename_i content _
        apply (content.get_raises _ _).bind
        intro error
        apply (error.get_raises _ _).bind
        intro errors
        apply errors.iterate_raises.bind
        exact judgeErrors_raises
    · exact nofun

/-! ## What the predicate refuses to retry -/

/-- The reasons that no retry can remedy. -/
def isFinalReason (reason : Json) : Bool :=
  reason.equals "storageQuotaExceeded".toList ||
    reason.equals "insufficientFilePermissions".toList

/-- The loop comes to an entry with one of the reasons: every entry up to it
can be asked for its reason. -/
inductive ReachesReason : List Json → Prop where
  | here {err reason : Json} {errors : List Json}
      (asked : err.get "reason".toList .null = .ok reason)
      (isFinal : isFinalReason reason = true) : ReachesReason (err :: errors)
  | there {err reason : Json} {errors : List Json}
      (asked : err.get "reason".toList .null = .ok reason)
      (rest : ReachesReason errors) : ReachesReason (err :: errors)

/-- The list that the loop runs over. -/
def Json.errorEntries (content : Json) : Except Exception (List Json) := do
  let error ← content.get "error".toList (.object [])
  let errors ← error.get "errors".toList (.array [])
  errors.iterate

theorem judgeErrors_of_raised {err : Json} {raised : Exception} (errors : List Json)
    (asked : err.get "reason".toList .null = .error raised) :
    judgeErrors (err :: errors) = .error raised := by
  rw [judgeErrors, asked]
  rfl

theorem judgeErrors_of_asked {err reason : Json} (errors : List Json)
    (asked : err.get "reason".toList .null = .ok reason) :
    (judgeErrors (err :: errors)).map Verdict.retryable =
      if isFinalReason reason then .ok false
      else (judgeErrors errors).map Verdict.retryable := by
  have unfolded : judgeErrors (err :: errors) =
      if reason.equals "storageQuotaExceeded".toList then .ok ⟨false, true⟩
      else if reason.equals "insufficientFilePermissions".toList then .ok ⟨false, false⟩
      else judgeErrors errors := by
    rw [judgeErrors, asked]
    rfl
  rw [unfolded, isFinalReason]
  cases reason.equals "storageQuotaExceeded".toList with
  | true => rfl
  | false => cases reason.equals "insufficientFilePermissions".toList <;> rfl

theorem judgeErrors_refuses_iff (errors : List Json) :
    (judgeErrors errors).map Verdict.retryable = .ok false ↔ ReachesReason errors := by
  induction errors with
  | nil => exact iff_of_false nofun nofun
  | cons err errors induction =>
      cases asked : err.get "reason".toList .null with
      | error raised =>
          rw [judgeErrors_of_raised errors asked]
          refine iff_of_false nofun fun reaches => ?_
          cases reaches with
          | here isReason _ | there isReason _ =>
              rw [asked] at isReason
              cases isReason
      | ok reason =>
          rw [judgeErrors_of_asked errors asked]
          cases isFinal : isFinalReason reason with
          | true => exact iff_of_true rfl (.here asked isFinal)
          | false =>
              rw [if_neg Bool.false_ne_true, induction]
              constructor
              · exact .there asked
              · intro reaches
                cases reaches with
                | there _ rest => exact rest
                | here isReason found =>
                    rw [asked] at isReason
                    cases isReason
                    rw [isFinal] at found
                    cases found

/-- An error is not retried if the node is not there, or if the body of a 403
comes to one of the reasons. -/
theorem retryVerdict_eq_false_iff (exception : HttpError) :
    retryVerdict exception = .ok false ↔
      exception.status = 404 ∨ exception.status = 403 ∧
        ∃ content errors, exception.body = some content ∧
          content.errorEntries = .ok errors ∧ ReachesReason errors := by
  unfold retryVerdict isRetryable
  split
  · rename_i missing
    exact iff_of_true rfl (Or.inl missing)
  · rename_i notMissing
    split
    · rename_i forbidden
      rw [or_iff_right notMissing, and_iff_right forbidden]
      cases exception.body with
      | none => exact iff_of_false nofun (by simp)
      | some content =>
          have loop : (do
              let error ← content.get "error".toList (.object [])
              let errors ← error.get "errors".toList (.array [])
              judgeErrors (← errors.iterate)) = content.errorEntries >>= judgeErrors := by
            simp only [Json.errorEntries, bind_assoc]
          simp only [loop, Option.some.injEq, exists_and_left, exists_eq_left']
          cases content.errorEntries with
          | error raised => exact iff_of_false nofun (by simp)
          | ok errors =>
              have judged : (Except.ok errors >>= judgeErrors).map Verdict.retryable = .ok false ↔
                  ReachesReason errors := judgeErrors_refuses_iff errors
              rw [judged]
              simp
    · rename_i notForbidden
      exact iff_of_false nofun (by simp [notMissing, notForbidden])

/-! ## When `delete_file` translates its errors -/

theorem Exception.FromPredicate.not_translated {raised : Exception}
    (fromPredicate : raised.FromPredicate) : ¬ Translated (.error raised) := by
  cases raised with
  | attributeError => exact id
  | typeError => exact id
  | _ => cases fromPredicate

theorem deleteFile_of_fromPredicate {outcomes : Nat → ApiOutcome} {raised : Exception}
    (fromPredicate : raised.FromPredicate)
    (executed : executeWithRetry outcomes = .error raised) :
    deleteFile outcomes = .error raised := by
  unfold deleteFile
  rw [executed]
  cases raised with
  | httpError error => cases fromPredicate
  | _ => rfl

/-- The errors are translated exactly if an attempt settles the request. -/
theorem deleteFile_translated_iff (outcomes : Nat → ApiOutcome) :
    Translated (deleteFile outcomes) ↔ Settled outcomes := by
  rw [Settled, ← Retry.attempts_isOutcome_iff, ← Retry.retrying]
  match ending : Retry.retrying retryVerdict furtherAttempts outcomes with
  | .returned value =>
      have executed : executeWithRetry outcomes = .ok () := by rw [executeWithRetry, ending]
      refine iff_of_true ?_ trivial
      rw [deleteFile, executed]
      trivial
  | .reraised error =>
      have executed : executeWithRetry outcomes = .error (.httpError error) := by
        rw [executeWithRetry, ending]
      refine iff_of_true ?_ trivial
      rw [deleteFile, executed]
      dsimp only
      split
      · trivial
      · split <;> trivial
  | .exhausted =>
      have executed : executeWithRetry outcomes = .error .retryError := by
        rw [executeWithRetry, ending]
      refine iff_of_false ?_ id
      rw [deleteFile, executed]
      exact id
  | .predicateRaised raised =>
      have executed : executeWithRetry outcomes = .error raised := by
        rw [executeWithRetry, ending]
      obtain ⟨error, judged⟩ := Retry.judged_of_raised ending
      have fromPredicate : raised.FromPredicate := by
        rw [retryVerdict] at judged
        match verdict : isRetryable error with
        | .ok value =>
            rw [verdict] at judged
            cases judged
        | .error other =>
            rw [verdict] at judged
            cases judged
            exact isRetryable_raises error _ verdict
      refine iff_of_false ?_ id
      rw [deleteFile_of_fromPredicate fromPredicate executed]
      exact fromPredicate.not_translated

example : deleteFile (fun _ => .error ⟨403, some (.object [("error".toList, .object
    [("errors".toList, .array [.object [("reason".toList,
      .string "insufficientFilePermissions".toList)]])])])⟩) = .error .permissionError := rfl

end FuseDrive.Drive
