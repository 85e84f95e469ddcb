import FuseDrive.Drive.Client
import FuseDrive.Fuse.PathOperations

/-!
# The errors of `unlink` and `rmdir`

Once the path is resolved, both methods raise what the `except` clauses make
of the exceptions of `delete_file`.  These know the exceptions of the
operating system only: what tenacity or the retry predicate raises passes
through.
-/

namespace FuseDrive.Fuse

open FuseDrive.Drive
open Program (play)

/-- The `except` clauses of `unlink` and `rmdir`. -/
def errnoOf : Exception → Errno
  | .permissionError => .eacces
  | .fileNotFoundError => .enoent
  | .osError => .eio
  | .httpError _ => .exception
  | .retryError => .exception
  | .attributeError => .exception
  | .typeError => .exception

/-- The answer of the storage to `unlink` and `rmdir`. -/
def deletion (outcomes : Nat → ApiOutcome) : Option Errno :=
  match deleteFile outcomes with
  | .ok _ => none
  | .error raised => some (errnoOf raised)

/-- The call succeeds or raises `FuseOSError` with one of three numbers. -/
def Numbered : Except Errno Unit → Prop
  | .ok _ => True
  | .error .eacces => True
  | .error .enoent => True
  | .error .eio => True
  | .error _ => False

/-- The result of the two methods after the request. -/
def resultOf : Option Errno → Except Errno Unit
  | none => .ok ()
  | some errno => .error errno

theorem numbered_deletion_iff (outcomes : Nat → ApiOutcome) :
    Numbered (resultOf (deletion outcomes)) ↔ Settled outcomes := by
  rw [← deleteFile_translated_iff, deletion]
  match deleteFile outcomes with
  | .ok _ => exact Iff.rfl
  | .error raised => cases raised <;> exact Iff.rfl

section Methods

variable {σ : Type} {serve : σ → (request : Request) → request.Answer × σ}
  {rootId fileId : NodeId} {path : Str} {world resolved : σ} {outcomes : Nat → ApiOutcome}

theorem play_deleteNode
    (isResolved : play serve world (resolvePath rootId path) = (.ok (some fileId), resolved))
    (answered : (serve resolved (.deleteFile fileId)).1 = deletion outcomes) :
    (play serve world (deleteNode rootId path)).1 = resultOf (deletion outcomes) := by
  rw [deleteNode, Program.play_bind, isResolved]
  dsimp only
  rw [Program.play_perform, answered]
  cases deletion outcomes with
  | none => rfl
  | some errno => rfl

/-- Behind the two checks `unlink` is the same as `rmdir`. -/
theorem play_unlink {asked within : σ}
    (isRemote : serve world (.isLocalOnly path) = (false, asked))
    (quotaLeft : serve asked .isQuotaExceeded = (false, within)) :
    play serve world (unlink rootId path) = play serve within (deleteNode rootId path) := by
  rw [unlink, Program.play_perform, isRemote]
  dsimp only
  rw [if_neg Bool.false_ne_true, Program.play_perform, quotaLeft]
  rfl

end Methods

/-- `delete_file` translates its errors, and so do `rmdir` and `unlink` once
the path is resolved, whatever the mount answers to their other requests. -/
structure DeleteErrorsTranslated (outcomes : Nat → ApiOutcome) : Prop where
  client : Translated (deleteFile outcomes)
  rmdir : ∀ {σ : Type} (serve : σ → (request : Request) → request.Answer × σ)
    (rootId fileId : NodeId) (path : Str) (world resolved : σ),
    play serve world (resolvePath rootId path) = (.ok (some fileId), resolved) →
    (serve resolved (.deleteFile fileId)).1 = deletion outcomes →
    Numbered (play serve world (rmdir rootId path)).1
  unlink : ∀ {σ : Type} (serve : σ → (request : Request) → request.Answer × σ)
    (rootId fileId : NodeId) (path : Str) (world asked within resolved : σ),
    serve world (.isLocalOnly path) = (false, asked) →
    serve asked .isQuotaExceeded = (false, within) →
    play serve within (resolvePath rootId path) = (.ok (some fileId), resolved) →
    (serve resolved (.deleteFile fileId)).1 = deletion outcomes →
    Numbered (play serve world (unlink rootId path)).1

/-- The errors of a deletion are translated exactly if one of the five
attempts succeeds, or fails with an error the predicate takes for final. -/
theorem deleteErrorsTranslated_iff (outcomes : Nat → ApiOutcome) :
    DeleteErrorsTranslated outcomes ↔ Settled outcomes := by
  constructor
  · intro translated
    exact (deleteFile_translated_iff outcomes).mp translated.client
  · intro settled
    have numbered := (numbered_deletion_iff outcomes).mpr settled
    constructor
    · exact (deleteFile_translated_iff outcomes).mpr settled
    · intro σ serve rootId fileId path world resolved isResolved answered
      rw [rmdir, play_deleteNode isResolved answered]
      exact numbered
    · intro σ serve rootId fileId path world asked within resolved isRemote quotaLeft
        isResolved answered
      rw [play_unlink isRemote quotaLeft, play_deleteNode isResolved answered]
      exact numbered

/-- Five answers 503 raise `RetryError`, and a 403 whose body is a JSON list
raises `AttributeError` in the predicate. -/
theorem deleteErrors_pass_through :
    ¬ DeleteErrorsTranslated (fun _ => .error ⟨503, none⟩) ∧
      ¬ DeleteErrorsTranslated (fun _ => .error ⟨403, some (.array [])⟩) :=
  ⟨fun translated => translated.client, fun translated => translated.client⟩

end FuseDrive.Fuse
