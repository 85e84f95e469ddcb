import FuseDrive.Exchange
import FuseDrive.Fuse.DeleteErrors
import FuseDrive.Fuse.LoadedFlagRuns

/-!
# Deleting and creating over a network that loses answers

`_execute_with_retry` repeats a request that Drive may have carried out already.
A deletion that is repeated finds no file, and `unlink` and `rmdir` report that
there was none.  A folder that is created again is there twice.
-/

namespace FuseDrive.Fuse

open FuseDrive.Drive FuseDrive.Retry
open Program (play)

/-- Where no answer comes back, a server on the way reports an error. -/
def Unreliable (transits : Nat → Transit HttpError) : Prop :=
  ∀ attempt error, (transits attempt).error? = some error → 500 ≤ error.status

theorem Unreliable.transient {transits : Nat → Transit HttpError}
    (unreliable : Unreliable transits) : Transit.Transient retryVerdict transits := by
  intro attempt error lost
  have server := unreliable attempt error lost
  rw [retryVerdict, isRetryable, if_neg (by omega), if_neg (by omega)]
  rfl

/-- How many attempts are made. -/
def attemptsMade (transits : Nat → Transit HttpError) : Nat :=
  match Transit.firstAnswered transits furtherAttempts 0 with
  | some first => first + 1
  | none => furtherAttempts + 1

section Exchanges

variable {δ α : Type} {exchange : Exchange δ HttpError α} {start : δ}

theorem after_eq (unreliable : Unreliable exchange.transits)
    (final : ∀ state, Final retryVerdict (exchange.serve state).1) :
    exchange.after start retryVerdict furtherAttempts =
      exchange.effect^[Transit.arrivals exchange.transits (attemptsMade exchange.transits)]
        start := by
  have told := congrArg Prod.snd
    (Exchange.attempts_eq start unreliable.transient final furtherAttempts 0)
  rw [Exchange.after, Exchange.stateBefore_eq, attemptsMade]
  cases answered : Transit.firstAnswered exchange.transits furtherAttempts 0 <;>
    rw [answered] at told <;> exact congrArg (fun count => _^[Transit.arrivals _ count] _) told

theorem retrying_eq (unreliable : Unreliable exchange.transits)
    (final : ∀ state, Final retryVerdict (exchange.serve state).1) :
    retrying retryVerdict furtherAttempts (exchange.outcome start) =
      match Transit.firstAnswered exchange.transits furtherAttempts 0 with
      | some first => .of (exchange.serve (exchange.stateBefore start first)).1
      | none => .exhausted := by
  have told := congrArg Prod.fst
    (Exchange.attempts_eq start unreliable.transient final furtherAttempts 0)
  rw [retrying]
  cases answered : Transit.firstAnswered exchange.transits furtherAttempts 0 <;>
    rw [answered] at told <;> exact told

end Exchanges

/-! ## Deleting a file -/

/-- Drive deletes a file that is there, and answers 404 where there is none. -/
structure Deletes {δ : Type} (serve : δ → ApiOutcome × δ) (holds : δ → Prop) : Prop where
  deleted : ∀ {state}, holds state → (serve state).1 = .ok () ∧ ¬ holds (serve state).2
  missing : ∀ {state}, ¬ holds state →
    ∃ error, serve state = (.error error, state) ∧ error.status = 404

/-- What `delete_file` leads to for a file that is there. -/
def deletionTold (transits : Nat → Transit HttpError) : Option Errno :=
  match Transit.firstAnswered transits furtherAttempts 0 with
  | some first => if Transit.arrivals transits first = 0 then none else some .enoent
  | none => some .exception

section Deletion

variable {δ : Type} {exchange : Exchange δ HttpError Unit} {holds : δ → Prop} {start : δ}

theorem Deletes.final (deletes : Deletes exchange.serve holds) (state : δ) :
    Final retryVerdict (exchange.serve state).1 := by
  intro error failed
  by_cases isThere : holds state
  · rw [(deletes.deleted isThere).1] at failed
    cases failed
  · obtain ⟨missing, served, status⟩ := deletes.missing isThere
    rw [served] at failed
    cases failed
    exact (retryVerdict_eq_false_iff _).mpr (Or.inl status)

theorem Deletes.holds_iterate (deletes : Deletes exchange.serve holds) (isThere : holds start)
    (arrived : Nat) : holds (exchange.effect^[arrived] start) ↔ arrived = 0 := by
  induction arrived with
  | zero => exact iff_of_true isThere rfl
  | succ arrived induction =>
      refine iff_of_false ?_ (Nat.succ_ne_zero arrived)
      rw [Function.iterate_succ_apply']
      by_cases still : holds (exchange.effect^[arrived] start)
      · exact (deletes.deleted still).2
      · obtain ⟨missing, served, -⟩ := deletes.missing still
        rw [Exchange.effect, served]
        exact still

theorem deletion_eq (deletes : Deletes exchange.serve holds)
    (unreliable : Unreliable exchange.transits) (isThere : holds start) :
    deletion (exchange.outcome start) = deletionTold exchange.transits := by
  rw [deletion, deleteFile, executeWithRetry, retrying_eq unreliable deletes.final, deletionTold]
  cases Transit.firstAnswered exchange.transits furtherAttempts 0 with
  | none => rfl
  | some first =>
      have found := deletes.holds_iterate isThere (Transit.arrivals exchange.transits first)
      rw [← Exchange.stateBefore_eq] at found
      dsimp only
      by_cases nothing : Transit.arrivals exchange.transits first = 0
      · rw [if_pos nothing, (deletes.deleted (found.mpr nothing)).1]
        rfl
      · obtain ⟨missing, served, status⟩ := deletes.missing (mt found.mp nothing)
        rw [if_neg nothing, served]
        simp [Ending.of, status, errnoOf]

theorem holds_after_iff (deletes : Deletes exchange.serve holds)
    (unreliable : Unreliable exchange.transits) (isThere : holds start) :
    holds (exchange.after start retryVerdict furtherAttempts) ↔
      Transit.arrivals exchange.transits (attemptsMade exchange.transits) = 0 := by
  rw [after_eq unreliable deletes.final]
  exact deletes.holds_iterate isThere _

/-- A method says what the deletion is told, and unless that is success it
leaves the mount as the request left it. -/
structure SaysTold {σ : Type} (serve : σ → (request : Request) → request.Answer × σ)
    (transits : Nat → Transit HttpError) (method : Op Unit) (world requested : σ) :
    Prop where
  result : (play serve world method).1 = resultOf (deletionTold transits)
  kept : deletionTold transits ≠ none → (play serve world method).2 = requested

theorem play_deleteNode_failed {σ : Type}
    {serve : σ → (request : Request) → request.Answer × σ} {rootId fileId : NodeId} {path : Str}
    {world resolved : σ} {errno : Errno}
    (isResolved : play serve world (resolvePath rootId path) = (.ok (some fileId), resolved))
    (failed : (serve resolved (.deleteFile fileId)).1 = some errno) :
    (play serve world (deleteNode rootId path)).2 =
      (serve resolved (.deleteFile fileId)).2 := by
  rw [deleteNode, Program.play_bind, isResolved]
  dsimp only
  rw [Program.play_perform, failed]
  rfl

/-- What `rmdir` and `unlink` say of a file that is there, and what becomes of
it. -/
structure DeletesOverLosses {δ : Type} (exchange : Exchange δ HttpError Unit)
    (holds : δ → Prop) (start : δ) : Prop where
  gone : holds (exchange.after start retryVerdict furtherAttempts) ↔
    Transit.arrivals exchange.transits (attemptsMade exchange.transits) = 0
  rmdir : ∀ {σ : Type} (serve : σ → (request : Request) → request.Answer × σ)
    (rootId fileId : NodeId) (path : Str) (world resolved : σ),
    play serve world (resolvePath rootId path) = (.ok (some fileId), resolved) →
    (serve resolved (.deleteFile fileId)).1 = deletion (exchange.outcome start) →
    SaysTold serve exchange.transits (rmdir rootId path) world
      (serve resolved (.deleteFile fileId)).2
  unlink : ∀ {σ : Type} (serve : σ → (request : Request) → request.Answer × σ)
    (rootId fileId : NodeId) (path : Str) (world asked within resolved : σ),
    serve world (.isLocalOnly path) = (false, asked) →
    serve asked .isQuotaExceeded = (false, within) →
    play serve within (resolvePath rootId path) = (.ok (some fileId), resolved) →
    (serve resolved (.deleteFile fileId)).1 = deletion (exchange.outcome start) →
    SaysTold serve exchange.transits (unlink rootId path) world
      (serve resolved (.deleteFile fileId)).2

/-- With 0 the file is deleted, but so it is with `ENOENT`, which says that an
answer was lost before, and then the path stays in the cache.  An exception
leaves open what happened. -/
theorem deleteNode_lost_answers (deletes : Deletes exchange.serve holds)
    (unreliable : Unreliable exchange.transits) (isThere : holds start) :
    DeletesOverLosses exchange holds start := by
  have told := deletion_eq deletes unreliable isThere
  have method {σ : Type} (serve : σ → (request : Request) → request.Answer × σ)
      (rootId fileId : NodeId) (path : Str) (world resolved : σ)
      (isResolved : play serve world (resolvePath rootId path) = (.ok (some fileId), resolved))
      (answered : (serve resolved (.deleteFile fileId)).1 = deletion (exchange.outcome start)) :
      SaysTold serve exchange.transits (deleteNode rootId path) world
        (serve resolved (.deleteFile fileId)).2 := by
    constructor
    · rw [play_deleteNode isResolved answered, told]
    · intro failed
      obtain ⟨errno, same⟩ := Option.ne_none_iff_exists'.mp failed
      exact play_deleteNode_failed isResolved (answered.trans (told.trans same))
  constructor
  · exact holds_after_iff deletes unreliable isThere
  · exact method
  · intro σ serve rootId fileId path world asked within resolved isRemote quotaLeft isResolved
      answered
    have behind := method serve rootId fileId path within resolved isResolved answered
    constructor
    · rw [play_unlink isRemote quotaLeft]
      exact behind.result
    · rw [play_unlink isRemote quotaLeft]
      exact behind.kept

end Deletion

/-- The first request is carried out and answered with 503, the next is
answered. -/
def firstAnswerLost : Nat → Transit HttpError
  | 0 => .unanswered ⟨503, none⟩
  | _ + 1 => .answered

theorem unreliable_firstAnswerLost : Unreliable firstAnswerLost := by
  intro attempt error lost
  cases attempt with
  | zero =>
      cases lost
      decide
  | succ attempt => cases lost

/-- A file that is there as long as the state is `true`. -/
def oneFile : Exchange Bool HttpError Unit where
  serve isThere := if isThere then (.ok (), false) else (.error ⟨404, none⟩, false)
  transits := firstAnswerLost

theorem deletes_oneFile : Deletes oneFile.serve (· = true) where
  deleted isThere := by
    subst isThere
    exact ⟨rfl, nofun⟩
  missing isGone := by
    rw [Bool.not_eq_true] at isGone
    subst isGone
    exact ⟨⟨404, none⟩, rfl, rfl⟩

/-- A mount that knows one file. -/
def knowingOne : World :=
  { World.start defaultSettings sampleRoot 0 ⟨[]⟩ with
    cache := PathCache.mapPathToNodeId defaultSettings none ⟨0, .empty, .empty, ∅⟩ "/a".toList
      sampleFile }

/-- Drive finds no file to delete, and everything else succeeds. -/
def noSuchFile (world : World) : (request : Request) → request.Answer × World
  | .deleteFile fileId =>
      serve defaultSettings { calm with fails := some .enoent } world (.deleteFile fileId)
  | request => serve defaultSettings calm world request

/-- The answer of the deletion that was carried out is lost. -/
theorem deleteNode_lost_answers_oneFile :
    SaysTold noSuchFile oneFile.transits (unlink sampleRoot "/a".toList) knowingOne
        (noSuchFile knowingOne (.deleteFile sampleFile)).2 ∧
      DeletesOverLosses oneFile (· = true) true := by
  have deletes := deleteNode_lost_answers deletes_oneFile unreliable_firstAnswerLost rfl
  have isRemote := deletes.unlink noSuchFile sampleRoot sampleFile "/a".toList knowingOne
    knowingOne knowingOne knowingOne
  exact ⟨isRemote rfl rfl rfl rfl, deletes⟩

/-! ## Creating a folder -/

/-- `create_folder`: the id of the folder in the answer. -/
def createFolder (outcomes : Nat → Except HttpError NodeId) : Except Exception NodeId :=
  match retrying retryVerdict furtherAttempts outcomes with
  | .returned fileId => .ok fileId
  | .reraised error => .error (.httpError error)
  | .exhausted => .error .retryError
  | .predicateRaised raised => .error raised

/-- Drive creates a folder for every request that it serves. -/
def Creates {δ : Type} (serve : δ → Except HttpError NodeId × δ) (folders : δ → Nat) : Prop :=
  ∀ state, (∃ fileId, (serve state).1 = .ok fileId) ∧
    folders (serve state).2 = folders state + 1

section Creation

variable {δ : Type} {exchange : Exchange δ HttpError NodeId} {folders : δ → Nat} {start : δ}

theorem Creates.final (creates : Creates exchange.serve folders) (state : δ) :
    Final retryVerdict (exchange.serve state).1 := by
  intro error failed
  obtain ⟨fileId, answer⟩ := (creates state).1
  rw [answer] at failed
  cases failed

theorem Creates.folders_iterate (creates : Creates exchange.serve folders) (arrived : Nat) :
    folders (exchange.effect^[arrived] start) = folders start + arrived := by
  induction arrived with
  | zero => rfl
  | succ arrived induction =>
      rw [Function.iterate_succ_apply', Exchange.effect, (creates _).2, induction]
      rfl

theorem folders_after (creates : Creates exchange.serve folders)
    (unreliable : Unreliable exchange.transits) :
    folders (exchange.after start retryVerdict furtherAttempts) =
      folders start + Transit.arrivals exchange.transits (attemptsMade exchange.transits) := by
  rw [after_eq unreliable creates.final]
  exact creates.folders_iterate _

theorem createFolder_eq (creates : Creates exchange.serve folders)
    (unreliable : Unreliable exchange.transits) :
    (createFolder (exchange.outcome start)).toOption.isSome =
      (Transit.firstAnswered exchange.transits furtherAttempts 0).isSome := by
  rw [createFolder, retrying_eq unreliable creates.final]
  cases Transit.firstAnswered exchange.transits furtherAttempts 0 with
  | none => rfl
  | some first =>
      obtain ⟨fileId, answer⟩ := (creates (exchange.stateBefore start first)).1
      dsimp only
      rw [answer]
      rfl

section Methods

variable {σ : Type} {serve : σ → (request : Request) → request.Answer × σ}
  {rootId parentId : NodeId} {path : Str} {world within resolved : σ}

theorem play_mkdir {created : Option NodeId}
    (quotaLeft : serve world .isQuotaExceeded = (false, within))
    (isResolved : play serve within (resolvePath rootId (dirname path)) =
      (.ok (some parentId), resolved))
    (answered : (serve resolved (.createFolder parentId (basename path))).1 = created) :
    (play serve world (mkdir rootId path)).1 =
      if created.isSome then .ok () else .error .eio := by
  rw [mkdir, Program.play_perform, quotaLeft]
  dsimp only
  rw [if_neg Bool.false_ne_true, Program.play_bind, isResolved]
  dsimp only
  rw [Program.play_perform, answered]
  cases created with
  | none => rfl
  | some fileId => rfl

/-- `mkdir` succeeds if one of the five answers comes back, and leaves a folder
on Drive for each request that arrived: one only if no answer was lost before,
and perhaps some where it fails. -/
theorem mkdir_lost_answers (creates : Creates exchange.serve folders)
    (unreliable : Unreliable exchange.transits)
    (quotaLeft : serve world .isQuotaExceeded = (false, within))
    (isResolved : play serve within (resolvePath rootId (dirname path)) =
      (.ok (some parentId), resolved))
    (answered : (serve resolved (.createFolder parentId (basename path))).1 =
      (createFolder (exchange.outcome start)).toOption) :
    folders (exchange.after start retryVerdict furtherAttempts) =
        folders start + Transit.arrivals exchange.transits (attemptsMade exchange.transits) ∧
      match Transit.firstAnswered exchange.transits furtherAttempts 0 with
      | some first =>
          (play serve world (mkdir rootId path)).1 = .ok () ∧
            Transit.arrivals exchange.transits (attemptsMade exchange.transits) =
              Transit.arrivals exchange.transits first + 1
      | none => (play serve world (mkdir rootId path)).1 = .error .eio := by
  refine ⟨folders_after creates unreliable, ?_⟩
  have played := play_mkdir quotaLeft isResolved answered
  rw [createFolder_eq creates unreliable] at played
  unfold attemptsMade
  cases isFirst : Transit.firstAnswered exchange.transits furtherAttempts 0 with
  | none =>
      rw [isFirst] at played
      exact played
  | some first =>
      rw [isFirst] at played
      exact ⟨played, Transit.arrivals_firstAnswered isFirst⟩

end Methods

end Creation

/-- The state counts the folders. -/
def folderCounter : Exchange Nat HttpError NodeId where
  serve count := (.ok calm.newId, count + 1)
  transits := firstAnswerLost

theorem creates_folderCounter : Creates folderCounter.serve id :=
  fun _ => ⟨⟨_, rfl⟩, rfl⟩

/-- The first folder is created and its answer lost: there are two. -/
theorem mkdir_lost_answers_folderCounter :
    folderCounter.after 0 retryVerdict furtherAttempts =
        0 + Transit.arrivals folderCounter.transits (attemptsMade folderCounter.transits) ∧
      match Transit.firstAnswered folderCounter.transits furtherAttempts 0 with
      | some first =>
          (play (serve defaultSettings calm) knowingOne
              (mkdir sampleRoot "/b".toList)).1 = .ok () ∧
            Transit.arrivals folderCounter.transits (attemptsMade folderCounter.transits) =
              Transit.arrivals folderCounter.transits first + 1
      | none =>
          (play (serve defaultSettings calm) knowingOne
            (mkdir sampleRoot "/b".toList)).1 = .error .eio :=
  mkdir_lost_answers creates_folderCounter unreliable_firstAnswerLost rfl rfl rfl

end FuseDrive.Fuse
