import FuseDrive.Fuse.Journal

/-!
# What the recovery uploads

`open` makes the journal file of a handle empty and the first call fills it,
but `_recover_journal` looks at its name only.  So after a restart the queue
holds nothing but contents that were queued before and results of issued calls
exactly if every orphaned edit file had been reached by a call, its handle had
found the content of the file, and its name gives back the id.
-/

namespace FuseDrive.Fuse

open Transition

/-! ## The condition -/

/-- A write, a truncate or `O_TRUNC` has reached the file. -/
def Origin.Reached (origin : Origin) : Prop :=
  origin.isTruncate = true ∨ origin.edits ≠ []

/-- The recovery does not take the file for an edit, or it takes it for an
edit of its own id that has reached the file. -/
def Origin.Recoverable (origin : Origin) : Prop :=
  origin.isNew = true ∨ origin.fileId.takeWhile (· ≠ '_') = [] ∨
    '_' ∉ origin.fileId ∧ origin.Reached

/-- What `_ensure_downloaded` puts into the temp file is the current content of
the Drive file. -/
def FindsBase (state : State) (writer : Writer) : Prop :=
  match writer.point with
  | .ensure _ =>
      writer.baseDownloaded = true ∨ state.currentContent writer.fileId = [] ∨
        0 < ((state.store.cache.getMetadata writer.fileId).map (·.size)).getD 0
  | .fetch _ source =>
      (state.fetches writer.fileId source).getD (state.currentContent writer.fileId) =
        state.currentContent writer.fileId
  | _ => True

/-- The discipline: every handle finds its base. -/
def BaseFound (state : State) : Label → Prop
  | .advance fd _ => ((state.writers fd).elim True (FindsBase state))
  | _ => True

/-- The content is the result of the calls that one handle for this file
issued, after an `O_TRUNC` open or with at least one write or truncate. -/
def Issued (before : State) (fileId : Str) (content : Bytes) : Prop :=
  ∃ name origin, before.origins name = some origin ∧ origin.isNew = false ∧
    origin.fileId = fileId ∧ origin.Reached ∧ content = origin.result

/-! ## The invariant -/

/-- The name `mkstemp` was asked for. -/
def Origin.Names (origin : Origin) (name : Str) : Prop :=
  (origin.isNew = false → ∃ suffix, name = editJournalName origin.fileId suffix) ∧
    (origin.isNew = true → ∃ parentId own suffix, name = createJournalName parentId own suffix)

/-- `_ensure_downloaded` is at work. -/
def CallPoint.isFetching : CallPoint → Bool
  | .locate _ | .probe _ _ | .fetch _ _ => true
  | .idle | .ensure _ | .apply _ => false

def CallPoint.isApplying : CallPoint → Bool
  | .apply _ => true
  | .idle | .ensure _ | .locate _ | .probe _ _ | .fetch _ _ => false

/-- The bytes of a handle are the result of its calls once the base is there,
and none before. -/
structure Tracks (writer : Writer) (origin : Origin) (content : Bytes) : Prop where
  downloaded : writer.baseDownloaded = true →
    content = origin.result ∧ writer.point.isFetching = false
  missing : writer.baseDownloaded = false →
    ¬ origin.Reached ∧ content = [] ∧ writer.position = 0 ∧ writer.point.isApplying = false

/-- Every journal file goes back to a handle. -/
structure Traced (state : State) : Prop where
  file : ∀ name content, state.journal name = some content →
    ∃ origin, state.origins name = some origin ∧ origin.Names name ∧
      (origin.Reached → content = origin.result)
  writer : ∀ fd writer content, state.writers fd = some writer →
    state.journal writer.tempName = some content →
    ∃ origin, state.origins writer.tempName = some origin ∧ Tracks writer origin content

section Traced

variable {settings : Settings} {state next : State}

theorem Tracks.result {writer : Writer} {origin : Origin} {content : Bytes}
    (tracks : Tracks writer origin content) (reached : origin.Reached) :
    content = origin.result := by
  cases isDownloaded : writer.baseDownloaded with
  | true => exact (tracks.downloaded isDownloaded).1
  | false => exact absurd reached (tracks.missing isDownloaded).1

theorem applyCall_bytes (handle : WriteHandle) (call : Call) :
    (applyCall handle call).temp.bytes = (call.meaning handle.temp.bytes).2 := by
  cases call <;> rfl

theorem applyCall_baseDownloaded (handle : WriteHandle) (call : Call) :
    (applyCall handle call).baseDownloaded = handle.baseDownloaded := by
  cases call <;> rfl

theorem Origin.result_note (origin : Origin) (call : Call) :
    (origin.note call.noted).result = (call.meaning origin.result).2 := by
  cases call with
  | read length offset => rfl
  | write data offset | truncate length =>
      simp [Origin.note, Call.noted, Origin.result, List.foldl_append]

theorem Origin.result_of_unreached {origin : Origin} (unreached : ¬ origin.Reached) :
    origin.result = origin.base := by
  have noEdits : origin.edits = [] := by
    by_contra issued
    exact unreached (Or.inr issued)
  simp [Origin.result, noEdits]

theorem Advanced.tracks {writer later : Writer} {bytes content : Bytes} {noted : Noted}
    (advanced : Advanced state writer bytes later content noted)
    (finds : FindsBase state writer) {origin : Origin}
    (tracks : Tracks writer origin bytes) : Tracks later (origin.note noted) content := by
  -- the steps before the base is there
  have fetching {point : CallPoint} (before : writer.point.isFetching = true)
      (notApplying : point.isApplying = false) :
      Tracks { writer with point := point } origin bytes := by
    have missing : writer.baseDownloaded = false := by
      cases isDownloaded : writer.baseDownloaded with
      | false => rfl
      | true => simp [(tracks.downloaded isDownloaded).2] at before
    obtain ⟨unreached, empty, position, -⟩ := tracks.missing missing
    exact ⟨fun isDownloaded => by simp [missing] at isDownloaded,
      fun _ => ⟨unreached, empty, position, notApplying⟩⟩
  -- the base is put into the empty file
  have based {base : Bytes} (missing : writer.baseDownloaded = false) :
      (origin.note (.base base)).result = base := by
    have unreached : ¬ (origin.note (.base base)).Reached := (tracks.missing missing).1
    exact Origin.result_of_unreached unreached
  cases advanced with
  | ensured point downloaded =>
      exact ⟨fun _ => ⟨(tracks.downloaded downloaded).1, rfl⟩,
        fun missing => by simp [downloaded] at missing⟩
  | @unrecorded call point missing empty =>
      refine ⟨fun _ => ⟨?_, rfl⟩, nofun⟩
      rw [based missing, (tracks.missing missing).2.1]
      unfold FindsBase at finds
      rw [point] at finds
      rcases finds with downloaded | nothing | positive
      · simp [missing] at downloaded
      · exact nothing.symm
      · cases found : state.store.cache.getMetadata writer.fileId with
        | none => simp [found] at positive
        | some node => simp [found, empty node found] at positive
  | recorded point missing found positive =>
      obtain ⟨unreached, empty, position, -⟩ := tracks.missing missing
      exact ⟨fun downloaded => by simp [missing] at downloaded,
        fun _ => ⟨unreached, empty, position, rfl⟩⟩
  | pending point unlocked entry | notPending point unlocked absent | there point file
  | gone point file | raised point => exact fetching (by rw [point]; rfl) rfl
  | @fetched call source data point read =>
      have missing : writer.baseDownloaded = false := by
        cases isDownloaded : writer.baseDownloaded with
        | false => rfl
        | true =>
            have notFetching := (tracks.downloaded isDownloaded).2
            rw [point] at notFetching
            cases notFetching
      obtain ⟨-, empty, position, -⟩ := tracks.missing missing
      refine ⟨fun _ => ⟨?_, rfl⟩, nofun⟩
      unfold FindsBase at finds
      rw [point] at finds
      simp only [read, Option.getD_some] at finds
      rw [based missing, ← finds]
      simp only [Writer.handle, empty, position]
      exact TempFile.mkstemp_write_bytes data
  | @applied call point =>
      have isDownloaded : writer.baseDownloaded = true := by
        cases isDownloaded : writer.baseDownloaded with
        | true => rfl
        | false =>
            have notApplying := (tracks.missing isDownloaded).2.2.2
            rw [point] at notApplying
            cases notApplying
      have still : (applyCall (writer.handle bytes) call).baseDownloaded = true :=
        (applyCall_baseDownloaded _ call).trans isDownloaded
      refine ⟨fun _ => ⟨?_, rfl⟩, fun missing => ?_⟩
      · rw [applyCall_bytes, Origin.result_note, ← (tracks.downloaded isDownloaded).1]
        rfl
      · simp [Writer.follow, still] at missing

theorem Traced.shrink (traced : Traced state)
    (writers : ∀ fd writer, next.writers fd = some writer →
      ∃ old, state.writers fd = some old ∧ old.tempName = writer.tempName ∧
        ∀ origin content, Tracks old origin content → Tracks writer origin content)
    (origins : next.origins = state.origins)
    (journal : ∀ name content, next.journal name = some content →
      state.journal name = some content) : Traced next where
  file := by
    intro name content present
    rw [origins]
    exact traced.file name content (journal name content present)
  writer := by
    intro fd writer content opened present
    obtain ⟨old, wasOpened, sameName, still⟩ := writers fd writer opened
    rw [← sameName] at present ⊢
    obtain ⟨origin, isOrigin, tracks⟩ :=
      traced.writer fd old content wasOpened (journal _ content present)
    rw [origins]
    exact ⟨origin, isOrigin, still origin content tracks⟩

theorem Traced.aside (traced : Traced state)
    (writers : ∀ fd writer, next.writers fd = some writer → state.writers fd = some writer)
    (origins : next.origins = state.origins)
    (journal : ∀ name content, next.journal name = some content →
      state.journal name = some content) : Traced next :=
  traced.shrink
    (fun fd writer opened => ⟨writer, writers fd writer opened, rfl, fun _ _ tracks => tracks⟩)
    origins journal

theorem Traced.mkstemp (traced : Traced state) (journaled : Journaled state) {fd : Nat}
    {writer : Writer} {origin : Origin} (fresh : state.journal writer.tempName = none)
    (names : origin.Names writer.tempName) (empty : origin.result = [])
    (tracks : Tracks writer origin []) : Traced (state.mkstemp fd writer origin) := by
  have journal (name : Str) : (state.mkstemp fd writer origin).journal name =
      if name = writer.tempName then some [] else state.journal name :=
    state.setFile_journal writer.tempName name []
  have origins (name : Str) : (state.mkstemp fd writer origin).origins name =
      if name = writer.tempName then some origin else state.origins name :=
    Function.update_apply ..
  have writers (other : Nat) : (state.mkstemp fd writer origin).writers other =
      if other = fd then some writer else state.writers other :=
    Function.update_apply ..
  constructor
  · intro name content present
    rw [journal] at present
    rw [origins]
    split at present
    · rename_i isName
      cases present
      exact ⟨origin, if_pos isName, isName ▸ names, fun _ => empty.symm⟩
    · rename_i notName
      rw [if_neg notName]
      exact traced.file name content present
  · intro other found content opened present
    rw [writers] at opened
    split at opened
    · cases opened
      rw [journal, if_pos rfl, Option.some.injEq] at present
      rw [origins, ← present]
      exact ⟨origin, if_pos rfl, tracks⟩
    · obtain ⟨bytes, file⟩ := journaled.present _ _ (State.temp_writer opened)
      have notName : found.tempName ≠ writer.tempName := by
        intro same
        rw [same, fresh] at file
        cases file
      rw [journal, if_neg notName] at present
      rw [origins, if_neg notName]
      exact traced.writer other found content opened present

theorem Traced.advance (traced : Traced state) (journaled : Journaled state) {fd : Nat}
    {writer later : Writer} {bytes content : Bytes} {noted : Noted}
    (opened : state.writers fd = some writer)
    (file : state.journal writer.tempName = some bytes)
    (advanced : Advanced state writer bytes later content noted)
    (finds : FindsBase state writer) :
    Traced (state.setHandle fd later content noted) := by
  obtain ⟨origin, isOrigin, tracks⟩ := traced.writer fd writer bytes opened file
  obtain ⟨traced_, isTraced, names, -⟩ := traced.file _ _ file
  rw [isOrigin, Option.some.injEq] at isTraced
  subst isTraced
  have after := advanced.tracks finds tracks
  have journal (name : Str) : (state.setHandle fd later content noted).journal name =
      if name = later.tempName then some content else state.journal name :=
    state.setFile_journal later.tempName name content
  have origins (name : Str) : (state.setHandle fd later content noted).origins name =
      if name = writer.tempName then some (origin.note noted) else state.origins name := by
    change Function.update state.origins later.tempName
      ((state.origins later.tempName).map (·.note noted)) name = _
    rw [Function.update_apply, advanced.tempName, isOrigin, Option.map_some]
  have writers (other : Nat) : (state.setHandle fd later content noted).writers other =
      if other = fd then some later else state.writers other :=
    Function.update_apply ..
  have namesStill : (origin.note noted).Names writer.tempName := by
    cases noted <;> exact names
  constructor
  · intro name found present
    rw [journal, advanced.tempName] at present
    rw [origins]
    split at present
    · rename_i isName
      cases present
      exact ⟨origin.note noted, if_pos isName, isName ▸ namesStill, after.result⟩
    · rename_i notName
      rw [if_neg notName]
      exact traced.file name found present
  · intro other found bytes_ isOpened present
    rw [writers] at isOpened
    split at isOpened
    · cases isOpened
      rw [journal, if_pos rfl, Option.some.injEq] at present
      rw [origins, ← present]
      exact ⟨origin.note noted, if_pos advanced.tempName, after⟩
    · rename_i notFd
      have notName : found.tempName ≠ writer.tempName := by
        intro same
        have isFd := journaled.distinct _ _ _ (State.temp_writer isOpened)
          (same ▸ State.temp_writer opened)
        exact notFd (Holder.handle.inj isFd)
      rw [journal, advanced.tempName, if_neg notName] at present
      rw [origins, if_neg notName]
      exact traced.writer other found bytes_ isOpened present

theorem Mounted.traced (mounted : Mounted state) : Traced state := by
  constructor
  · intro name content present
    rw [mounted.journal name] at present
    cases present
  · intro fd writer content opened
    rw [mounted.writers fd] at opened
    cases opened

theorem Traced.step (traced : Traced state) (journaled : Journaled state) {label : Label}
    (found : BaseFound state label) (stepped : Stepped settings state label next) :
    Traced next := by
  have same (name : Str) (content : Bytes) (present : state.journal name = some content) :
      state.journal name = some content := present
  have closed {fd other : Nat} {writer : Writer}
      (opened : Function.update state.writers fd none other = some writer) :
      state.writers other = some writer := by
    rw [Function.update_apply] at opened
    split at opened
    · cases opened
    · exact opened
  cases stepped with
  | @openWrite fd path isTruncate suffix fileId serves unused isMapped fresh =>
      refine traced.mkstemp journaled fresh ⟨fun _ => ⟨suffix, rfl⟩, nofun⟩ rfl ?_
      cases isTruncate with
      | true => exact ⟨fun _ => ⟨rfl, rfl⟩, nofun⟩
      | false => exact ⟨nofun, fun _ => ⟨by simp [Origin.Reached], rfl, rfl, rfl⟩⟩
  | @create fd path uuid suffix now index parentId store serves unused parent fresh recorded =>
      have loaded : Traced
          { state with store := store, paths := state.paths.insert path (localPrefix ++ uuid) } :=
        traced.aside (fun _ _ opened => opened) rfl same
      refine loaded.mkstemp (journaled.congr rfl rfl rfl) fresh
        ⟨nofun, fun _ => ⟨_, _, suffix, rfl⟩⟩ rfl ⟨fun _ => ⟨rfl, rfl⟩, nofun⟩
  | @call fd call writer opened idle =>
      refine traced.shrink (fun other found isFound => ?_) rfl same
      rw [State.setWriter_writers] at isFound
      split at isFound
      · rename_i isFd
        cases isFound
        subst isFd
        refine ⟨writer, opened, rfl, fun origin content tracks => ⟨fun isDownloaded => ?_,
          fun missing => ?_⟩⟩
        · exact ⟨(tracks.downloaded isDownloaded).1, rfl⟩
        · obtain ⟨unreached, empty, position, -⟩ := tracks.missing missing
          exact ⟨unreached, empty, position, rfl⟩
      · exact ⟨found, isFound, rfl, fun _ _ tracks => tracks⟩
  | @advance fd storageFails writer bytes later content noted opened file advanced =>
      refine traced.advance journaled opened file advanced ?_
      change (state.writers fd).elim True (FindsBase state) at found
      rw [opened] at found
      exact found
  | releaseNew _ _ _ _ | releaseModified _ _ _ _ _ =>
      exact traced.aside (fun _ _ opened => closed opened) rfl same
  | releaseUnmodified _ _ _ _ _ =>
      refine traced.aside (fun _ _ opened => closed opened) rfl fun name content present => ?_
      rw [State.removeFile_journal] at present
      split at present
      · cases present
      · exact present
  | enqueue _ _ moved | accept _ _ moved _ | upload _ moved =>
      exact traced.aside (fun _ _ opened => opened) rfl
        fun _ _ present => journaled.placed.journal_lookup moved present
  | crash => exact traced.aside nofun rfl same
  | openRead _ _ _ | releaseReader _ | edit _ _ _ _ | editReleased _ _ _ | enqueuedNew _ _ _ _
  | enqueuedEdit _ _ _ _ | beginRead _ _ | advanceRead _ _ | store _ _ | map _ _ _ | unmap =>
      exact traced.aside (fun _ _ opened => opened) rfl same

/-! ## Crash and restart -/

/-- A file the recovery takes for an edit of an id was reached by the calls of
a handle for it. -/
theorem Traced.issued (traced : Traced state) {name fileId : Str} {content : Bytes}
    (present : state.journal name = some content)
    (recoverable : ∀ origin, state.origins name = some origin → origin.Recoverable)
    (recovered : recoverJournalEntry name = .edit fileId) : Issued state fileId content := by
  obtain ⟨origin, isOrigin, names, result⟩ := traced.file name content present
  cases isNew : origin.isNew with
  | true =>
      obtain ⟨parentId, own, suffix, rfl⟩ := names.2 isNew
      exact absurd recovered (recoverJournalEntry_createJournalName_ne_edit _ _ _ _)
  | false =>
      obtain ⟨suffix, rfl⟩ := names.1 isNew
      obtain ⟨nonempty, -, isField⟩ := eq_takeWhile_of_recoverJournalEntry recovered
      rcases recoverable origin isOrigin with new | empty | ⟨clean, reached⟩
      · simp [isNew] at new
      · exact absurd (isField.trans empty) nonempty
      · have isId : origin.fileId.takeWhile (· ≠ '_') = origin.fileId := by
          rw [List.takeWhile_eq_self_iff]
          intro symbol member
          simpa using fun same : symbol = '_' => clean (same ▸ member)
        exact ⟨_, origin, isOrigin, isNew, (isField.trans isId).symm, reached, result reached⟩

/-- The invariant of these runs. -/
structure Accounted (state : State) : Prop where
  journaled : Journaled state
  traced : Traced state

/-- What the last crash finds in the journal directory is recoverable. -/
def AllRecoverable (before : State) : Prop :=
  ∀ name content origin, before.journal name = some content →
    before.origins name = some origin → origin.Recoverable

/-- Every update entry the restart leaves holds a content that was queued
before, or the result of calls that were issued. -/
def HoldsIssued (before : State) (after : Upload.State Bytes) : Prop :=
  ∀ fileId job content, after.queue.lookup fileId = some job → job.jobType = .update →
    after.files.lookup job.path = some content →
    Upload.Queued before.uploads fileId content ∨ Issued before fileId content

/-- In every run in which every handle finds its base, up to a crash that finds
recoverable files only, the restart queues nothing but contents that were
queued before and results of issued calls. -/
theorem restart_holdsIssued {start before : State} {after : Upload.State Bytes}
    (mounted : Mounted start)
    (reached : Reaches (Fuse.step settings) BaseFound start before)
    (recoverable : AllRecoverable before)
    (restart : Reaches (Upload.step settings.maxRetries) Upload.Restarting
      before.uploads.crash after) : HoldsIssued before after := by
  have initial : Accounted start := ⟨mounted.journaled, mounted.traced⟩
  have accounted : Accounted before := by
    refine reached.invariant (fun {state label next} accounted found taken => ?_) initial
    have stepped := stepped_of_step taken
    exact ⟨accounted.journaled.step stepped,
      accounted.traced.step accounted.journaled found stepped⟩
  intro fileId job content entry isUpdate file
  rcases Upload.restart_entries accounted.journaled.placed restart entry isUpdate file with
    queued | ⟨name, present, recovered⟩
  · exact Or.inl queued
  · right
    exact accounted.traced.issued present
      (fun origin => recoverable name content origin present) recovered

end Traced

/-! ## One crash with and one without a write -/

instance (state : State) (writer : Writer) : Decidable (FindsBase state writer) := by
  unfold FindsBase
  split <;> infer_instance

instance (state : State) (label : Label) : Decidable (BaseFound state label) := by
  unfold BaseFound
  split
  · cases state.writers _ <;> (simp only [Option.elim]; infer_instance)
  · infer_instance

/-- A handle on `f` writes a byte. -/
def writeByte : List Label :=
  [.openWrite 0 ['/', 'f'] false ['x'], .call 0 (.write [7] 0)] ++
    List.replicate 4 (.advance 0 false)

/-- The restart up to the moment the recovered file is queued. -/
def recoverOne : List Upload.Label :=
  [.start [editJournalName ['f'] ['x']], .recover 0 ['u'] 9, .move 0, .replace 0]

instance (state : Upload.State Bytes) (label : Upload.Label) :
    Decidable (Upload.Restarting state label) := by
  cases label <;> unfold Upload.Restarting <;> infer_instance

theorem restart_holdsIssued_writeByte :
    ∃ before after, runAllowed (Fuse.step defaults) BaseFound (mount [1]) writeByte =
        some before ∧
      runAllowed (Upload.step 5) Upload.Restarting before.uploads.crash recoverOne =
        some after ∧
      after.files.lookup (.upload ['f'] 9) = some [7] ∧ HoldsIssued before after := by
  obtain ⟨before, executed⟩ := Option.isSome_iff_exists.mp
    (show (runAllowed (Fuse.step defaults) BaseFound (mount [1]) writeByte).isSome from rfl)
  have restarts : ((runAllowed (Fuse.step defaults) BaseFound (mount [1]) writeByte).bind
      fun before => (runAllowed (Upload.step 5) Upload.Restarting before.uploads.crash
        recoverOne).map (·.files.lookup (.upload ['f'] 9))) = some (some [7]) := rfl
  have files : (runAllowed (Fuse.step defaults) BaseFound (mount [1]) writeByte).map
      (·.uploads.files.entries) =
        some [⟨.journal (editJournalName ['f'] ['x']), [7]⟩] := rfl
  have origins : (runAllowed (Fuse.step defaults) BaseFound (mount [1]) writeByte).map
      (·.origins (editJournalName ['f'] ['x'])) =
        some (some ⟨['f'], false, false, [1], [.write [7] 0]⟩) := rfl
  simp only [executed, Option.map_some, Option.some.injEq] at files origins
  rw [executed] at restarts
  obtain ⟨after, restarted, content⟩ := Option.map_eq_some_iff.mp restarts
  have recoverable : AllRecoverable before := by
    intro name bytes origin present isOrigin
    have member := AList.mem_lookup_iff.mp present
    rw [files, List.mem_singleton, Sigma.mk.injEq] at member
    obtain ⟨isName, -⟩ := member
    rw [Upload.LocalPath.journal.injEq] at isName
    subst isName
    rw [origins, Option.some.injEq] at isOrigin
    subst isOrigin
    exact Or.inr (Or.inr ⟨by decide, Or.inr (by simp)⟩)
  exact ⟨before, after, executed, restarted, content, restart_holdsIssued (Mounted.mount [1])
    (Reaches.of_runAllowed executed) recoverable (Reaches.of_runAllowed restarted)⟩

/-- A handle that is opened for writing and not used costs the file its
content. -/
theorem restart_fails_after_open :
    ¬ ∀ (start before : State) (after : Upload.State Bytes), Mounted start →
      Reaches (Fuse.step defaults) (fun _ _ => True) start before →
      Reaches (Upload.step 5) Upload.Restarting before.uploads.crash after →
      HoldsIssued before after := by
  intro holds
  let opens : List Label := [.openWrite 0 ['/', 'f'] false ['x']]
  have restarts : ((run (Fuse.step defaults) (mount [1]) opens).bind fun before =>
      (runAllowed (Upload.step 5) Upload.Restarting before.uploads.crash recoverOne).map
        fun after => ((after.queue.lookup ['f']).map fun job => (job.path, job.jobType),
          after.files.lookup (.upload ['f'] 9))) =
      some (some (.upload ['f'] 9, .update), some []) := rfl
  have origins : (run (Fuse.step defaults) (mount [1]) opens).map (·.origins) =
      some (Function.update (fun _ => none) (editJournalName ['f'] ['x'])
        (some ⟨['f'], false, false, [], []⟩)) := rfl
  have saved : (run (Fuse.step defaults) (mount [1]) opens).map
      (·.uploads.savedQueue.lookup ['f']) = some none := rfl
  obtain ⟨before, executed, restarts⟩ := Option.bind_eq_some_iff.mp restarts
  obtain ⟨after, restarted, found⟩ := Option.map_eq_some_iff.mp restarts
  simp only [executed, Option.map_some, Option.some.injEq] at origins saved
  obtain ⟨entry, file⟩ := Prod.mk.inj found
  obtain ⟨job, isEntry, isJob⟩ := Option.map_eq_some_iff.mp entry
  obtain ⟨path, jobType⟩ := Prod.mk.inj isJob
  have recovered := holds (mount [1]) before after (Mounted.mount [1])
    (Reaches.of_free_run executed) (Reaches.of_runAllowed restarted) ['f'] job [] isEntry
    jobType (path ▸ file)
  rcases recovered with ⟨old, wasSaved, -⟩ | ⟨name, origin, isOrigin, -, -, reached, -⟩
  · rw [saved] at wasSaved
    cases wasSaved
  · rw [origins, Function.update_apply] at isOrigin
    split at isOrigin
    · cases isOrigin
      simp [Origin.Reached] at reached
    · cases isOrigin

end FuseDrive.Fuse
