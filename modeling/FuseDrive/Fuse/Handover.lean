import FuseDrive.Fuse.Journal
import FuseDrive.Upload.Creation

/-!
# What a handle hands over

A writing handle, and its `release` until it hands the temp file over, owes
the upload manager one `enqueue_file_for_upload` call, with arguments that
`open` or `create` has settled.  All else that the handles do to the upload
manager is to write journal files of their own.
-/

namespace FuseDrive.Fuse

open Upload (EnqueueCall)

/-- The call a handle will make when it is released. -/
def State.owes (state : State) (fd : Nat) : Option EnqueueCall :=
  match state.writers fd, state.closing fd with
  | some writer, _ => some writer.enqueueCall
  | none, some closing =>
      if closing.holdsFile then some closing.writer.enqueueCall else none
  | none, none => none

section Owes

variable {settings : Settings} {state next : State} {fd : Nat}

theorem State.owes_writer {writer : Writer} (opened : state.writers fd = some writer) :
    state.owes fd = some writer.enqueueCall := by
  simp [State.owes, opened]

theorem State.owes_closing {closing : Closing} (noWriter : state.writers fd = none)
    (released : state.closing fd = some closing) (holds : closing.holdsFile = true) :
    state.owes fd = some closing.writer.enqueueCall := by
  simp [State.owes, noWriter, released, holds]

theorem State.owes_congr (writers : next.writers fd = state.writers fd)
    (closing : next.closing fd = state.closing fd) : next.owes fd = state.owes fd := by
  simp only [State.owes, writers, closing]

theorem State.owes_eq_none {closing : Option Closing} (writers : next.writers fd = none)
    (isClosing : next.closing fd = closing)
    (hands : ∀ found, closing = some found → found.holdsFile = false) :
    next.owes fd = none := by
  subst isClosing
  cases released : next.closing fd with
  | none => simp [State.owes, writers, released]
  | some found => simp [State.owes, writers, released, hands found released]

theorem Advanced.enqueueCall {writer later : Writer} {bytes content : Bytes} {noted : Noted}
    (advanced : Advanced state writer bytes later content noted) :
    later.enqueueCall = writer.enqueueCall := by
  cases advanced <;> rfl

/-- What a step does to the calls that are owed: `open` and `create` add one,
and it is gone when the file was handed over or not modified. -/
inductive Owing (settings : Settings) (state next : State) : Label → Prop where
  | kept {label} (notEnqueue : ∀ fd slot second, label ≠ .enqueue fd slot second)
      (same : ∀ fd, next.owes fd = state.owes fd) : Owing settings state next label
  | opened {fd path isTruncate suffix call} (fresh : state.owes fd = none) (old : call.isNew = false)
      (owes : ∀ other, next.owes other = if other = fd then some call else state.owes other) :
      Owing settings state next (.openWrite fd path isTruncate suffix)
  | created {fd path uuid suffix now index parentId} (fresh : state.owes fd = none)
      (parent : state.resolvePathToDriveNodeId settings.rootId (dirname path) = some parentId)
      (owes : ∀ other, next.owes other =
        if other = fd then
          some ⟨localPrefix ++ uuid, createJournalName parentId (basename path) suffix, true,
            some parentId, some (basename path)⟩
        else state.owes other) :
      Owing settings state next (.create fd path uuid suffix now index)
  | discarded {fd call} (owed : state.owes fd = some call) (old : call.isNew = false)
      (owes : ∀ other, next.owes other = if other = fd then none else state.owes other) :
      Owing settings state next (.release fd)
  | handed {fd slot second}
      (owes : ∀ other, next.owes other = if other = fd then none else state.owes other) :
      Owing settings state next (.enqueue fd slot second)

theorem State.owes_unused (unused : state.Unused fd) : state.owes fd = none := by
  obtain ⟨writers, -, closing, -⟩ := unused
  rw [Option.isNone_iff_eq_none] at writers closing
  simp [State.owes, writers, closing]

theorem State.owes_mkstemp (state : State) (writer : Writer) (origin : Origin) (other : Nat) :
    (state.mkstemp fd writer origin).owes other =
      if other = fd then some writer.enqueueCall else state.owes other := by
  have writers : (state.mkstemp fd writer origin).writers other =
      if other = fd then some writer else state.writers other := Function.update_apply ..
  split
  · rename_i isFd
    rw [if_pos isFd] at writers
    exact State.owes_writer writers
  · rename_i notFd
    rw [if_neg notFd] at writers
    exact State.owes_congr writers rfl

theorem State.owes_setWriter {writer later : Writer} (opened : state.writers fd = some writer)
    (same : later.enqueueCall = writer.enqueueCall) (other : Nat) :
    (state.setWriter fd (some later)).owes other = state.owes other := by
  by_cases isFd : other = fd
  · subst isFd
    rw [State.owes_writer ((state.setWriter_writers other other _).trans (if_pos rfl)),
      State.owes_writer opened, same]
  · exact State.owes_congr ((state.setWriter_writers fd other _).trans (if_neg isFd)) rfl

theorem State.owes_release {writer : Writer} (opened : state.writers fd = some writer)
    {closing : Closing} (isWriter : closing.writer = writer) (holds : closing.holdsFile = true)
    (other : Nat) :
    ((state.setWriter fd none).setClosing fd (some closing)).owes other = state.owes other := by
  have writers : ((state.setWriter fd none).setClosing fd (some closing)).writers other =
      if other = fd then none else state.writers other := Function.update_apply ..
  have closings : ((state.setWriter fd none).setClosing fd (some closing)).closing other =
      if other = fd then some closing else state.closing other := Function.update_apply ..
  by_cases isFd : other = fd
  · subst isFd
    rw [if_pos rfl] at writers closings
    rw [State.owes_closing writers closings holds, State.owes_writer opened, isWriter]
  · rw [if_neg isFd] at writers closings
    exact State.owes_congr writers closings

theorem State.owes_setClosing {later : Option Closing} (noWriter : state.writers fd = none)
    (hands : ∀ found, later = some found → found.holdsFile = false) (other : Nat) :
    (state.setClosing fd later).owes other =
      if other = fd then none else state.owes other := by
  have closings := state.setClosing_closing fd other later
  split
  · rename_i isFd
    subst isFd
    exact State.owes_eq_none noWriter (closings.trans (if_pos rfl)) hands
  · rename_i notFd
    exact State.owes_congr rfl (closings.trans (if_neg notFd))

theorem Journaled.owing (journaled : Journaled state) {label : Label}
    (stepped : Stepped settings state label next) (running : label ≠ .crash) :
    Owing settings state next label := by
  -- the later points of a `release` owe nothing any more
  have settled {fd : Nat} {closing : Closing} (later : Option Closing) {label : Label}
      (notEnqueue : ∀ fd slot second, label ≠ .enqueue fd slot second)
      (released : state.closing fd = some closing) (handed : closing.holdsFile = false)
      (hands : ∀ found, later = some found → found.holdsFile = false)
      (owes : ∀ other, next.owes other = (state.setClosing fd later).owes other) :
      Owing settings state next label := by
    refine .kept notEnqueue fun other => ?_
    have noWriter := journaled.writers_closing released
    rw [owes, State.owes_setClosing noWriter hands]
    split
    · rename_i isFd
      subst isFd
      refine (State.owes_eq_none noWriter released ?_).symm
      intro found isFound
      cases isFound
      exact handed
    · rfl
  cases stepped with
  | openWrite serves unused found fresh =>
      exact .opened (State.owes_unused unused) rfl (State.owes_mkstemp _ _ _)
  | create serves unused parent fresh recorded =>
      refine .created (State.owes_unused unused) parent fun other => ?_
      exact State.owes_mkstemp _ _ _ other
  | call opened idle => exact .kept nofun (State.owes_setWriter opened rfl)
  | advance opened file advanced =>
      exact .kept nofun fun other => State.owes_setWriter opened advanced.enqueueCall other
  | releaseNew opened idle file new => exact .kept nofun (State.owes_release opened rfl rfl)
  | releaseModified opened idle file old modified =>
      exact .kept nofun (State.owes_release opened rfl rfl)
  | @releaseUnmodified fd writer content opened idle file old unmodified =>
      refine .discarded (State.owes_writer opened) old fun other => ?_
      have writers := state.setWriter_writers fd other none
      split
      · rename_i isFd
        subst isFd
        rw [if_pos rfl] at writers
        exact State.owes_eq_none writers (journaled.apart other writer opened) (by simp)
      · rename_i notFd
        rw [if_neg notFd] at writers
        exact State.owes_congr writers rfl
  | @enqueue fd slot second closing uploads released ready begun =>
      have noWriter := journaled.writers_closing released
      refine .handed ?_
      have hands (found : Closing) (isFound : some { closing with point := .enqueueing slot } =
          some found) : found.holdsFile = false := by
        cases isFound
        rfl
      exact @State.owes_setClosing { state with uploads := uploads } fd _ noWriter hands
  | enqueuedNew released point returned new =>
      refine settled none nofun released ?_ (by simp) fun _ => rfl
      simp [Closing.holdsFile, point]
  | enqueuedEdit released point returned old =>
      refine settled _ nofun released ?_ ?_ fun _ => rfl
      · simp [Closing.holdsFile, point]
      · intro found isFound
        cases isFound
        rfl
  | editReleased released point moved =>
      refine settled none nofun released ?_ (by simp) fun _ => rfl
      simp [Closing.holdsFile, point]
  | crash => exact absurd rfl running
  | openRead _ _ _ | releaseReader _ | edit _ _ _ _ | beginRead _ _ | advanceRead _ _
  | accept _ _ _ _ | upload _ _ | store _ _ | map _ _ _ | unmap => exact .kept nofun fun _ => rfl

end Owes

/-! ## What the upload manager sees -/

/-- Journal files that no call is about to move come and go. -/
structure Aside (before after : Upload.State Bytes) : Prop where
  files : after = { before with files := after.files }
  uploads : ∀ fileId second, after.files.lookup (.upload fileId second) =
    before.files.lookup (.upload fileId second)
  moving : ∀ slot name, (before.slots slot).moving = some name →
    after.files.lookup (.journal name) = before.files.lookup (.journal name)

/-- What a step does to the upload manager and to Drive. -/
inductive Moved (settings : Settings) (state next : State) : Label → Prop where
  | aside {label} (notEnqueue : ∀ fd slot second, label ≠ .enqueue fd slot second)
      (notAccept : ∀ slot nodeId modified, label ≠ .accept slot nodeId modified)
      (uploads : Aside state.uploads next.uploads) (nodes : next.nodes = state.nodes)
      (drive : next.driveContent = state.driveContent) : Moved settings state next label
  | enqueue {fd slot second closing} (released : state.closing fd = some closing)
      (owed : state.owes fd = some closing.writer.enqueueCall)
      (begun : Upload.Stepped settings.maxRetries state.uploads
        (.begin slot closing.writer.enqueueCall second) next.uploads)
      (nodes : next.nodes = state.nodes) (drive : next.driveContent = state.driveContent) :
      Moved settings state next (.enqueue fd slot second)
  | accept {slot nodeId modified fileId job content}
      (sent : state.uploads.slots slot = .attempt fileId job (.sent content))
      (issues : state.Issues fileId nodeId job.jobType)
      (replied : Upload.Stepped settings.maxRetries state.uploads
        (.reply slot (.accepted nodeId)) next.uploads)
      (nodes : next.nodes = state.issue job nodeId)
      (drive : ∀ id, next.driveContent id =
        if id = nodeId then content else state.driveContent id) :
      Moved settings state next (.accept slot nodeId modified)
  | upload {label} (background : isUploadStep label = true)
      (moved : Upload.Stepped settings.maxRetries state.uploads label next.uploads)
      (nodes : next.nodes = state.nodes) (drive : next.driveContent = state.driveContent) :
      Moved settings state next (.upload label)

section Moved

variable {settings : Settings} {state next : State}

theorem State.driveContent_congr {store : Coherence.State UInt8} {label : Coherence.Label UInt8}
    (stepped : Coherence.Stepped settings.chunks state.store label store)
    (unchanged : ∀ fileId content modified, label ≠ .change fileId content modified)
    (isStore : next.store = store) : next.driveContent = state.driveContent := by
  funext fileId
  simp only [State.driveContent, isStore, stepped.drive_eq unchanged]

theorem State.driveContent_change {store : Coherence.State UInt8} {nodeId : Str}
    {content : Bytes} {modified : Nat}
    (stepped : Coherence.Stepped settings.chunks state.store (.change nodeId content modified)
      store) (isStore : next.store = store) (fileId : Str) :
    next.driveContent fileId = if fileId = nodeId then content else state.driveContent fileId := by
  simp only [State.driveContent, isStore, stepped.drive_change]
  split
  · rw [List.map_map]
    exact List.map_id content
  · rfl

namespace Aside

theorem of_eq {before after : Upload.State Bytes} (same : after = before) :
    Aside before after := by
  subst same
  exact ⟨rfl, fun _ _ => rfl, fun _ _ _ => rfl⟩

theorem insert {name : Str} (unmoved : ∀ slot, state.temp (.mover slot) ≠ some name)
    (bytes : Bytes) (isNext : next.uploads =
      { state.uploads with files := state.uploads.files.insert (.journal name) bytes }) :
    Aside state.uploads next.uploads := by
  rw [isNext]
  refine ⟨rfl, fun fileId second => ?_, fun slot other moving => ?_⟩
  · exact (Dict.lookup_insert_eq ..).trans (if_neg nofun)
  · refine (Dict.lookup_insert_eq ..).trans (if_neg ?_)
    intro same
    cases same
    exact unmoved slot moving

theorem erase {name : Str} (unmoved : ∀ slot, state.temp (.mover slot) ≠ some name)
    (isNext : next.uploads =
      { state.uploads with files := state.uploads.files.erase (.journal name) }) :
    Aside state.uploads next.uploads := by
  rw [isNext]
  refine ⟨rfl, fun fileId second => ?_, fun slot other moving => ?_⟩
  · exact (Dict.lookup_erase_eq ..).trans (if_neg nofun)
  · refine (Dict.lookup_erase_eq ..).trans (if_neg ?_)
    intro same
    cases same
    exact unmoved slot moving

end Aside

/-- Nobody is about to move the file of a handle. -/
theorem Journaled.unmoved (journaled : Journaled state) {fd : Nat} {name : Str}
    (isTemp : state.temp (.handle fd) = some name) (slot : Nat) :
    state.temp (.mover slot) ≠ some name := by
  intro moving
  cases journaled.distinct _ _ _ isTemp moving

theorem Journaled.unmoved_of_absent (journaled : Journaled state) {name : Str}
    (absent : state.journal name = none) (slot : Nat) :
    state.temp (.mover slot) ≠ some name := by
  intro moving
  obtain ⟨content, present⟩ := journaled.present _ _ moving
  rw [absent] at present
  cases present

theorem Journaled.moved (journaled : Journaled state) {label : Label}
    (stepped : Stepped settings state label next) (running : label ≠ .crash) :
    Moved settings state next label := by
  cases stepped with
  | openWrite serves unused found fresh =>
      exact .aside nofun nofun (.insert (journaled.unmoved_of_absent fresh) [] rfl) rfl rfl
  | create serves unused parent fresh recorded =>
      exact .aside nofun nofun (.insert (journaled.unmoved_of_absent fresh) [] rfl) rfl
        (State.driveContent_congr recorded nofun rfl)
  | @advance fd storageFails writer bytes later content noted opened file advanced =>
      have isTemp := advanced.tempName ▸ State.temp_writer opened
      exact .aside nofun nofun (.insert (journaled.unmoved isTemp) content rfl) rfl rfl
  | releaseUnmodified opened idle file old unmodified =>
      exact .aside nofun nofun (.erase (journaled.unmoved (State.temp_writer opened)) rfl) rfl rfl
  | enqueue released ready begun =>
      have owed := State.owes_closing (journaled.writers_closing released) released
        (holdsFile_of_readyToEnqueue ready)
      exact .enqueue released owed begun rfl rfl
  | accept sent issues replied changed =>
      exact .accept sent issues replied rfl (State.driveContent_change changed rfl)
  | upload background moved => exact .upload background moved rfl rfl
  | edit released permitted unfinished moved =>
      refine .aside nofun nofun (.of_eq rfl) rfl (State.driveContent_congr moved ?_ rfl)
      rintro _ _ _ rfl
      cases permitted
  | editReleased released point moved =>
      exact .aside nofun nofun (.of_eq rfl) rfl (State.driveContent_congr moved nofun rfl)
  | advanceRead present advanced =>
      refine .aside nofun nofun (.of_eq rfl) rfl ?_
      cases advanced with
      | stat point asked => exact State.driveContent_congr asked nofun rfl
      | _ => rfl
  | store background moved =>
      refine .aside nofun nofun (.of_eq rfl) rfl (State.driveContent_congr moved ?_ rfl)
      rintro _ _ _ rfl
      cases background
  | crash => exact absurd rfl running
  | openRead _ _ _ | call _ _ | releaseReader _ | releaseNew _ _ _ _ | releaseModified _ _ _ _ _
  | enqueuedNew _ _ _ _ | enqueuedEdit _ _ _ _ | beginRead _ _ | map _ _ _ | unmap =>
      exact .aside nofun nofun (.of_eq rfl) rfl rfl

theorem Aside.setFiles {before after : Upload.State Bytes} (aside : Aside before after)
    (grounded : Upload.Grounded before) :
    Upload.Grounded { before with files := after.files } := by
  refine grounded.setFiles fun index call serial content safePath retries isSlot => ?_
  refine aside.moving index call.tempName ?_
  rw [isSlot]
  rfl

theorem Moved.grounded {label : Label} (moved : Moved settings state next label)
    (grounded : Upload.Grounded state.uploads) : Upload.Grounded next.uploads := by
  cases moved with
  | aside notEnqueue notAccept uploads nodes drive =>
      rw [uploads.files]
      exact uploads.setFiles grounded
  | enqueue released owed begun nodes drive => exact grounded.step begun
  | accept sent issues replied nodes drive => exact grounded.step replied
  | upload background moved nodes drive => exact grounded.step moved

theorem Moved.boot_ready {label : Label} (moved : Moved settings state next label)
    (ready : state.uploads.boot = .ready) : next.uploads.boot = .ready := by
  cases moved with
  | aside notEnqueue notAccept uploads nodes drive =>
      rw [uploads.files]
      exact ready
  | enqueue released owed begun nodes drive => exact begun.boot_ready ready nofun
  | accept sent issues replied nodes drive => exact replied.boot_ready ready nofun
  | upload background moved nodes drive =>
      refine moved.boot_ready ready ?_
      rintro rfl
      cases background

/-- Only `release` enqueues files. -/
theorem Moved.enqueued_eq {label : Label} (moved : Moved settings state next label)
    (ready : state.uploads.boot = .ready)
    (notEnqueue : ∀ fd slot second, label ≠ .enqueue fd slot second) :
    next.uploads.enqueued = state.uploads.enqueued := by
  cases moved with
  | aside notEnqueue notAccept uploads nodes drive => rw [uploads.files]
  | enqueue released owed begun nodes drive => exact absurd rfl (notEnqueue _ _ _)
  | accept sent issues replied nodes drive =>
      rw [replied.of_accepted sent]
      rfl
  | upload background moved nodes drive =>
      refine (moved.histories ready).1 ?_
      rintro _ _ _ rfl
      cases background

/-- Drive changes by accepted uploads only. -/
theorem Moved.drive_eq {label : Label} (moved : Moved settings state next label)
    (ready : state.uploads.boot = .ready)
    (notAccept : ∀ slot nodeId modified, label ≠ .accept slot nodeId modified) :
    next.nodes = state.nodes ∧ next.driveContent = state.driveContent ∧
      next.uploads.accepted = state.uploads.accepted := by
  cases moved with
  | aside notEnqueue notAccept uploads nodes drive =>
      refine ⟨nodes, drive, ?_⟩
      rw [uploads.files]
  | enqueue released owed begun nodes drive =>
      exact ⟨nodes, drive, (begun.histories ready).2 nofun⟩
  | accept sent issues replied nodes drive => exact absurd rfl (notAccept _ _ _)
  | upload background moved nodes drive =>
      refine ⟨nodes, drive, (moved.histories ready).2 ?_⟩
      rintro _ _ rfl
      cases background

/-- What holds in every run, with crashes or without. -/
structure Grounded (state : State) : Prop where
  journaled : Journaled state
  uploads : Upload.Grounded state.uploads

theorem Grounded.step (grounded : Grounded state) {label : Label}
    (stepped : Stepped settings state label next) : Grounded next where
  journaled := grounded.journaled.step stepped
  uploads := by
    by_cases running : label = .crash
    · subst running
      cases stepped with
      | crash =>
          have crashed : Upload.Stepped 0 state.uploads .crash state.uploads.crash := .crash
          exact grounded.uploads.step crashed
    · exact (grounded.journaled.moved stepped running).grounded grounded.uploads

theorem Mounted.grounded (mounted : Mounted state) (off : state.uploads.boot = .off) :
    Grounded state where
  journaled := mounted.journaled
  uploads := by
    refine ⟨mounted.journaled.placed, ?_, ?_, fun started => absurd off started⟩
    · constructor
      · intro index holds
        rw [mounted.slots index] at holds
        exact holds.elim
      · intro left right holds
        rw [mounted.slots left] at holds
        exact holds.elim
      · intro fileIds sweeping
        rw [off] at sweeping
        cases sweeping
    · intro index call serial content safePath retries isSlot
      rw [mounted.slots index] at isSlot
      cases isSlot

theorem Mounted.grounded_of_reaches {allowed : State → Label → Prop} {start finish : State}
    (mounted : Mounted start) (off : start.uploads.boot = .off)
    (reached : Transition.Reaches (Fuse.step settings) allowed start finish) : Grounded finish :=
  reached.invariant (fun grounded _ taken => grounded.step (stepped_of_step taken))
    (mounted.grounded off)

end Moved

end FuseDrive.Fuse
