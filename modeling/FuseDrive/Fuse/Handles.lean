import FuseDrive.ByteFile
import FuseDrive.Cache.MetadataCache

/-!
# Writing handles

`FuseOps.open` gives a writing handle an empty journal file and leaves the
base content to the first `read`, `write` or `truncate` call, which
`_ensure_downloaded` fetches if the metadata cache knows a positive size.
After that call the flag `base_downloaded` is set whether or not anything was
fetched.  So a handle works on the content of the Drive file exactly when its
first call finds a record with a positive size, or there is nothing to fetch.
-/

namespace FuseDrive.Fuse

/-- An `open_files` entry with `is_write` set; its file is below the journal
directory. -/
structure WriteHandle where
  temp : TempFile
  isModified : Bool
  baseDownloaded : Bool
deriving DecidableEq

/-- The writing branch of `FuseOps.open`. -/
def openForWriting (isTruncate : Bool) : WriteHandle where
  temp := .mkstemp
  isModified := isTruncate
  baseDownloaded := isTruncate

/-- `_ensure_downloaded`; `metadata` is what the metadata cache answers and
`fetch` the content of the pending upload or of Drive. -/
def ensureDownloaded (metadata : Option DriveNodeMetadata) (fetch : Bytes)
    (handle : WriteHandle) : WriteHandle :=
  if handle.baseDownloaded then handle
  else
    match metadata with
    | some node =>
        if 0 < node.size then
          { handle with temp := handle.temp.write fetch, baseDownloaded := true }
        else { handle with baseDownloaded := true }
    | none => { handle with baseDownloaded := true }

/-- What `FuseOps.read` does with a handle whose base was ensured. -/
def readTemp (handle : WriteHandle) (offset length : Nat) : Bytes × WriteHandle :=
  let (data, temp) := (handle.temp.lseek offset).read length
  (data, { handle with temp := temp })

/-- What `FuseOps.write` does with a handle whose base was ensured. -/
def writeTemp (handle : WriteHandle) (data : Bytes) (offset : Nat) : WriteHandle :=
  { handle with temp := (handle.temp.lseek offset).write data, isModified := true }

/-- What `FuseOps.truncate` does with a handle whose base was ensured. -/
def truncateTemp (handle : WriteHandle) (length : Nat) : WriteHandle :=
  { handle with temp := handle.temp.ftruncate length, isModified := true }

/-- What `FuseOps.release` hands to `enqueue_file_for_upload`. -/
def releaseContent (handle : WriteHandle) : Option Bytes :=
  if handle.isModified then some handle.temp.bytes else none

/-! ## One handle and the metadata cache -/

/-- The calls that reach a handle. -/
inductive Call where
  | read (length offset : Nat)
  | write (data : Bytes) (offset : Nat)
  | truncate (length : Nat)

/-- What happens around them: the cached record of the file expires, is
evicted or is stored again, and a `truncate` call fails because its path does
not resolve. -/
inductive Outside where
  | expire
  | record (metadata : DriveNodeMetadata)
  | unresolvedTruncate (length : Nat)

inductive Event where
  | call (call : Call)
  | outside (event : Outside)

/-- A handle, the cached record of its file, the content of the pending
upload if one is queued and the content Drive has. -/
structure Session where
  handle : WriteHandle
  cached : Option DriveNodeMetadata
  pending : Option Bytes
  drive : Bytes

namespace Session

/-- A session that begins with `FuseOps.open` without `O_TRUNC`. -/
def opened (cached : Option DriveNodeMetadata) (pending : Option Bytes)
    (drive : Bytes) : Session :=
  ⟨openForWriting false, cached, pending, drive⟩

/-- The current content of the file. -/
def current (session : Session) : Bytes :=
  session.pending.getD session.drive

def ensured (session : Session) : WriteHandle :=
  ensureDownloaded session.cached session.current session.handle

/-- A call on the handle, with the bytes a `read` returns. -/
def call (session : Session) : Call → List Bytes × Session
  | .read length offset =>
      let (data, handle) := readTemp session.ensured offset length
      ([data], { session with handle := handle })
  | .write data offset =>
      ([], { session with handle := writeTemp session.ensured data offset })
  | .truncate length =>
      ([], { session with handle := truncateTemp session.ensured length })

def outside (session : Session) : Outside → Session
  | .expire => { session with cached := none }
  | .record metadata => { session with cached := some metadata }
  | .unresolvedTruncate _ => session

/-- All bytes read along a list of events, and the session after it. -/
def run (session : Session) : List Event → List Bytes × Session
  | [] => ([], session)
  | .call call :: events =>
      let (data, next) := session.call call
      let (later, final) := next.run events
      (data ++ later, final)
  | .outside event :: events => (session.outside event).run events

end Session

/-! ## What the calls mean -/

/-- A call on a content instead of a handle. -/
def Call.meaning (content : Bytes) : Call → List Bytes × Bytes
  | .read length offset => ([slice content offset length], content)
  | .write data offset => ([], content.overwrite offset data)
  | .truncate length => ([], content.resize length)

def meaning (content : Bytes) : List Event → List Bytes × Bytes
  | [] => ([], content)
  | .call call :: events =>
      let (data, next) := call.meaning content
      let (later, final) := meaning next events
      (data ++ later, final)
  | .outside _ :: events => meaning content events

/-- Every read returns the slice of the current content with the earlier
edits applied, and what `release` hands over is the content with all of them
applied. -/
def Exact (session : Session) (events : List Event) : Prop :=
  (session.run events).1 = (meaning session.current events).1 ∧
    ∀ content, releaseContent (session.run events).2.handle = some content →
      content = (meaning session.current events).2

theorem meaning_outside (content : Bytes) (before : List Outside)
    (events : List Event) :
    meaning content (before.map .outside ++ events) = meaning content events := by
  induction before with
  | nil => rfl
  | cons event before induction => exact induction

namespace Session

theorem ensured_of_downloaded {session : Session}
    (downloaded : session.handle.baseDownloaded = true) :
    session.ensured = session.handle := by
  simp [ensured, ensureDownloaded, downloaded]

/-- Whatever it finds, `_ensure_downloaded` never runs twice. -/
theorem ensured_baseDownloaded (session : Session) :
    session.ensured.baseDownloaded = true := by
  unfold ensured ensureDownloaded
  split
  · assumption
  · split
    · split <;> rfl
    · rfl

theorem call_meaning (session : Session) (call : Call) :
    (session.call call).1 = (call.meaning session.ensured.temp.bytes).1 ∧
      (session.call call).2.handle.temp.bytes =
        (call.meaning session.ensured.temp.bytes).2 ∧
      (session.call call).2.handle.baseDownloaded = true := by
  cases call with
  | read length offset => exact ⟨rfl, rfl, session.ensured_baseDownloaded⟩
  | write data offset => exact ⟨rfl, rfl, session.ensured_baseDownloaded⟩
  | truncate length => exact ⟨rfl, rfl, session.ensured_baseDownloaded⟩

/-- Once the base is there a session acts on the content of its temp file. -/
theorem run_of_downloaded {session : Session}
    (downloaded : session.handle.baseDownloaded = true) (events : List Event) :
    (session.run events).1 = (meaning session.handle.temp.bytes events).1 ∧
      (session.run events).2.handle.temp.bytes =
        (meaning session.handle.temp.bytes events).2 := by
  induction events generalizing session with
  | nil => exact ⟨rfl, rfl⟩
  | cons event events induction =>
      cases event with
      | call call =>
          obtain ⟨data, bytes, still⟩ := session.call_meaning call
          rw [ensured_of_downloaded downloaded] at data bytes
          obtain ⟨later, final⟩ := induction still
          rw [bytes] at later final
          exact ⟨congrArg₂ (· ++ ·) data later, final⟩
      | outside event => cases event <;> exact induction downloaded

/-- From the first call on a session acts on the ensured content. -/
theorem run_call (session : Session) (first : Call) (rest : List Event) :
    (session.run (.call first :: rest)).1 =
        (meaning session.ensured.temp.bytes (.call first :: rest)).1 ∧
      (session.run (.call first :: rest)).2.handle.temp.bytes =
        (meaning session.ensured.temp.bytes (.call first :: rest)).2 := by
  obtain ⟨data, bytes, downloaded⟩ := session.call_meaning first
  obtain ⟨later, final⟩ := run_of_downloaded downloaded rest
  rw [bytes] at later final
  exact ⟨congrArg₂ (· ++ ·) data later, final⟩

/-! ## Before the first call -/

/-- The record that is cached after some events outside. -/
def recordAfter (cached : Option DriveNodeMetadata) :
    List Outside → Option DriveNodeMetadata
  | [] => cached
  | .expire :: events => recordAfter none events
  | .record metadata :: events => recordAfter (some metadata) events
  | .unresolvedTruncate _ :: events => recordAfter cached events

theorem run_outside (session : Session) (before : List Outside) (events : List Event) :
    session.run (before.map .outside ++ events) =
      Session.run { session with cached := recordAfter session.cached before } events := by
  induction before generalizing session with
  | nil => rfl
  | cons event before induction =>
      cases event <;> exact induction _

theorem opened_ensured_bytes (cached : Option DriveNodeMetadata)
    (pending : Option Bytes) (drive : Bytes) :
    (opened cached pending drive).ensured.temp.bytes =
      if ∃ node, cached = some node ∧ 0 < node.size then pending.getD drive else [] := by
  cases cached with
  | none => simp [opened, ensured, ensureDownloaded, openForWriting, TempFile.mkstemp]
  | some node =>
      by_cases positive : 0 < node.size
      · simp [opened, ensured, ensureDownloaded, openForWriting, positive, current]
      · simp [opened, ensured, ensureDownloaded, openForWriting, positive,
          TempFile.mkstemp]

end Session

/-- Whatever calls and cache events follow, a handle opened without `O_TRUNC`
works on the content of its file exactly when its first call finds a record
with a positive size, or that content is empty. -/
theorem exact_iff_recorded (cached : Option DriveNodeMetadata) (pending : Option Bytes)
    (drive : Bytes) (before : List Outside) :
    (∀ first rest, Exact (Session.opened cached pending drive)
        (before.map .outside ++ .call first :: rest)) ↔
      pending.getD drive = [] ∨
        ∃ node, Session.recordAfter cached before = some node ∧ 0 < node.size := by
  have run (events : List Event) :
      (Session.opened cached pending drive).run (before.map .outside ++ events) =
        (Session.opened (Session.recordAfter cached before) pending drive).run events :=
    Session.run_outside _ before events
  have start := Session.opened_ensured_bytes (Session.recordAfter cached before)
    pending drive
  constructor
  · intro exact_
    by_contra neither
    rw [not_or] at neither
    obtain ⟨nonempty, unrecorded⟩ := neither
    -- reading the whole content as the first call returns nothing
    have wrong := (exact_ (.read (pending.getD drive).length 0) []).1
    rw [run, meaning_outside, (Session.run_call _ _ _).1, start, if_neg unrecorded]
      at wrong
    have whole : [] = pending.getD drive := by
      simpa [meaning, Call.meaning, slice, Session.opened, Session.current]
        using wrong
    exact nonempty whole.symm
  · intro condition first rest
    have bytes : (Session.opened (Session.recordAfter cached before) pending
        drive).ensured.temp.bytes = (Session.opened cached pending drive).current := by
      rw [start]
      rcases condition with empty | recorded
      · split
        · rfl
        · exact empty.symm
      · exact if_pos recorded
    have ran := Session.run_call
      (Session.opened (Session.recordAfter cached before) pending drive) first rest
    rw [bytes] at ran
    unfold Exact
    rw [run, meaning_outside]
    refine ⟨ran.1, fun content released => ?_⟩
    unfold releaseContent at released
    split at released
    · exact (Option.some.inj released).symm.trans ran.2
    · cases released

/-- A record that expires between `open` and the first `write` costs the base:
one byte is appended to a file of one byte, and the handle releases a zero in
its place. -/
theorem exact_fails_after_expiry :
    ¬ ∀ cached pending drive events,
      Exact (Session.opened cached pending drive) events := by
  intro holds
  have released := (holds (some ⟨['f'], ['f'], false, 1, 0⟩) none [1]
    [.outside .expire, .call (.write [2] 1)]).2 [0, 2] rfl
  revert released
  decide

end FuseDrive.Fuse
