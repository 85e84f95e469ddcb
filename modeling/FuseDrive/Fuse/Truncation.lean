import FuseDrive.Fuse.Handles
import FuseDrive.Cache.RangeRead

/-!
# Truncation by path and by handle

`FuseOps.truncate` gets a path and, sometimes, the number of a handle.  It
answers 0 at four exits: only the one for a writing handle changes a file.
Without a writing handle nothing is cut, and the call is as good as successful
when the file has the wanted length already.  This module says for every
argument exactly when an answer of 0 is the truth.

The truth is what is read next.  A reading handle takes the content of a pending
upload; without one it needs the cached record, whose size ends the file, and
collects chunks from the caches and from Drive.

The path is one of Drive; local-only files are truncated on disk.
-/

namespace FuseDrive.Fuse

open Cache (Config ReadCall)

/-- An `open_files` entry with `is_write` set.  Until its base is there nothing
has touched its file. -/
structure OpenWriter where
  handle : WriteHandle
  lazy : handle.baseDownloaded = false → handle = openForWriting false

/-- The argument `file_handle` of `truncate`. -/
inductive HandleArgument where
  | none
  /-- A number that is not in `open_files`. -/
  | unknown
  /-- A handle with `is_write` unset. -/
  | readOnly
  | writable (writer : OpenWriter)

/-- What a call on a Drive path depends on: whether the path resolves, the
cached record, the content of a pending upload, the content Drive has, whether
Drive can be reached and the chunks that memory or the disk has. -/
structure DriveFile where
  fileId : Str
  resolves : Bool
  cached : Option DriveNodeMetadata
  pending : Option Bytes
  drive : Bytes
  reachable : Bool
  held : Nat → Option Bytes

/-- What `truncate` raises. -/
inductive TruncateError where
  | enoent
  /-- The exception of `get_file_content`. -/
  | storage

namespace DriveFile

/-- The content of the file. -/
def current (file : DriveFile) : Bytes :=
  file.pending.getD file.drive

/-- `_ensure_downloaded` finds a record with a positive size. -/
def Recorded (file : DriveFile) : Prop :=
  ∃ node, file.cached = some node ∧ 0 < node.size

instance (file : DriveFile) : Decidable file.Recorded :=
  inferInstanceAs (Decidable (∃ node, file.cached = some node ∧ 0 < node.size))

/-- `_ensure_downloaded` asks Drive for the content and gets an exception. -/
def FetchRaises (file : DriveFile) (handle : WriteHandle) : Prop :=
  handle.baseDownloaded = false ∧ file.Recorded ∧ file.pending.isNone ∧
    file.reachable = false

instance (file : DriveFile) (handle : WriteHandle) : Decidable (file.FetchRaises handle) :=
  inferInstanceAs (Decidable (_ ∧ _))

def ensured (file : DriveFile) (handle : WriteHandle) : WriteHandle :=
  ensureDownloaded file.cached file.current handle

theorem ensured_baseDownloaded (file : DriveFile) (handle : WriteHandle) :
    (file.ensured handle).baseDownloaded = true :=
  Session.ensured_baseDownloaded ⟨handle, file.cached, file.pending, file.drive⟩

/-- `FuseOps.truncate`; an answer of 0 comes with the handle after the call. -/
def truncate (file : DriveFile) (length : Nat) (argument : HandleArgument) :
    Except TruncateError HandleArgument :=
  if file.resolves then
    match argument with
    | .writable writer =>
        if file.FetchRaises writer.handle then .error .storage
        else
          .ok (.writable
            { handle := truncateTemp (file.ensured writer.handle) length
              lazy := fun notYet => by
                cases notYet.symm.trans (file.ensured_baseDownloaded writer.handle) })
    | .none | .unknown | .readOnly => .ok argument
  else .error .enoent

/-! ## What is read afterwards -/

/-- The content before the call: that of the handle once it has one. -/
def base (file : DriveFile) : HandleArgument → Bytes
  | .writable writer =>
      if writer.handle.baseDownloaded then writer.handle.temp.bytes else file.current
  | .none | .unknown | .readOnly => file.current

/-- The file when the pending upload is done. -/
def uploaded (file : DriveFile) : DriveFile :=
  { file with pending := none, drive := file.current }

/-- What a read raises. -/
inductive ReadError where
  | enoent
  /-- Drive refuses a range that begins after its content. -/
  | storage

/-- A chunk from memory, from the disk or from `download_chunk_from_drive_api`. -/
def chunkData (config : Config) (file : DriveFile) (total chunk : Nat) :
    Except ReadError Bytes :=
  match file.held chunk with
  | some data => .ok data
  | none =>
      if total ≤ config.chunkStart chunk then .ok []
      else if file.drive.length ≤ config.chunkStart chunk then .error .storage
      else .ok (slice file.drive (config.chunkStart chunk)
        (config.chunkEnd chunk total + 1 - config.chunkStart chunk))

/-- The loop of `read_content_range_with_caching`. -/
def collect (config : Config) (file : DriveFile) (call : ReadCall) :
    List Nat → Bytes → Except ReadError Bytes
  | [], result => .ok result
  | chunk :: todo, result =>
      match file.chunkData config call.total chunk with
      | .ok data => file.collect config call todo (result ++ config.piece call chunk data)
      | .error error => .error error

def readContentRangeWithCaching (config : Config) (file : DriveFile) (call : ReadCall) :
    Except ReadError Bytes :=
  if call.total ≤ call.offset then .ok []
  else file.collect config call (config.chunks call) []

/-- `FuseOps.read` through a reading handle; Drive can be reached then. -/
def read (config : Config) (file : DriveFile) (offset count : Nat) :
    Except ReadError Bytes :=
  match file.pending, file.cached with
  | some content, _ => .ok (slice content offset count)
  | none, none => .error .enoent
  | none, some node =>
      file.readContentRangeWithCaching config ⟨file.fileId, offset, count, node.size⟩

/-- The next read: through the handle, or else through a fresh reading handle
once uploads are done. -/
def readBack (config : Config) (file : DriveFile) (offset count : Nat) :
    HandleArgument → Except ReadError Bytes
  | .writable writer => .ok (readTemp (file.ensured writer.handle) offset count).1
  | .readOnly => file.read config offset count
  | .none | .unknown => file.uploaded.read config offset count

/-- If the call answers 0, what is read next is the base, cut or filled with
zeros to the wanted length. -/
def Truthful (config : Config) (file : DriveFile) (length : Nat)
    (argument : HandleArgument) : Prop :=
  ∀ after, file.truncate length argument = .ok after →
    ∀ offset count,
      file.readBack config offset count after =
        .ok (slice ((file.base argument).resize length) offset count)

/-- A chunk on which a read of the wanted content does not go wrong: as it is
held, or else, before the end of the record, with as many bytes on Drive. -/
def ChunkFits (config : Config) (file : DriveFile) (length total chunk : Nat) : Prop :=
  match file.held chunk with
  | some data =>
      data.take config.chunkSize = config.chunkOf (file.current.resize length) chunk
  | none =>
      config.chunkStart chunk < total →
        config.chunkStart chunk < file.current.length ∧
          min config.chunkSize
              (min total file.current.length - config.chunkStart chunk) =
            min config.chunkSize (length - config.chunkStart chunk)

/-- There is a record of the file that lets a reading handle see the wanted
length, and every chunk fits. -/
def RecordFits (config : Config) (file : DriveFile) (length : Nat) : Prop :=
  ∃ node, file.cached = some node ∧ length ≤ node.size ∧
    (0 < node.size → ∀ chunk, file.ChunkFits config length node.size chunk)

/-- The inputs on which the call keeps its word. -/
def KeepsWord (config : Config) (file : DriveFile) (length : Nat) : HandleArgument → Prop
  | .writable writer =>
      writer.handle.baseDownloaded = true ∨ file.Recorded ∨
        ∀ byte ∈ file.current.take length, byte = 0
  | .readOnly =>
      match file.pending with
      | some content => content.length = length
      | none => file.RecordFits config length
  | .none | .unknown => file.RecordFits config length

end DriveFile

/-! ## Contents and their slices -/

theorem eq_of_slices {left right : Bytes}
    (same : ∀ offset count, slice left offset count = slice right offset count) :
    left = right := by
  have whole := same 0 (max left.length right.length)
  simpa [slice, List.take_of_length_le (Nat.le_max_left _ _),
    List.take_of_length_le (Nat.le_max_right _ _)] using whole

theorem resize_eq_self_iff {bytes : Bytes} {length : Nat} :
    bytes.resize length = bytes ↔ bytes.length = length := by
  constructor
  · intro same
    rw [← same, Bytes.length_resize]
  · rintro rfl
    simp [Bytes.resize]

theorem resize_nil_eq_iff {bytes : Bytes} {length : Nat} :
    Bytes.resize [] length = bytes.resize length ↔ ∀ byte ∈ bytes.take length, byte = 0 := by
  have zeros : Bytes.resize [] length = List.replicate length 0 := by simp [Bytes.resize]
  rw [zeros, eq_comm, List.eq_replicate_iff]
  constructor
  · intro same byte member
    exact same.2 byte (List.mem_append_left _ member)
  · intro allZero
    refine ⟨Bytes.length_resize bytes length, fun byte member => ?_⟩
    rcases List.mem_append.mp member with inside | padding
    · exact allZero byte inside
    · exact List.eq_of_mem_replicate padding

/-- Part of a content and part of it cut or filled agree as soon as they have
the same number of bytes. -/
theorem slice_eq_slice_resize_iff {bytes : Bytes} {length offset fewer count : Nat}
    (inside : offset < bytes.length) :
    slice bytes offset fewer = slice (bytes.resize length) offset count ↔
      min fewer (bytes.length - offset) = min count (length - offset) := by
  constructor
  · intro same
    simpa [slice] using congrArg List.length same
  · intro sameLength
    apply List.ext_getElem
    · simpa [slice] using sameLength
    · intro index left right
      have short : index < min fewer (bytes.length - offset) := by simpa [slice] using left
      have kept : offset + index < (bytes.take length).length := by
        rw [List.length_take]
        omega
      simp [slice, Bytes.resize, List.getElem_append_left kept]

/-! ## Reading handles -/

theorem piece_take (config : Config) (call : ReadCall) (chunk : Nat) (data : Bytes) :
    config.piece call chunk (data.take config.chunkSize) = config.piece call chunk data := by
  have whole : data.take config.chunkSize = slice data 0 config.chunkSize := by simp [slice]
  unfold Config.piece
  dsimp only
  rw [whole]
  generalize ends : min config.chunkSize
    (call.offset + call.length - config.chunkStart chunk) = relEnd
  by_cases nothing : relEnd ≤ call.offset - config.chunkStart chunk
  · rw [Nat.sub_eq_zero_of_le nothing, slice_zero, slice_zero]
  · rw [slice_slice (by omega), Nat.zero_add]

/-- The chunks from the beginning of a file to the end of a chunk. -/
theorem chunks_prefix (config : Config) (fileId : Str) (chunk total : Nat) :
    config.chunks ⟨fileId, 0, config.chunkStart (chunk + 1), total⟩ =
      List.range' 0 (chunk + 1) := by
  have positive := config.chunkSize_pos
  have next := config.chunkStart_succ chunk
  have last : (0 + config.chunkStart (chunk + 1) - 1) / config.chunkSize = chunk := by
    apply Nat.div_eq_of_lt_le
    · have start : chunk * config.chunkSize = config.chunkStart chunk := rfl
      omega
    · have start : (chunk + 1) * config.chunkSize = config.chunkStart (chunk + 1) := rfl
      omega
  have ends := config.endChunk_of_pos ⟨fileId, 0, config.chunkStart (chunk + 1), total⟩
    (by dsimp only; omega)
  unfold Config.chunks
  rw [ends]
  simp only [last, Config.startChunk, Nat.zero_div]
  rfl

namespace DriveFile

section Reading

variable (config : Config) (file : DriveFile)

/-- A read gets the right bytes for a chunk. -/
def Gets (wanted : Bytes) (total chunk : Nat) : Prop :=
  ∃ data, file.chunkData config total chunk = .ok data ∧
    data.take config.chunkSize = config.chunkOf wanted chunk

/-- Chunks that are right are added to the result as parts of the content. -/
theorem collect_append_of_gets (call : ReadCall) (wanted : Bytes) (first later : List Nat)
    (result : Bytes) (right : ∀ chunk ∈ first, file.Gets config wanted call.total chunk) :
    file.collect config call (first ++ later) result =
      file.collect config call later
        (result ++ first.flatMap fun chunk =>
          config.piece call chunk (config.chunkOf wanted chunk)) := by
  induction first generalizing result with
  | nil => simp
  | cons chunk first induction =>
      obtain ⟨data, fetched, same⟩ := right chunk (by simp)
      have rest := induction (result ++ config.piece call chunk data)
        fun other member => right other (by simp [member])
      rw [List.cons_append, collect, fetched]
      dsimp only
      rw [rest, ← piece_take config call chunk data, same, List.flatMap_cons,
        List.append_assoc]

theorem read_of_gets (wanted : Bytes) (node : DriveNodeMetadata)
    (settled : file.pending = none) (cached : file.cached = some node)
    (short : wanted.length ≤ node.size)
    (right : 0 < node.size → ∀ chunk, file.Gets config wanted node.size chunk)
    (offset count : Nat) :
    file.read config offset count = .ok (slice wanted offset count) := by
  simp only [read, settled, cached, readContentRangeWithCaching]
  by_cases past : node.size ≤ offset
  · rw [if_pos past, slice_of_length_le (short.trans past)]
  · rw [if_neg past]
    have collected := file.collect_append_of_gets config
      ⟨file.fileId, offset, count, node.size⟩ wanted
      (config.chunks ⟨file.fileId, offset, count, node.size⟩) [] []
      fun chunk _ => right (by omega) chunk
    rw [List.append_nil, config.flatMap_chunks] at collected
    exact collected

/-- Reads from the beginning of the file, one chunk longer each time, show what
each chunk is. -/
theorem gets_of_read (wanted : Bytes) (node : DriveNodeMetadata)
    (settled : file.pending = none) (cached : file.cached = some node)
    (exact : ∀ offset count, file.read config offset count = .ok (slice wanted offset count))
    (inside : 0 < node.size) (chunk : Nat) : file.Gets config wanted node.size chunk := by
  induction chunk using Nat.strong_induction_on with
  | _ chunk earlier =>
      have positive := config.chunkSize_pos
      have next := config.chunkStart_succ chunk
      have answer := exact 0 (config.chunkStart (chunk + 1))
      simp only [read, settled, cached, readContentRangeWithCaching] at answer
      rw [if_neg (by omega), chunks_prefix, ← List.range'_append_1 (s := 0) (m := chunk),
        file.collect_append_of_gets config _ wanted _ _ []
          fun other member => earlier other (by
            have := (List.mem_range'_1.mp member).2
            omega)] at answer
      rw [config.flatMap_piece _ wanted chunk (by simp [Config.startChunk])] at answer
      have before : max 0 (config.chunkStart 0) = 0 := by simp [Config.chunkStart]
      have ends : min (0 + config.chunkStart (chunk + 1)) (config.chunkStart (0 + chunk)) - 0 =
          config.chunkStart chunk := by
        rw [Nat.zero_add, Nat.zero_add]
        omega
      rw [before, ends, List.range'_one, List.nil_append, collect, Nat.zero_add] at answer
      cases fetched : file.chunkData config node.size chunk with
      | error error => simp [fetched] at answer
      | ok data =>
          simp only [fetched, collect, Except.ok.injEq] at answer
          have split := slice_append_slice wanted 0 (config.chunkStart chunk) config.chunkSize
          rw [Nat.zero_add, ← next, ← answer] at split
          have length : min config.chunkSize
              (0 + config.chunkStart (chunk + 1) - config.chunkStart chunk) =
                config.chunkSize := by omega
          have whole := List.append_cancel_left split
          simp only [Config.piece, length, Nat.zero_sub, Nat.sub_zero] at whole
          exact ⟨data, fetched, whole.symm⟩

/-- A chunk is got right exactly if it fits. -/
theorem gets_iff_chunkFits {length total : Nat} (settled : file.pending = none)
    (short : length ≤ total) (chunk : Nat) :
    file.Gets config (file.current.resize length) total chunk ↔
      file.ChunkFits config length total chunk := by
  have current : file.current = file.drive := by simp [DriveFile.current, settled]
  have positive := config.chunkSize_pos
  unfold Gets ChunkFits chunkData
  cases held : file.held chunk with
  | some data => simp
  | none =>
      simp only
      by_cases past : total ≤ config.chunkStart chunk
      · have nothing : config.chunkOf (file.current.resize length) chunk = [] :=
          slice_of_length_le (by rw [Bytes.length_resize]; omega) _
        simp [past, nothing, Nat.not_lt.mpr past]
      · rw [if_neg past]
        by_cases refused : file.drive.length ≤ config.chunkStart chunk
        · simp [refused, current, Nat.lt_of_not_le past, Nat.not_lt.mpr refused]
        · have count : config.chunkEnd chunk total + 1 - config.chunkStart chunk =
              min config.chunkSize (total - config.chunkStart chunk) := by
            unfold Config.chunkEnd
            omega
          have whole : (slice file.drive (config.chunkStart chunk)
              (min config.chunkSize (total - config.chunkStart chunk))).take
                config.chunkSize =
              slice file.drive (config.chunkStart chunk)
                (min config.chunkSize (total - config.chunkStart chunk)) :=
            List.take_of_length_le (by simp [slice])
          rw [if_neg refused, count]
          simp only [Except.ok.injEq, exists_eq_left', whole, current, Config.chunkOf,
            Nat.lt_of_not_le past, Nat.lt_of_not_le refused, true_and, true_implies]
          rw [slice_eq_slice_resize_iff (Nat.lt_of_not_le refused)]
          constructor <;> intro same <;> omega

/-- Reads give the wanted content exactly if the record fits. -/
theorem read_exact_iff (settled : file.pending = none) (length : Nat) :
    (∀ offset count, file.read config offset count =
        .ok (slice (file.current.resize length) offset count)) ↔
      file.RecordFits config length := by
  constructor
  · intro exact
    cases cached : file.cached with
    | none =>
        have answer := exact 0 0
        simp [read, settled, cached] at answer
    | some node =>
        have short : length ≤ node.size := by
          have answer := exact node.size 1
          simp only [read, settled, cached, readContentRangeWithCaching, le_refl, if_true]
            at answer
          have nothing := congrArg List.length (Except.ok.inj answer)
          simp only [slice, List.length_nil, List.length_take, List.length_drop,
            Bytes.length_resize] at nothing
          omega
        refine ⟨node, cached, short, fun inside chunk => ?_⟩
        exact (file.gets_iff_chunkFits config settled short chunk).mp
          (file.gets_of_read config _ node settled cached exact inside chunk)
  · intro fits
    obtain ⟨node, cached, short, right⟩ := fits
    apply file.read_of_gets config _ node settled cached
    · rwa [Bytes.length_resize]
    · intro inside chunk
      exact (file.gets_iff_chunkFits config settled short chunk).mpr (right inside chunk)

/-- With empty caches the shorter of record and content has the wanted length,
and no chunk that begins before the end of the record begins after the content. -/
theorem recordFits_iff_of_nothing_held (nothingHeld : ∀ chunk, file.held chunk = none)
    (length : Nat) :
    file.RecordFits config length ↔
      ∃ node, file.cached = some node ∧ min node.size file.current.length = length ∧
        ∀ chunk, config.chunkStart chunk < node.size →
          config.chunkStart chunk < file.current.length := by
  simp only [RecordFits, ChunkFits, nothingHeld]
  constructor
  · intro fits
    obtain ⟨node, cached, short, right⟩ := fits
    refine ⟨node, cached, ?_, fun chunk inside => (right (by omega) chunk inside).1⟩
    -- otherwise the chunk in which the shorter of the two ends tells them apart
    by_contra other
    let last := min (min node.size file.current.length) length / config.chunkSize
    have start : config.chunkStart last ≤ min (min node.size file.current.length) length :=
      Nat.div_mul_le_self _ _
    have ends : min (min node.size file.current.length) length <
        config.chunkStart last + config.chunkSize :=
      Nat.lt_div_mul_add config.chunkSize_pos
    have sameLength := (right (by omega) last (by omega)).2
    omega
  · intro fits
    obtain ⟨node, cached, length, reached⟩ := fits
    refine ⟨node, cached, by omega, fun _ chunk inside => ⟨reached chunk inside, ?_⟩⟩
    rw [length]

end Reading

/-- The content `_ensure_downloaded` leaves in a fresh file. -/
theorem ensured_fresh_bytes (file : DriveFile) :
    (file.ensured (openForWriting false)).temp.bytes =
      if file.Recorded then file.current else [] :=
  Session.opened_ensured_bytes file.cached file.pending file.drive

theorem ensured_of_downloaded (file : DriveFile) {handle : WriteHandle}
    (downloaded : handle.baseDownloaded = true) : file.ensured handle = handle := by
  simp [ensured, ensureDownloaded, downloaded]

theorem readBack_truncateTemp (config : Config) (file : DriveFile) (writer : OpenWriter)
    (length : Nat) (lazy) (offset count : Nat) :
    file.readBack config offset count
        (.writable ⟨truncateTemp (file.ensured writer.handle) length, lazy⟩) =
      .ok (slice ((file.ensured writer.handle).temp.bytes.resize length) offset count) := by
  have downloaded : (truncateTemp (file.ensured writer.handle) length).baseDownloaded = true :=
    file.ensured_baseDownloaded writer.handle
  rw [readBack, file.ensured_of_downloaded downloaded]
  rfl

theorem truthful_iff_of_unchanged (config : Config) (file : DriveFile) {length : Nat}
    {argument : HandleArgument}
    (answer : file.truncate length argument = .ok argument)
    (base : file.base argument = file.current) :
    file.Truthful config length argument ↔
      ∀ offset count, file.readBack config offset count argument =
        .ok (slice (file.current.resize length) offset count) := by
  constructor
  · intro truthful offset count
    rw [truthful argument answer offset count, base]
  · intro exact after answered offset count
    rw [answer] at answered
    cases answered
    rw [exact, base]

/-- With a writing handle the base is cut if there is one. -/
theorem truthful_writable_iff (config : Config) (file : DriveFile) (length : Nat)
    (writer : OpenWriter) (resolved : file.resolves = true)
    (fetched : ¬ file.FetchRaises writer.handle) :
    file.Truthful config length (.writable writer) ↔
      (file.ensured writer.handle).temp.bytes.resize length =
        (file.base (.writable writer)).resize length := by
  constructor
  · intro truthful
    apply eq_of_slices
    intro offset count
    have answer := truthful _ (by rw [truncate, if_pos resolved, if_neg fetched])
      offset count
    rw [readBack_truncateTemp] at answer
    exact Except.ok.inj answer
  · intro same after answered offset count
    rw [truncate, if_pos resolved, if_neg fetched] at answered
    cases answered
    rw [readBack_truncateTemp, same]

theorem read_pending_iff (config : Config) (file : DriveFile) {content : Bytes}
    (pending : file.pending = some content) (length : Nat) :
    (∀ offset count, file.read config offset count =
        .ok (slice (file.current.resize length) offset count)) ↔
      content.length = length := by
  have current : file.current = content := by simp [DriveFile.current, pending]
  rw [current, ← resize_eq_self_iff]
  constructor
  · intro exact
    apply eq_of_slices
    intro offset count
    have answer := exact offset count
    simp only [read, pending] at answer
    exact (Except.ok.inj answer).symm
  · intro same offset count
    simp only [read, pending, same]

/-- For every path that resolves, every argument and every content. -/
theorem truncate_truthful_iff (config : Config) (file : DriveFile) (length : Nat)
    (argument : HandleArgument) :
    file.Truthful config length argument ↔
      file.resolves = false ∨ file.KeepsWord config length argument := by
  cases resolved : file.resolves with
  | false =>
      simp only [true_or, iff_true]
      intro after answered
      simp [truncate, resolved] at answered
  | true =>
      simp only [Bool.true_eq_false, false_or]
      cases argument with
      | none | unknown =>
          rw [file.truthful_iff_of_unchanged config (by simp [truncate, resolved]) rfl]
          exact file.uploaded.read_exact_iff config rfl length
      | readOnly =>
          rw [file.truthful_iff_of_unchanged config (by simp [truncate, resolved]) rfl]
          simp only [readBack, KeepsWord]
          cases pending : file.pending with
          | none => exact file.read_exact_iff config pending length
          | some content => exact file.read_pending_iff config pending length
      | writable writer =>
          by_cases raises : file.FetchRaises writer.handle
          · -- the call raises, and the record it looked for was there
            constructor
            · exact fun _ => Or.inr (Or.inl raises.2.1)
            · intro _ after answered
              simp [truncate, resolved, raises] at answered
          · rw [file.truthful_writable_iff config length writer resolved raises]
            cases downloaded : writer.handle.baseDownloaded with
            | true =>
                simp [base, KeepsWord, downloaded, file.ensured_of_downloaded downloaded]
            | false =>
                have fresh := writer.lazy downloaded
                have notYet : (openForWriting false).baseDownloaded = false := rfl
                simp only [base, KeepsWord, fresh, notYet, ensured_fresh_bytes,
                  Bool.false_eq_true, if_false, false_or]
                by_cases recorded : file.Recorded
                · simp [recorded]
                · simp [recorded, resize_nil_eq_iff]

end DriveFile

/-- Truncating a file of one byte to nothing without a handle answers 0 and
leaves the byte. -/
theorem truncate_keeps_tail :
    ¬ ∀ config (file : DriveFile) length argument, file.Truthful config length argument := by
  intro holds
  have read : (.ok [1] : Except DriveFile.ReadError Bytes) = .ok [] :=
    holds ⟨4, Nat.succ_pos 3, false⟩
      ⟨['f'], true, some ⟨['f'], ['f'], false, 1, 0⟩, none, [1], true, fun _ => none⟩ 0 .none
      .none rfl 0 1
  cases read

end FuseDrive.Fuse
