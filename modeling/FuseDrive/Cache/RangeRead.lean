import FuseDrive.Cache.ChunkLaw
import FuseDrive.Cache.Progress

/-!
# Range reads are exact

While the content of a file does not change, every chunk of it in the caches
and in the download tasks is the corresponding chunk of the content, so that
the pieces a reader collects make up the range it was asked for, whatever is
prefetched, evicted or invalidated between any two of its steps.
-/

namespace FuseDrive.Cache

open Transition

variable {β : Type}

/-! ## The chunks of a range -/

namespace Config

/-- A chunk of a content. -/
def chunkOf (config : Config) (content : List β) (chunk : Nat) : List β :=
  slice content (config.chunkStart chunk) config.chunkSize

theorem chunkStart_succ (config : Config) (chunk : Nat) :
    config.chunkStart (chunk + 1) = config.chunkStart chunk + config.chunkSize :=
  Nat.succ_mul chunk config.chunkSize

theorem chunkStart_mono (config : Config) {left right : Nat} (ordered : left ≤ right) :
    config.chunkStart left ≤ config.chunkStart right :=
  Nat.mul_le_mul_right config.chunkSize ordered

theorem offset_bounds (config : Config) (call : ReadCall) :
    config.chunkStart (config.startChunk call) ≤ call.offset ∧
      call.offset < config.chunkStart (config.startChunk call) + config.chunkSize := by
  have division := Nat.div_add_mod call.offset config.chunkSize
  have remainder := Nat.mod_lt call.offset config.chunkSize_pos
  unfold chunkStart startChunk
  rw [Nat.mul_comm]
  omega

/-- The piece of a chunk is the part of the content between the offset and the
end of the range that lies in the chunk. -/
theorem piece_chunkOf (config : Config) (call : ReadCall) (content : List β)
    {chunk : Nat} (reached : config.startChunk call ≤ chunk) :
    config.piece call chunk (config.chunkOf content chunk) =
      slice content (max call.offset (config.chunkStart chunk))
        (min (call.offset + call.length) (config.chunkStart (chunk + 1)) -
          max call.offset (config.chunkStart chunk)) := by
  obtain ⟨-, inside⟩ := config.offset_bounds call
  have later := config.chunkStart_mono reached
  have next := config.chunkStart_succ chunk
  unfold piece chunkOf
  by_cases empty : call.offset + call.length ≤ config.chunkStart chunk
  · have noPiece : min config.chunkSize (call.offset + call.length -
        config.chunkStart chunk) - (call.offset - config.chunkStart chunk) = 0 := by omega
    have noSlice : min (call.offset + call.length) (config.chunkStart (chunk + 1)) -
        max call.offset (config.chunkStart chunk) = 0 := by omega
    simp only [noPiece, noSlice, slice_zero]
  · simp only
    rw [slice_slice (by omega)]
    congr 1 <;> omega

/-- Consecutive pieces make up a slice of the content. -/
theorem flatMap_piece (config : Config) (call : ReadCall) (content : List β)
    (count : Nat) {chunk : Nat} (reached : config.startChunk call ≤ chunk) :
    (List.range' chunk count).flatMap
        (fun other => config.piece call other (config.chunkOf content other)) =
      slice content (max call.offset (config.chunkStart chunk))
        (min (call.offset + call.length) (config.chunkStart (chunk + count)) -
          max call.offset (config.chunkStart chunk)) := by
  induction count generalizing chunk with
  | zero =>
      have nothing : min (call.offset + call.length) (config.chunkStart (chunk + 0)) -
          max call.offset (config.chunkStart chunk) = 0 := by
        rw [Nat.add_zero]
        omega
      rw [nothing]
      simp
  | succ count induction =>
      obtain ⟨-, inside⟩ := config.offset_bounds call
      have later := config.chunkStart_mono reached
      have next := config.chunkStart_succ chunk
      have far := config.chunkStart_mono (Nat.le_add_right (chunk + 1) count)
      have same : chunk + (count + 1) = chunk + 1 + count := by omega
      rw [List.range'_succ, List.flatMap_cons, config.piece_chunkOf call content reached,
        induction (show config.startChunk call ≤ chunk + 1 by omega), same]
      by_cases ends : call.offset + call.length ≤ config.chunkStart (chunk + 1)
      · have nothing : min (call.offset + call.length)
            (config.chunkStart (chunk + 1 + count)) -
              max call.offset (config.chunkStart (chunk + 1)) = 0 := by omega
        rw [nothing, slice_zero, List.append_nil]
        congr 1
        omega
      · have joint : max call.offset (config.chunkStart (chunk + 1)) =
            max call.offset (config.chunkStart chunk) +
              (min (call.offset + call.length) (config.chunkStart (chunk + 1)) -
                max call.offset (config.chunkStart chunk)) := by omega
        rw [joint, slice_append_slice]
        congr 1
        omega

theorem endChunk_of_pos (config : Config) (call : ReadCall)
    (positive : 0 < call.offset + call.length) :
    config.endChunk call = ((call.offset + call.length - 1) / config.chunkSize : Nat) := by
  unfold endChunk
  rw [Int.natCast_ediv]
  congr 1
  omega

/-- The pieces of all chunks of a range are the range. -/
theorem flatMap_chunks (config : Config) (call : ReadCall) (content : List β) :
    (config.chunks call).flatMap
        (fun chunk => config.piece call chunk (config.chunkOf content chunk)) =
      slice content call.offset call.length := by
  obtain ⟨before, inside⟩ := config.offset_bounds call
  have start : max call.offset (config.chunkStart (config.startChunk call)) =
      call.offset := by omega
  unfold chunks
  rw [config.flatMap_piece call content _ Nat.le.refl, start]
  by_cases empty : call.length = 0
  · have nothing : min (call.offset + call.length) (config.chunkStart
        (config.startChunk call + (config.endChunk call + 1 -
          config.startChunk call).toNat)) - call.offset = 0 := by omega
    rw [nothing, empty]
  · have last := config.endChunk_of_pos call (by omega)
    have ordered : config.startChunk call ≤
        (call.offset + call.length - 1) / config.chunkSize :=
      Nat.div_le_div_right (by omega)
    have count : config.startChunk call + (config.endChunk call + 1 -
        config.startChunk call).toNat =
          (call.offset + call.length - 1) / config.chunkSize + 1 := by omega
    have past : call.offset + call.length ≤ config.chunkStart
        ((call.offset + call.length - 1) / config.chunkSize + 1) := by
      have bound := Nat.lt_div_mul_add config.chunkSize_pos
        (a := call.offset + call.length - 1)
      rw [chunkStart_succ, chunkStart]
      omega
    rw [count]
    congr 1
    omega

end Config

/-! ## The law of an unchanging content -/

/-- Every chunk is the chunk of the content, and what a reader still has to
collect completes its range. -/
def exactLaw (config : Config) (fileId : Str) (content : List β) : ChunkLaw β where
  fileId := fileId
  total := fun total => total = content.length
  chunk := fun chunk data => data = config.chunkOf content chunk
  soFar := fun call todo result =>
    result ++ todo.flatMap
        (fun chunk => config.piece call chunk (config.chunkOf content chunk)) =
      slice content call.offset call.length

theorem exactLaw_closed (config : Config) (fileId : Str) (content : List β) :
    (exactLaw config fileId content).Closed config where
  past := by
    intro total chunk isTotal beyond
    exact (slice_of_length_le (isTotal ▸ beyond) config.chunkSize).symm
  beyond := by
    intro call _ isTotal beyond
    exact (slice_of_length_le (isTotal ▸ beyond) call.length).symm
  begun := by
    intro call _ _ _
    exact config.flatMap_chunks call content
  taken := by
    intro call chunk todo result data soFar isChunk
    change result ++ config.piece call chunk data ++ _ = _
    rw [List.append_assoc, isChunk]
    exact soFar

theorem chunkEnd_bounds (config : Config) {chunk total : Nat}
    (inside : config.chunkStart chunk < total) :
    config.chunkStart chunk ≤ config.chunkEnd chunk total ∧
      config.chunkEnd chunk total < total ∧
      config.chunkEnd chunk total < config.chunkStart chunk + config.chunkSize := by
  have positive := config.chunkSize_pos
  unfold Config.chunkEnd
  omega

theorem exactLaw_served {config : Config} {fileId : Str} {content : List β}
    {state : State β} (drive : state.drive fileId = content) (label : Label β) :
    (exactLaw config fileId content).Served config state label := by
  refine ChunkLaw.served_of_forall (fun task file isTotal inside => ?_) label
  change slice (state.drive task.fileId) _ _ = slice content _ _
  have sameFile : task.fileId = fileId := file
  have total : task.total = content.length := isTotal
  have positive := config.chunkSize_pos
  rw [sameFile, drive]
  unfold slice
  rw [List.take_eq_take_iff, List.length_drop, ← total]
  unfold Config.chunkEnd
  omega

/-! ## Runs over an unchanging content -/

section Runs

variable {config : Config} {fileId : Str} {content : List β} {start state next finish : State β}

/-- The content of the file does not change, its readers know its size, the
storage answers and disk operations succeed. -/
def Unchanging (fileId : Str) (content : List β) (_ : State β) (label : Label β) : Prop :=
  FairLabel label ∧
    match label with
    | .begin _ call => call.fileId = fileId → call.total = content.length
    | .change otherId _ => otherId ≠ fileId
    | _ => True

/-- A chunk manager with any recent chunks, any limits and any cached chunks,
those of the file being chunks of its content. -/
structure Idle (config : Config) (fileId : Str) (content : List β) (state : State β) :
    Prop where
  drive : state.drive fileId = content
  memory : ∀ chunk data, state.memory.cache.lookup (fileId, chunk) = some data →
    data = config.chunkOf content chunk
  disk : ∀ chunk data, state.disk.lookup (fileId, chunk) = some data →
    data = config.chunkOf content chunk
  tasks : state.tasks = []
  active : state.active = ∅
  unlocked : state.activeLocked = false
  readers : ∀ index, state.readers index = none
  requests : state.requests = []

/-- A request for a range of the file stays inside the file and inside one
chunk. -/
def InsideChunk (config : Config) (content : List β) (request : Request) : Prop :=
  request.first ≤ request.last ∧ request.last < content.length ∧
    request.first / config.chunkSize = request.last / config.chunkSize

/-- Caches, requests and results are those of the content. -/
structure ExactReads (config : Config) (fileId : Str) (content : List β)
    (state : State β) : Prop where
  memory : ∀ chunk data, state.memory.cache.lookup (fileId, chunk) = some data →
    data = config.chunkOf content chunk
  disk : ∀ chunk data, state.disk.lookup (fileId, chunk) = some data →
    data = config.chunkOf content chunk
  requests : ∀ request ∈ state.requests, request.fileId = fileId →
    InsideChunk config content request
  results : ∀ index call result, state.readers index = some ⟨call, .finished result⟩ →
    call.fileId = fileId → result = slice content call.offset call.length

/-- The invariant of these runs. -/
structure Exact (config : Config) (fileId : Str) (content : List β) (state : State β) :
    Prop where
  drive : state.drive fileId = content
  upheld : Upheld config (exactLaw config fileId content) (fun _ => True) (fun _ => True)
    state
  onDisk : (exactLaw config fileId content).OnDisk state
  requests : ∀ request ∈ state.requests, request.fileId = fileId →
    InsideChunk config content request
  healthy : Healthy state

theorem Idle.exact (idle : Idle config fileId content state) :
    Exact config fileId content state where
  drive := idle.drive
  upheld := by
    refine ⟨idle.memory, ?_, ?_, fun _ _ => trivial, ?_⟩
    · simp [idle.tasks]
    · simp [idle.active]
    · simp [idle.readers]
  onDisk := idle.disk
  requests := by simp [idle.requests]
  healthy := by
    refine ⟨?_, ?_, ?_, ?_, ?_⟩
    · simp [idle.tasks]
    · simp [idle.unlocked]
    · simp [idle.readers]
    · simp [idle.readers]
    · simp [State.Registered, idle.active]

theorem insideChunk_chunk {chunk total : Nat}
    (inside : config.chunkStart chunk < total) (isTotal : total = content.length) :
    InsideChunk config content
      ⟨fileId, config.chunkStart chunk, config.chunkEnd chunk total⟩ := by
  obtain ⟨ordered, bounded, short⟩ := chunkEnd_bounds config inside
  refine ⟨ordered, isTotal ▸ bounded, ?_⟩
  have first : config.chunkStart chunk / config.chunkSize = chunk :=
    Nat.mul_div_cancel chunk config.chunkSize_pos
  have last : config.chunkEnd chunk total / config.chunkSize = chunk := by
    refine Nat.div_eq_of_lt_le ordered ?_
    rw [← Nat.succ_eq_add_one, Nat.succ_mul]
    exact short
  exact first.trans last.symm

/-- The file keeps its content and its readers know its size. -/
def SameContent (fileId : Str) (content : List β) : Label β → Prop
  | .begin _ call => call.fileId = fileId → call.total = content.length
  | .change otherId _ => otherId ≠ fileId
  | _ => True

/-- Whatever fails, only chunks of an unchanging content are kept and read. -/
structure Constant (config : Config) (fileId : Str) (content : List β) (state : State β) :
    Prop where
  drive : state.drive fileId = content
  upheld : Upheld config (exactLaw config fileId content) (fun _ => True) (fun _ => True)
    state
  onDisk : (exactLaw config fileId content).OnDisk state

theorem Constant.step (constant : Constant config fileId content state) {label : Label β}
    (same : SameContent fileId content label) (stepped : Stepped config state label next) :
    Constant config fileId content next := by
  have begun : (exactLaw config fileId content).Begun label := by
    cases label with
    | begin index call => exact same
    | reader _ _ | task _ _ | callback _ | invalidate _ _ | remove _ | removeFails _
    | change _ _ =>
        trivial
  constructor
  · by_cases changes : ∃ otherId changed, label = .change otherId changed
    · obtain ⟨otherId, changed, isChange⟩ := changes
      subst isChange
      cases stepped with
      | change => exact (Function.update_of_ne (Ne.symm same) _ _).trans constant.drive
    · rw [stepped.drive_eq fun otherId changed isChange =>
        changes ⟨otherId, changed, isChange⟩]
      exact constant.drive
  · exact constant.upheld.step (exactLaw_closed config fileId content)
      (exactLaw_served constant.drive label) (constant.onDisk.taken label) begun stepped
  · exact constant.upheld.onDisk_step constant.onDisk stepped

theorem Exact.step (exact_ : Exact config fileId content state) {label : Label β}
    (unchanging : Unchanging fileId content state label)
    (stepped : Stepped config state label next) : Exact config fileId content next := by
  obtain ⟨fair, same⟩ := unchanging
  have constant : Constant config fileId content next :=
    Constant.step ⟨exact_.drive, exact_.upheld, exact_.onDisk⟩ same stepped
  refine ⟨constant.drive, constant.upheld, constant.onDisk, ?_, exact_.healthy.step fair.calm stepped⟩
  cases stepped with
  | reader present moved =>
      intro request member
      rw [State.setReader, moved.frame.2.2.2.2] at member
      exact exact_.requests request member
  | @task index weather task moved point present isMoved =>
      intro request member file
      obtain ⟨taskId, chunk, total, isPrefetch, before, callbacks⟩ := task
      cases isMoved with
      | ask =>
          rcases List.mem_cons.mp member with rfl | old
          · obtain ⟨isTotal, inside⟩ := exact_.upheld.tasks index _ present file
            exact insideChunk_chunk inside isTotal
          · exact exact_.requests request old file
      | pick | past _ | enter _ | lock _ | memoryHit _ | memoryMiss _ | diskRaised _
      | diskHit _ | diskMiss | keep | refused _ | reply _ | store | writeRaised _
      | writeSkipped | write | leave | finish => exact exact_.requests request member file
  | begin _ | callback _ _ _ _ | invalidate _ | list _ | remove _ _ | vanished _ _ | removed _
  | removeFails _ | change =>
      exact exact_.requests

theorem Exact.exactReads (exact_ : Exact config fileId content state) :
    ExactReads config fileId content state where
  memory := exact_.upheld.memory
  disk := exact_.onDisk
  requests := exact_.requests
  results := by
    intro index call result present file
    have soFar := (exact_.upheld.readers index _ present file).2 trivial
    simpa [exactLaw] using soFar

/-- Range reads of an unchanging content are exact, keep the caches exact and
ask the storage for ranges inside one chunk only; as long as every scheduled
task completes, and none is cancelled, they return. -/
theorem rangeRead_exact (idle : Idle config fileId content start)
    (reached : Reaches (step config) (Unchanging fileId content) start finish) :
    ExactReads config fileId content finish ∧
      (¬ finish.Cancelled → ∀ index reader, finish.readers index = some reader →
        Returns config finish index reader) := by
  have exact_ : Exact config fileId content finish :=
    reached.invariant
      (fun exact_ unchanging taken => exact_.step unchanging (stepped_of_step taken))
      idle.exact
  exact ⟨exact_.exactReads, fun uncancelled index reader present =>
    exact_.healthy.returns uncancelled present⟩

end Runs

/-- A read of two bytes across a chunk boundary, with two prefetches and a
memory cache of a single chunk. -/
def acrossBoundary : List (Label Nat) :=
  .begin 0 ⟨['f'], 1, 2, 3⟩ :: List.replicate 15 (.reader 0 fairWeather) ++
    List.replicate 11 (.task 2 fairWeather) ++ List.replicate 5 (.reader 0 fairWeather) ++
    List.replicate 11 (.task 3 fairWeather) ++ List.replicate 2 (.reader 0 fairWeather)

theorem rangeRead_exact_acrossBoundary :
    ∃ finish, run (step ⟨2, by decide, false⟩) (State.empty 1 [1, 2, 3]) acrossBoundary =
        some finish ∧
      finish.readers 0 = some ⟨⟨['f'], 1, 2, 3⟩, .finished [2, 3]⟩ ∧
      ExactReads ⟨2, by decide, false⟩ ['f'] [1, 2, 3] finish ∧
      ∀ index reader, finish.readers index = some reader →
        Returns ⟨2, by decide, false⟩ finish index reader := by
  obtain ⟨finish, executed⟩ := Option.isSome_iff_exists.mp
    (show (run (step ⟨2, by decide, false⟩) (State.empty 1 [1, 2, 3])
      acrossBoundary).isSome from rfl)
  have reader : (run (step ⟨2, by decide, false⟩) (State.empty 1 [1, 2, 3])
      acrossBoundary).map (·.readers 0) =
      some (some ⟨⟨['f'], 1, 2, 3⟩, .finished [2, 3]⟩) := rfl
  have tasks : (run (step ⟨2, by decide, false⟩) (State.empty 1 [1, 2, 3])
      acrossBoundary).map (·.tasks.map Task.point) =
      some [.queued, .queued, .done (some [1, 2]), .done (some [3])] := rfl
  rw [executed] at reader tasks
  have points : finish.tasks.map Task.point = _ := Option.some.inj tasks
  have uncancelled : ¬ finish.Cancelled := by
    rintro ⟨index, task, present, isCancelled⟩
    have member : task.point ∈ finish.tasks.map Task.point :=
      List.mem_map_of_mem (List.mem_of_getElem? present)
    rw [points, isCancelled] at member
    simp at member
  have idle : Idle ⟨2, by decide, false⟩ ['f'] [1, 2, 3] (State.empty 1 [1, 2, 3]) :=
    ⟨rfl, nofun, nofun, rfl, rfl, rfl, fun _ => rfl, rfl⟩
  have along : AllowedAlong (step ⟨2, by decide, false⟩) (Unchanging ['f'] [1, 2, 3])
      (State.empty 1 [1, 2, 3]) acrossBoundary :=
    AllowedAlong.of_forall (by
      simp [acrossBoundary, Unchanging, FairLabel, Weather.Fair, fairWeather])
  obtain ⟨reads, returns⟩ := rangeRead_exact idle (Reaches.of_run along executed)
  exact ⟨finish, executed, Option.some.inj reader, reads, returns uncancelled⟩

end FuseDrive.Cache
