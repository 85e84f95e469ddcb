import FuseDrive.Cache.ChunkManager
import FuseDrive.Cache.MetadataCache

/-!
# The metadata cache over the chunk manager

Chunks carry no version.  What keeps them in step with the file is that
`set_metadata`, called by `_load_children`, `getattr` and `create`, invalidates
the chunks of a file whose record it replaces by one with another modified
time, and that `release` invalidates them after an edit.  This module puts the
metadata cache, the edits of `release` and the reads of `FuseOps.read` around
the chunk manager.

Every byte of a Drive file is stamped with the modified time the file had when
it had that byte, so a chunk shows when it was fetched.  Nothing of the program
reads a stamp.
-/

namespace FuseDrive.Cache

/-- The steps of the chunk manager that are not a call from outside. -/
def Label.isInternal {β : Type} : Label β → Bool
  | .reader _ _ | .task _ _ | .callback _ | .remove _ | .removeFails _ => true
  | .begin _ _ | .invalidate _ _ | .change _ _ => false

end FuseDrive.Cache

namespace FuseDrive.Coherence

open FuseDrive.Cache

/-- A byte of a Drive file and the modified time that goes with it. -/
structure Stamped (γ : Type) where
  byte : γ
  modified : Nat
deriving DecidableEq

/-- Program points of `release` for a modified handle.  `object` is what
`get_metadata` returned and `index` the invalidation under way. -/
inductive Edit where
  | idle
  /-- About to assign the new size and time. -/
  | assign (fileId : Str) (object : Nat)
  /-- About to call `set_metadata`. -/
  | store (fileId : Str) (object : Nat)
  /-- `set_metadata` has called `on_metadata_changed`. -/
  | storing (fileId : Str) (index : Nat)
  /-- About to enqueue the file and invalidate its chunks. -/
  | invalidate (fileId : Str)
  | invalidating (fileId : Str) (index : Nat)
deriving DecidableEq

/-- `holder` is the invalidation that a `set_metadata` call runs inside the
lock of the metadata cache, `pending` the reads between `get_metadata` and
`read_content_range_with_caching`, and `modified` what Drive has.  `recorded` is
a history: the modified time recorded last, also when its entry is gone. -/
structure State (γ : Type) where
  cache : MemoryMetadataCache
  holder : Option (Str × Nat)
  edits : Nat → Edit
  pending : Nat → Option ReadCall
  chunks : Cache.State (Stamped γ)
  modified : Str → Nat
  recorded : Str → Option Nat

variable {γ : Type}

namespace State

def setEdit (state : State γ) (edit : Nat) (point : Edit) : State γ :=
  { state with edits := Function.update state.edits edit point }

/-- The entry of an object in the cache, with the time it records. -/
def record (state : State γ) (fileId : Str) (object : Nat) : State γ :=
  { state with
    cache := state.cache.setMetadata fileId object
    recorded := Function.update state.recorded fileId
      (some (state.cache.objects object).modifiedAtTimestamp) }

/-- A `set_metadata` call, up to its return or to the invalidation it starts;
the second component tells which. -/
def setMetadata (config : Config) (state : State γ) (fileId : Str) (object index : Nat) :
    Option (State γ × Bool) :=
  match state.holder with
  | some _ => none
  | none =>
      if state.cache.changes fileId object then
        (Cache.step config state.chunks (.invalidate index fileId)).map fun chunks =>
          ({ state.record fileId object with
              holder := some (fileId, index)
              chunks := chunks }, true)
      else some (state.record fileId object, false)

/-- The assignments to the fields of an object, which the cache may hold. -/
def assign (state : State γ) (fileId : Str) (object size now : Nat) : State γ :=
  { state with
    cache := state.cache.assign object size now
    recorded :=
      if state.cache.nodeIdToMetadata.lookup fileId = some object then
        Function.update state.recorded fileId (some now)
      else state.recorded }

end State

/-- The steps.  `chunks` are the steps of readers, tasks, callbacks and
invalidations that the chunk manager takes by itself. -/
inductive Label (γ : Type) where
  | load (node : DriveNodeMetadata) (index : Nat)
  | unlock
  | expire (fileId : Str)
  | release (edit : Nat) (fileId : Str)
  | assign (edit size now : Nat)
  | store (edit index : Nat)
  | stored (edit : Nat)
  | invalidate (edit index : Nat)
  | released (edit : Nat)
  | stat (read : Nat) (fileId : Str) (offset length : Nat)
  | read (read : Nat)
  | chunks (label : Cache.Label (Stamped γ))
  | change (fileId : Str) (content : List γ) (modified : Nat)

/-- The steps of `release`. -/
def editStep (config : Config) (state : State γ) : Label γ → Option (State γ)
  | .release edit fileId =>
      match state.edits edit, state.holder with
      | .idle, none =>
          match state.cache.nodeIdToMetadata.lookup fileId with
          | some object => some (state.setEdit edit (.assign fileId object))
          | none => some (state.setEdit edit (.invalidate fileId))
      | _, _ => none
  | .assign edit size now =>
      match state.edits edit with
      | .assign fileId object =>
          some ((state.assign fileId object size now).setEdit edit (.store fileId object))
      | _ => none
  | .store edit index =>
      match state.edits edit with
      | .store fileId object =>
          (state.setMetadata config fileId object index).map fun
            | (next, true) => next.setEdit edit (.storing fileId index)
            | (next, false) => next.setEdit edit (.invalidate fileId)
      | _ => none
  | .stored edit =>
      match state.edits edit with
      | .storing fileId index =>
          if state.holder = some (fileId, index) then none
          else some (state.setEdit edit (.invalidate fileId))
      | _ => none
  | .invalidate edit index =>
      match state.edits edit with
      | .invalidate fileId =>
          (Cache.step config state.chunks (.invalidate index fileId)).map fun chunks =>
            { state with chunks := chunks }.setEdit edit (.invalidating fileId index)
      | _ => none
  | .released edit =>
      match state.edits edit with
      | .invalidating _ index =>
          if state.chunks.invalidations index = .idle then some (state.setEdit edit .idle)
          else none
      | _ => none
  | _ => none

/-- The transition system. -/
def step (config : Config) (state : State γ) : Label γ → Option (State γ)
  | .load node index =>
      ({ state with cache := state.cache.allocate node }.setMetadata config node.fileId
        state.cache.nextObject index).map Prod.fst
  | .unlock =>
      match state.holder with
      | some (_, index) =>
          if state.chunks.invalidations index = .idle then some { state with holder := none }
          else none
      | none => none
  | .expire fileId => some { state with cache := state.cache.expire fileId }
  | label@(.release _ _) | label@(.assign _ _ _) | label@(.store _ _) | label@(.stored _)
  | label@(.invalidate _ _) | label@(.released _) => editStep config state label
  | .stat read fileId offset length =>
      match state.holder, state.pending read, state.cache.getMetadata fileId with
      | none, none, some node =>
          some { state with
            pending := Function.update state.pending read
              (some ⟨fileId, offset, length, node.size⟩) }
      | _, _, _ => none
  | .read read =>
      match state.pending read with
      | some call =>
          (Cache.step config state.chunks (.begin read call)).map fun chunks =>
            { state with
              chunks := chunks
              pending := Function.update state.pending read none }
      | none => none
  | .chunks label =>
      if label.isInternal then
        (Cache.step config state.chunks label).map fun chunks => { state with chunks := chunks }
      else none
  | .change fileId content modified =>
      (Cache.step config state.chunks
          (.change fileId (content.map fun byte => ⟨byte, modified⟩))).map fun chunks =>
        { state with
          chunks := chunks
          modified := Function.update state.modified fileId modified }

/-! ## What a step can do -/

/-- The effect of a `set_metadata` call. -/
inductive Stored (config : Config) (state : State γ) (fileId : Str) (object index : Nat) :
    State γ → Bool → Prop where
  | quiet (free : state.holder = none)
      (unchanged : state.cache.changes fileId object = false) :
      Stored config state fileId object index (state.record fileId object) false
  | invalidates {chunks} (free : state.holder = none)
      (changed : state.cache.changes fileId object = true)
      (invalidated : Cache.Stepped config state.chunks (.invalidate index fileId) chunks) :
      Stored config state fileId object index
        { state.record fileId object with holder := some (fileId, index), chunks := chunks }
        true

theorem stored_of_setMetadata {config : Config} {state next : State γ} {fileId : Str}
    {object index : Nat} {changed : Bool}
    (taken : state.setMetadata config fileId object index = some (next, changed)) :
    Stored config state fileId object index next changed := by
  unfold State.setMetadata at taken
  split at taken
  · cases taken
  · rename_i free
    split at taken
    · rename_i changes
      simp only [Option.map_eq_some_iff] at taken
      obtain ⟨chunks, invalidated, same⟩ := taken
      cases same
      exact .invalidates free changes (Cache.stepped_of_step invalidated)
    · rename_i unchanged
      cases taken
      exact .quiet free (by simpa using unchanged)

/-- The effect of every step. -/
inductive Stepped (config : Config) (state : State γ) : Label γ → State γ → Prop where
  | load {node index next changed}
      (stored : Stored config { state with cache := state.cache.allocate node } node.fileId
        state.cache.nextObject index next changed) :
      Stepped config state (.load node index) next
  | unlock {fileId index} (held : state.holder = some (fileId, index))
      (ended : state.chunks.invalidations index = .idle) :
      Stepped config state .unlock { state with holder := none }
  | expire {fileId} :
      Stepped config state (.expire fileId) { state with cache := state.cache.expire fileId }
  | release {edit fileId object} (idle : state.edits edit = .idle)
      (found : state.cache.nodeIdToMetadata.lookup fileId = some object) :
      Stepped config state (.release edit fileId) (state.setEdit edit (.assign fileId object))
  | releaseUnrecorded {edit fileId} (idle : state.edits edit = .idle)
      (absent : state.cache.nodeIdToMetadata.lookup fileId = none) :
      Stepped config state (.release edit fileId) (state.setEdit edit (.invalidate fileId))
  | assign {edit size now fileId object} (point : state.edits edit = .assign fileId object) :
      Stepped config state (.assign edit size now)
        ((state.assign fileId object size now).setEdit edit (.store fileId object))
  | store {edit index fileId object next changed}
      (point : state.edits edit = .store fileId object)
      (stored : Stored config state fileId object index next changed) :
      Stepped config state (.store edit index)
        (next.setEdit edit (if changed then .storing fileId index else .invalidate fileId))
  | stored {edit fileId index} (point : state.edits edit = .storing fileId index)
      (returned : state.holder ≠ some (fileId, index)) :
      Stepped config state (.stored edit) (state.setEdit edit (.invalidate fileId))
  | invalidate {edit index fileId chunks} (point : state.edits edit = .invalidate fileId)
      (invalidated : Cache.Stepped config state.chunks (.invalidate index fileId) chunks) :
      Stepped config state (.invalidate edit index)
        ({ state with chunks := chunks }.setEdit edit (.invalidating fileId index))
  | released {edit fileId index} (point : state.edits edit = .invalidating fileId index)
      (ended : state.chunks.invalidations index = .idle) :
      Stepped config state (.released edit) (state.setEdit edit .idle)
  | stat {read fileId offset length node} (free : state.holder = none)
      (found : state.cache.getMetadata fileId = some node) :
      Stepped config state (.stat read fileId offset length)
        { state with
          pending := Function.update state.pending read
            (some ⟨fileId, offset, length, node.size⟩) }
  | read {read call chunks} (pending : state.pending read = some call)
      (begun : Cache.Stepped config state.chunks (.begin read call) chunks) :
      Stepped config state (.read read)
        { state with
          chunks := chunks
          pending := Function.update state.pending read none }
  | chunks {label chunks} (internal : label.isInternal = true)
      (moved : Cache.Stepped config state.chunks label chunks) :
      Stepped config state (.chunks label) { state with chunks := chunks }
  | change {fileId content modified chunks}
      (changed : Cache.Stepped config state.chunks
        (.change fileId (content.map fun byte => ⟨byte, modified⟩)) chunks) :
      Stepped config state (.change fileId content modified)
        { state with
          chunks := chunks
          modified := Function.update state.modified fileId modified }

theorem stepped_of_editStep {config : Config} {state next : State γ} {label : Label γ}
    (taken : editStep config state label = some next) : Stepped config state label next := by
  cases label <;> simp only [editStep, reduceCtorEq] at taken
  case release edit fileId =>
    split at taken
    · split at taken <;> cases taken
      · exact .release ‹_› ‹_›
      · exact .releaseUnrecorded ‹_› ‹_›
    · cases taken
  case assign edit size now =>
    split at taken <;> cases taken
    exact .assign ‹_›
  case store edit index =>
    split at taken
    · rename_i fileId object point
      simp only [Option.map_eq_some_iff] at taken
      obtain ⟨⟨stored, changed⟩, success, same⟩ := taken
      have effect := stored_of_setMetadata success
      cases changed <;> cases same
      · exact .store point effect
      · exact .store point effect
    · cases taken
  case stored edit =>
    split at taken
    · split at taken <;> cases taken
      exact .stored ‹_› ‹_›
    · cases taken
  case invalidate edit index =>
    split at taken
    · simp only [Option.map_eq_some_iff] at taken
      obtain ⟨chunks, invalidated, rfl⟩ := taken
      exact .invalidate ‹_› (Cache.stepped_of_step invalidated)
    · cases taken
  case released edit =>
    split at taken
    · split at taken <;> cases taken
      exact .released ‹_› ‹_›
    · cases taken

theorem stepped_of_step {config : Config} {state next : State γ} {label : Label γ}
    (taken : step config state label = some next) : Stepped config state label next := by
  cases label <;> simp only [step] at taken
  case load node index =>
    simp only [Option.map_eq_some_iff] at taken
    obtain ⟨⟨stored, changed⟩, success, rfl⟩ := taken
    exact .load (stored_of_setMetadata success)
  case unlock =>
    split at taken
    · split at taken <;> cases taken
      exact .unlock ‹_› ‹_›
    · cases taken
  case expire fileId =>
    cases taken
    exact .expire
  case stat read fileId offset length =>
    split at taken <;> cases taken
    exact .stat ‹_› ‹_›
  case read read =>
    split at taken
    · simp only [Option.map_eq_some_iff] at taken
      obtain ⟨chunks, begun, rfl⟩ := taken
      exact .read ‹_› (Cache.stepped_of_step begun)
    · cases taken
  case chunks label =>
    split at taken
    · simp only [Option.map_eq_some_iff] at taken
      obtain ⟨chunks, moved, rfl⟩ := taken
      exact .chunks ‹_› (Cache.stepped_of_step moved)
    · cases taken
  case change fileId content modified =>
    simp only [Option.map_eq_some_iff] at taken
    obtain ⟨chunks, changed, rfl⟩ := taken
    exact .change (Cache.stepped_of_step changed)
  all_goals exact stepped_of_editStep taken

/-! ## The content on Drive -/

theorem Stored.drive_eq {config : Config} {state next : State γ} {fileId : Str}
    {object index : Nat} {changed : Bool}
    (stored : Stored config state fileId object index next changed) :
    next.chunks.drive = state.chunks.drive := by
  cases stored with
  | quiet free unchanged => rfl
  | invalidates free changes invalidated => exact invalidated.drive_eq nofun

theorem Stepped.drive_eq {config : Config} {state next : State γ} {label : Label γ}
    (stepped : Stepped config state label next)
    (unchanged : ∀ fileId content modified, label ≠ .change fileId content modified) :
    next.chunks.drive = state.chunks.drive := by
  cases stepped with
  | load stored => exact stored.drive_eq
  | store point stored => exact stored.drive_eq
  | invalidate point moved | read point moved => exact moved.drive_eq nofun
  | @chunks inner chunks internal moved =>
      refine moved.drive_eq fun fileId content isChange => ?_
      rw [isChange] at internal
      cases internal
  | change changed => exact absurd rfl (unchanged _ _ _)
  | unlock _ _ | expire | release _ _ | releaseUnrecorded _ _ | assign _ | stored _ _
  | released _ _ | stat _ _ => rfl

theorem Stepped.drive_change {config : Config} {state next : State γ} {fileId : Str}
    {content : List γ} {modified : Nat}
    (stepped : Stepped config state (.change fileId content modified) next) (other : Str) :
    next.chunks.drive other =
      if other = fileId then content.map fun byte => ⟨byte, modified⟩
      else state.chunks.drive other := by
  cases stepped with
  | change changed =>
      cases changed
      exact Function.update_apply ..

end FuseDrive.Coherence
