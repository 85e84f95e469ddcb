import FuseDrive.Fuse.PathOperations

/-!
# The flag of a loaded directory

Once a directory has been listed, a path below it that is not cached does not
exist for `resolve_path_to_drive_node_id`.  The flag is kept by id and the
children by path, in maps that drop their entries separately, so the shortcut
is right only as long as nothing comes between the two: `Keeps` names what can.

`Consistent` is the invariant: the known children of a loaded directory are
mapped where it was listed, and no other path leads to it.
-/

namespace FuseDrive.Fuse

open Program (Ensures Executes perform)

section Invariant

variable (rootId : NodeId)

namespace World

/-- The path resolves to the id without a listing. -/
def Leads (world : World) (path : Str) (dirId : NodeId) : Prop :=
  if path = ['/'] then dirId = rootId else world.mapped path = some dirId

/-- No loaded directory, and no listing at work, needs what is mapped at the
path. -/
def Spare (world : World) (path : Str) : Prop :=
  (∀ dirId parent name, world.Loaded dirId → world.placed dirId = some parent →
    ProperName name → path = join parent name → world.known.child dirId name = none) ∧
  ∀ load ∈ world.loading, path ∉ load.mapped

/-- Without the file no loaded directory shows another file under its name. -/
def NoNamesake (world : World) (fileId : NodeId) : Prop :=
  ∀ dirId name, world.Loaded dirId → world.known.child dirId name = some fileId →
    (world.known.delete fileId).child dirId name = none

/-- The invariant, but for what is mapped at the exempt path. -/
structure Consistent (exempt : Option Str) (world : World) : Prop where
  named : ∀ edge ∈ world.known.edges, ProperName edge.name
  placedAtPath : ∀ {dirId path}, world.placed dirId = some path → IsPath path
  covered : ∀ {dirId path name fileId}, world.Loaded dirId → world.placed dirId = some path →
    world.known.child dirId name = some fileId → exempt ≠ some (join path name) →
      world.mapped (join path name) = some fileId
  single : ∀ {path dirId}, IsPath path → world.Leads rootId path dirId → world.Loaded dirId →
    world.placed dirId = some path

/-- The path leads to the directory if it leads anywhere, and is where the
directory was listed if it is loaded. -/
structure Held (world : World) (path : Str) (dirId : NodeId) : Prop where
  unique : ∀ {other}, world.Leads rootId path other → other = dirId
  placed : world.Loaded dirId → world.placed dirId = some path

/-- A listing of the directory has mapped its children below the path. -/
def Shown (world : World) (path : Str) (dirId : NodeId) : Prop :=
  ∃ load ∈ world.loading, load.path = path ∧
    ∀ {name fileId}, world.known.child dirId name = some fileId →
      join path name ∈ load.mapped ∧ world.mapped (join path name) = some fileId

/-- Entries have gone, but no needed ones. -/
structure Fades (world later : World) : Prop where
  known : later.known = world.known
  loading : later.loading = world.loading
  placed : later.placed = world.placed
  mapped : ∀ {path fileId}, later.mapped path = some fileId → world.mapped path = some fileId
  loaded : ∀ {dirId}, later.Loaded dirId → world.Loaded dirId
  dropped : ∀ {path fileId}, world.mapped path = some fileId →
    later.mapped path = some fileId ∨ later.Spare path

end World

/-! ## What the flag relies on -/

/-- What each access of an operation relies on.  A map evicts only spare
entries.  The id of a loaded directory is put only at the path where it was
listed, and a directory is marked as loaded when no path but that of the listing
leads to it.  Listed names are names.  A file is renamed into a directory that
is not loaded, and `rename` invalidates only spare paths.  No file that is moved
or deleted hides another one of its name. -/
def Keeps (operation : Operation) (world : World) (request : Request) (choice : Choice) :
    Prop :=
  match request with
  | .listChildren parentId _ =>
      ∀ item ∈ world.drive.listChildren parentId, ProperName item.name
  | .mapPathToNodeId path fileId =>
      (∀ victim, choice.victim = some victim → world.Spare victim) ∧
      (world.Loaded fileId → world.placed fileId = some path)
  | .markDirectoryChildrenLoaded dirId =>
      ∀ load ∈ world.loading, ∀ other, IsPath other → world.Leads rootId other dirId →
        other = load.path
  | .updateFile fileId addParents _ _ =>
      ¬ world.Loaded addParents ∧ world.NoNamesake fileId
  | .deleteFile fileId => world.NoNamesake fileId
  | .invalidatePath path =>
      match operation with
      | .rename _ _ => world.Spare path
      | _ => True
  | _ => True

/-- The entries whose lifetime passes are spare by then. -/
def KeepsPassing (world : World) (duration : Nat) : Prop :=
  ∀ path, world.mapped path ≠ none → (world.tick duration).mapped path = none →
    (world.tick duration).Spare path

end Invariant

/-! ## Entries that go -/

section Fading

variable {rootId : NodeId} {world later : World}

namespace World

theorem Fades.leads (fades : world.Fades later) {path : Str} {dirId : NodeId}
    (leads : later.Leads rootId path dirId) : world.Leads rootId path dirId := by
  unfold Leads at leads ⊢
  split
  · rename_i isRoot
    rwa [if_pos isRoot] at leads
  · rename_i notRoot
    rw [if_neg notRoot] at leads
    exact fades.mapped leads

theorem Fades.unmapped (fades : world.Fades later) {path : Str}
    (unmapped : world.mapped path = none) : later.mapped path = none := by
  cases found : later.mapped path with
  | none => rfl
  | some fileId =>
      rw [fades.mapped found] at unmapped
      cases unmapped

theorem Consistent.fades {exempt : Option Str} (consistent : world.Consistent rootId exempt)
    (fades : world.Fades later) : later.Consistent rootId exempt where
  named := fades.known ▸ consistent.named
  placedAtPath := fades.placed ▸ consistent.placedAtPath
  covered loaded placed child notExempt := by
    rename_i dirId path name fileId
    have wasChild : world.known.child dirId name = some fileId := fades.known ▸ child
    have before := consistent.covered (fades.loaded loaded) (fades.placed ▸ placed) wasChild
      notExempt
    rcases fades.dropped before with kept | spare
    · exact kept
    · have proper : ProperName name :=
        consistent.named _ (world.known.mem_edges_of_child wasChild)
      rw [spare.1 dirId path name loaded placed proper rfl] at child
      cases child
  single isPath leads loaded :=
    fades.placed ▸ consistent.single isPath (fades.leads leads) (fades.loaded loaded)

theorem Held.fades {path : Str} {dirId : NodeId} (held : world.Held rootId path dirId)
    (fades : world.Fades later) : later.Held rootId path dirId where
  unique leads := held.unique (fades.leads leads)
  placed loaded := fades.placed ▸ held.placed (fades.loaded loaded)

theorem Fades.still_mapped (fades : world.Fades later) {load : Loading} {path : Str}
    {fileId : NodeId} (isLoading : load ∈ world.loading) (isMapped : path ∈ load.mapped)
    (found : world.mapped path = some fileId) : later.mapped path = some fileId := by
  rcases fades.dropped found with kept | spare
  · exact kept
  · exact absurd isMapped (spare.2 load (fades.loading ▸ isLoading))

theorem Shown.fades {path : Str} {dirId : NodeId} (shown : world.Shown path dirId)
    (fades : world.Fades later) : later.Shown path dirId := by
  obtain ⟨load, isLoading, samePath, mapped⟩ := shown
  refine ⟨load, fades.loading ▸ isLoading, samePath, fun {name fileId} child => ?_⟩
  obtain ⟨isMapped, found⟩ := mapped (fades.known ▸ child)
  exact ⟨isMapped, fades.still_mapped isLoading isMapped found⟩

end World

/-- What goes by itself is not needed. -/
theorem World.Fades.of_drift {settings : CacheSettings}
    {allows : World → Request → Choice → Prop}
    (drifted : (environment settings allows KeepsPassing).drifts world later) :
    world.Fades later := by
  rcases drifted with ⟨duration, passes, rfl⟩ | ⟨drive, rfl⟩
  · refine ⟨rfl, rfl, rfl, world.cache.resolve_of_tick, world.cache.loaded_of_tick, ?_⟩
    intro path fileId found
    cases later : (world.tick duration).mapped path with
    | none =>
        have wasMapped : world.mapped path ≠ none := by
          rw [found]
          exact Option.some_ne_none fileId
        exact .inr (passes path wasMapped later)
    | some other =>
        have same := world.cache.resolve_of_tick later
        exact .inl (same.symm.trans found)
  · exact ⟨rfl, rfl, rfl, id, id, .inl⟩

end Fading

/-! ## What one access preserves -/

section Steps

variable {rootId : NodeId} {settings : CacheSettings} {choice : Choice} {world : World}

namespace World

theorem leads_map {path other : Str} {fileId dirId : NodeId}
    (leads : ((serve settings choice world (.mapPathToNodeId path fileId)).2).Leads
      rootId other dirId) :
    (other = path ∧ dirId = fileId) ∨ world.Leads rootId other dirId := by
  unfold Leads at leads ⊢
  split at leads
  · rename_i isRoot
    right
    rwa [if_pos isRoot]
  · rename_i otherNotRoot
    have found : (if other = path then some fileId
        else if choice.victim = some other then none
        else world.cache.resolvePathToNodeId other) = some dirId :=
      (world.cache.resolve_mapPathToNodeId settings choice.victim path other fileId).symm.trans
        leads
    rw [if_neg otherNotRoot]
    split at found
    · rename_i same
      cases found
      exact .inl ⟨same, rfl⟩
    · split at found
      · cases found
      · exact .inr found

theorem Leads.of_map {path other : Str} {fileId dirId : NodeId} (different : other ≠ path)
    (leads : ((serve settings choice world (.mapPathToNodeId path fileId)).2).Leads
      rootId other dirId) : world.Leads rootId other dirId := by
  rcases leads_map leads with ⟨same, -⟩ | before
  · exact absurd same different
  · exact before

theorem mapped_map {path other : Str} {fileId found : NodeId} (different : other ≠ path)
    (before : world.mapped other = some found) :
    ((serve settings choice world (.mapPathToNodeId path fileId)).2).mapped other = some found ∨
      choice.victim = some other := by
  by_cases victim : choice.victim = some other
  · exact .inr victim
  · left
    refine (world.cache.resolve_mapPathToNodeId settings choice.victim path other fileId).trans ?_
    rw [if_neg different, if_neg victim]
    exact before

theorem mapped_map_self {path : Str} {fileId : NodeId} :
    ((serve settings choice world (.mapPathToNodeId path fileId)).2).mapped path =
      some fileId := by
  refine (world.cache.resolve_mapPathToNodeId settings choice.victim path path fileId).trans ?_
  rw [if_pos rfl]

/-- A place that is left is one where no other child was mapped. -/
theorem displace_eq_some {path place : Str} {fileId dirId : NodeId}
    (placed : world.displace path fileId dirId = some place) :
    world.placed dirId = some place ∧ (place = dirname path →
      ∀ child, world.known.child dirId (basename path) = some child → child = fileId) := by
  unfold displace at placed
  split at placed
  · cases placed
  · rename_i notDisplaced
    refine ⟨placed, ?_⟩
    rintro rfl child isChild
    by_contra different
    refine notDisplaced ⟨placed, ?_⟩
    rw [isChild]
    simpa using different

theorem displace_of_placed {path place : Str} {fileId dirId : NodeId}
    (placed : world.placed dirId = some place) (agrees : place = dirname path →
      ∀ child, world.known.child dirId (basename path) = some child → child = fileId) :
    world.displace path fileId dirId = some place := by
  unfold displace
  rw [if_neg]
  · exact placed
  · rintro ⟨here, other⟩
    have same : place = dirname path := Option.some.inj (placed.symm.trans here)
    cases isChild : world.known.child dirId (basename path) with
    | none =>
        rw [isChild] at other
        simp at other
    | some child =>
        rw [isChild, agrees same child isChild] at other
        simp at other

theorem Consistent.map {operation : Operation} {exempt : Option Str} {parent name : Str}
    {fileId : NodeId} (consistent : world.Consistent rootId exempt) (isPath : IsPath parent)
    (proper : ProperName name)
    (keeps : Keeps rootId operation world (.mapPathToNodeId (join parent name) fileId) choice)
    (exemptOnly : ∀ path, exempt = some path → path = join parent name)
    (agrees : ∀ {dirId child}, world.Leads rootId parent dirId → world.Loaded dirId →
      world.known.child dirId name = some child → child = fileId) :
    ((serve settings choice world
      (.mapPathToNodeId (join parent name) fileId)).2).Consistent rootId none := by
  obtain ⟨spare, isThere⟩ := keeps
  refine ⟨consistent.named, fun placed => ?_, ?_, ?_⟩
  · exact consistent.placedAtPath (displace_eq_some placed).1
  · intro dirId place childName child (loaded : world.Loaded dirId) placed
      (isChild : world.known.child dirId childName = some child) _
    obtain ⟨wasPlaced, undisturbed⟩ := displace_eq_some placed
    have placeIsPath := consistent.placedAtPath wasPlaced
    have childProper : ProperName childName :=
      consistent.named _ (world.known.mem_edges_of_child isChild)
    by_cases sameChild : join place childName = join parent name
    · obtain ⟨rfl, rfl⟩ := join_inj placeIsPath childProper isPath proper sameChild
      rw [isPath.dirname_join proper, isPath.basename_join proper] at undisturbed
      rw [undisturbed rfl child isChild]
      exact mapped_map_self
    · have notExempt : exempt ≠ some (join place childName) :=
        fun isExempt => sameChild (exemptOnly _ isExempt)
      rcases mapped_map sameChild
        (consistent.covered loaded wasPlaced isChild notExempt) with kept | victim
      · exact kept
      · rw [(spare _ victim).1 dirId place childName loaded wasPlaced childProper rfl] at isChild
        cases isChild
  · intro path dirId pathIsPath leads (loaded : world.Loaded dirId)
    refine displace_of_placed ?_ ?_
    · rcases leads_map leads with ⟨rfl, rfl⟩ | before
      · exact isThere loaded
      · exact consistent.single pathIsPath before loaded
    · rw [isPath.dirname_join proper, isPath.basename_join proper]
      rintro rfl child isChild
      exact agrees (Leads.of_map (isPath.join_ne_self proper).symm leads) loaded isChild

theorem Leads.congr {later : World} (cache : later.cache = world.cache) {path : Str}
    {dirId : NodeId} (leads : later.Leads rootId path dirId) : world.Leads rootId path dirId := by
  unfold Leads mapped at leads ⊢
  rwa [cache] at leads

theorem Loaded.congr {later : World} (cache : later.cache = world.cache) {dirId : NodeId}
    (loaded : later.Loaded dirId) : world.Loaded dirId := by
  unfold Loaded at loaded ⊢
  rwa [cache] at loaded

/-- A change of what is known that shows no new child of a loaded directory,
but for the exempt path. -/
theorem Consistent.of_known {exempt : Option Str} {later : World}
    (consistent : world.Consistent rootId none) (cache : later.cache = world.cache)
    (samePlaced : later.placed = world.placed)
    (named : ∀ edge ∈ later.known.edges, ProperName edge.name)
    (nothingNew : ∀ {dirId path name fileId}, world.Loaded dirId →
      world.placed dirId = some path → later.known.child dirId name = some fileId →
        exempt ≠ some (join path name) → world.known.child dirId name = some fileId) :
    later.Consistent rootId exempt where
  named := named
  placedAtPath := samePlaced ▸ consistent.placedAtPath
  covered loaded placed child notExempt := by
    rw [samePlaced] at placed
    have before := nothingNew (loaded.congr cache) placed child notExempt
    unfold mapped
    rw [cache]
    exact consistent.covered (loaded.congr cache) placed before (Option.some_ne_none _).symm
  single isPath leads loaded :=
    samePlaced ▸ consistent.single isPath (leads.congr cache) (loaded.congr cache)

theorem Held.congr {path : Str} {dirId : NodeId} {later : World}
    (held : world.Held rootId path dirId) (cache : later.cache = world.cache)
    (samePlaced : later.placed = world.placed) : later.Held rootId path dirId where
  unique leads := held.unique (leads.congr cache)
  placed loaded := samePlaced ▸ held.placed (loaded.congr cache)

theorem Consistent.relist {dirId : NodeId} {items : List Item} {later : World}
    (consistent : world.Consistent rootId none) (cache : later.cache = world.cache)
    (samePlaced : later.placed = world.placed)
    (known : later.known = world.known.relist dirId items) (notLoaded : ¬ world.Loaded dirId)
    (proper : ∀ item ∈ items, ProperName item.name) : later.Consistent rootId none := by
  refine consistent.of_known cache samePlaced ?_ ?_
  · intro edge member
    rw [known] at member
    rcases List.mem_append.mp member with old | new
    · exact consistent.named edge (List.mem_of_mem_filter old)
    · obtain ⟨item, isItem, rfl⟩ := List.mem_map.mp new
      exact proper item isItem
  · intro other path name fileId loaded _ child _
    rw [known, DriveTree.child_relist, if_neg] at child
    · exact child
    · rintro rfl
      exact notLoaded loaded

/-- A new child is exempt until it is mapped. -/
theorem Consistent.create {parent name : Str} {parentId fileId : NodeId} {later : World}
    (consistent : world.Consistent rootId none) (cache : later.cache = world.cache)
    (samePlaced : later.placed = world.placed)
    (known : later.known = world.known.create parentId name fileId)
    (held : world.Held rootId parent parentId) (proper : ProperName name) :
    later.Consistent rootId (some (join parent name)) := by
  refine consistent.of_known cache samePlaced ?_ ?_
  · intro edge member
    rw [known] at member
    rcases List.mem_append.mp member with old | new
    · exact consistent.named edge old
    · rw [List.mem_singleton.mp new]
      exact proper
  · intro dirId path childName child loaded placed isChild notExempt
    rw [known, DriveTree.child_create] at isChild
    split at isChild
    · rename_i same
      obtain ⟨rfl, rfl⟩ := same
      have here : path = parent := Option.some.inj (placed.symm.trans (held.placed loaded))
      rw [here] at notExempt
      exact absurd rfl notExempt
    · exact isChild

/-- What is left of a loaded directory without a file that hides no other. -/
theorem child_of_delete {fileId dirId other : NodeId} {name : Str}
    (noNamesake : world.NoNamesake fileId) (loaded : world.Loaded dirId)
    (child : (world.known.delete fileId).child dirId name = some other) :
    world.known.child dirId name = some other := by
  obtain ⟨before, wasChild⟩ := world.known.exists_child_of_delete child
  by_cases same : before = fileId
  · subst same
    rw [noNamesake dirId name loaded wasChild] at child
    cases child
  · rw [world.known.child_delete_of_ne wasChild same] at child
    cases child
    exact wasChild

theorem Consistent.delete {fileId : NodeId} {later : World}
    (consistent : world.Consistent rootId none) (cache : later.cache = world.cache)
    (samePlaced : later.placed = world.placed)
    (known : later.known = world.known.delete fileId)
    (noNamesake : world.NoNamesake fileId) : later.Consistent rootId none := by
  refine consistent.of_known cache samePlaced ?_ ?_
  · intro edge member
    rw [known] at member
    exact consistent.named edge (List.mem_of_mem_filter member)
  · intro dirId path name child loaded _ isChild _
    rw [known] at isChild
    exact child_of_delete noNamesake loaded isChild

theorem Consistent.move {fileId parentId : NodeId} {name : Str} {later : World}
    (consistent : world.Consistent rootId none) (cache : later.cache = world.cache)
    (samePlaced : later.placed = world.placed)
    (known : later.known = world.known.move fileId parentId name)
    (notLoaded : ¬ world.Loaded parentId) (noNamesake : world.NoNamesake fileId)
    (proper : ProperName name) : later.Consistent rootId none := by
  refine consistent.of_known cache samePlaced ?_ ?_
  · intro edge member
    rw [known] at member
    rcases List.mem_append.mp member with old | new
    · exact consistent.named edge (List.mem_of_mem_filter old)
    · rw [List.mem_singleton.mp new]
      exact proper
  · intro dirId path childName child loaded _ isChild _
    rw [known, DriveTree.move, DriveTree.child_create, if_neg] at isChild
    · exact child_of_delete noNamesake loaded isChild
    · rintro ⟨rfl, -⟩
      exact notLoaded loaded

/-- The world after `invalidate_path`. -/
def invalidate (world : World) (path : Str) : World :=
  { world with cache := world.cache.invalidatePath path, placed := world.forget path }

/-- A path that is invalidated leads nowhere, unless it is the root. -/
theorem Leads.of_invalidate {path other : Str} {dirId : NodeId}
    (leads : (world.invalidate path).Leads rootId other dirId) :
    world.Leads rootId other dirId ∧ (path ≠ ['/'] → other ≠ path) := by
  unfold Leads at leads ⊢
  split
  · rename_i isRoot
    rw [if_pos isRoot] at leads
    refine ⟨leads, ?_⟩
    rintro notRoot rfl
    exact notRoot isRoot
  · rename_i notRoot
    rw [if_neg notRoot] at leads
    have found : (if other = path then none else world.cache.resolvePathToNodeId other) =
        some dirId := (world.cache.resolve_invalidatePath path other).symm.trans leads
    split at found
    · cases found
    · rename_i different
      exact ⟨found, fun _ => different⟩

theorem forget_eq_some {path place : Str} {dirId : NodeId}
    (placed : world.forget path dirId = some place) : world.placed dirId = some place := by
  unfold forget at placed
  split at placed
  · cases placed
  · exact placed

theorem Consistent.invalidate {path : Str} (consistent : world.Consistent rootId none)
    (unneeded : ∀ {dirId parent name fileId}, world.Loaded dirId →
      world.placed dirId = some parent → path = join parent name →
        world.known.child dirId name ≠ some fileId) :
    (world.invalidate path).Consistent rootId none := by
  refine ⟨consistent.named, fun placed => consistent.placedAtPath (forget_eq_some placed), ?_, ?_⟩
  · intro dirId parent name child (loaded : world.Loaded dirId) placed
      (isChild : world.known.child dirId name = some child) notExempt
    have before := consistent.covered loaded (forget_eq_some placed) isChild notExempt
    refine (world.cache.resolve_invalidatePath path (join parent name)).trans ?_
    rw [if_neg]
    · exact before
    · intro same
      exact unneeded loaded (forget_eq_some placed) same.symm isChild
  · intro other dirId isPath leads (loaded : world.Loaded dirId)
    obtain ⟨before, notInvalidated⟩ := leads.of_invalidate
    have placed := consistent.single isPath before loaded
    show world.forget path dirId = some other
    unfold forget
    rw [if_neg]
    · exact placed
    · rintro ⟨notRoot, here⟩
      exact notInvalidated notRoot (Option.some.inj (placed.symm.trans here))

theorem Consistent.mark {path : Str} {dirId : NodeId}
    (consistent : world.Consistent rootId none) (isPath : IsPath path)
    (shown : world.Shown path dirId)
    (alone : ∀ {other}, IsPath other → world.Leads rootId other dirId → other = path) :
    ((serve settings choice world (.markDirectoryChildrenLoaded dirId)).2).Consistent
      rootId none := by
  obtain ⟨load, isLoading, samePath, mapped⟩ := shown
  have place : world.place dirId = Function.update world.placed dirId (some path) := by
    unfold World.place
    rw [Option.mem_def.mp isLoading, ← samePath]
  have wasLoaded : ∀ {other : NodeId}, other ≠ dirId →
      ((serve settings choice world (.markDirectoryChildrenLoaded dirId)).2).Loaded other →
        world.Loaded other := by
    intro other different loaded
    have flag : (if other = dirId then true
        else if choice.dirVictim = some other then false
        else world.cache.isDirectoryChildrenLoaded other) = true :=
      (world.cache.loaded_markDirectoryChildrenLoaded settings choice.dirVictim dirId
        other).symm.trans loaded
    rw [if_neg different] at flag
    split at flag
    · cases flag
    · exact flag
  refine ⟨consistent.named, ?_, ?_, ?_⟩
  · intro other otherPath (placed : world.place dirId other = some otherPath)
    rw [place, Function.update_apply] at placed
    split at placed
    · exact Option.some.inj placed ▸ isPath
    · exact consistent.placedAtPath placed
  · intro other otherPath name child loaded (placed : world.place dirId other = some otherPath)
      (isChild : world.known.child other name = some child) notExempt
    rw [place, Function.update_apply] at placed
    split at placed
    · rename_i same
      subst same
      rw [← Option.some.inj placed]
      exact (mapped isChild).2
    · rename_i different
      exact consistent.covered (wasLoaded different loaded) placed isChild notExempt
  · intro other directory otherIsPath (leads : world.Leads rootId other directory) loaded
    show world.place dirId directory = some other
    rw [place, Function.update_apply]
    split
    · rename_i same
      subst same
      rw [alone otherIsPath leads]
    · rename_i different
      exact consistent.single otherIsPath leads (wasLoaded different loaded)

end World

end Steps

end FuseDrive.Fuse
