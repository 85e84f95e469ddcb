import FuseDrive.Fuse.PathOperations

/-!
# What a path resolves to

As long as the maps keep their entries and every access succeeds, what a path
resolves to is a function of the cache and of Drive.  Listings on the way change
the cache, but on a tree they do not meet the directory they lead to, so the
function obeys one equation for each name: the cached id if there is one, and
otherwise what Drive lists in a directory that has not been listed yet.
-/

namespace FuseDrive.Fuse

open Program (perform play)

/-- Drive's folders form a forest, and its names are file names. -/
structure DriveTree.IsTree (tree : DriveTree) : Prop where
  named : ∀ edge ∈ tree.edges, ProperName edge.name
  ranked : ∃ rank : NodeId → Nat, ∀ edge ∈ tree.edges, rank edge.parent < rank edge.fileId

section Runs

variable (settings : CacheSettings) (rootId : NodeId)

/-- A program run without failures, expiry and evictions. -/
def runCalm {α : Type} (world : World) (program : Op α) : Except Errno α × World :=
  play (serve settings calm) world program

/-- What the path resolves to. -/
def World.resolution (world : World) (path : Str) : Option NodeId :=
  match (runCalm settings world (resolvePath rootId path)).1 with
  | .ok fileId => fileId
  | .error _ => none

/-- Worlds that differ in their histories only. -/
structure World.Same (world other : World) : Prop where
  cache : world.cache = other.cache
  drive : world.drive = other.drive
  localOnlyFiles : world.localOnlyFiles = other.localOnlyFiles

end Runs

section Equations

variable {settings : CacheSettings} {rootId : NodeId} {world : World}

theorem runCalm_perform {α : Type} (request : Request) (next : request.Answer → Op α) :
    runCalm settings world (perform request >>= next) =
      runCalm settings (serve settings calm world request).2
        (next (serve settings calm world request).1) := rfl

theorem runCalm_bind_ok {α β : Type} {program : Op α} {next : α → Op β} {value : α}
    {middle : World} (ran : runCalm settings world program = (.ok value, middle)) :
    runCalm settings world (program >>= next) = runCalm settings middle (next value) := by
  unfold runCalm at ran ⊢
  rw [Program.play_bind, ran]

theorem World.Same.serve {other : World} (request : Request) (same : world.Same other) :
    (serve settings calm world request).1 = (serve settings calm other request).1 ∧
      (serve settings calm world request).2.Same (serve settings calm other request).2 := by
  obtain ⟨cache, drive, localOnlyFiles, known, loading, placed⟩ := world
  obtain ⟨otherCache, otherDrive, otherLocal, otherKnown, otherLoading, otherPlaced⟩ := other
  obtain ⟨rfl, rfl, rfl⟩ := same
  cases request <;> exact ⟨rfl, rfl, rfl, rfl⟩

theorem World.Same.resolution {other : World} (same : world.Same other) (path : Str) :
    world.resolution settings rootId path = other.resolution settings rootId path := by
  unfold World.resolution runCalm
  rw [(Program.play_congr (fun request => World.Same.serve request) same _).1]

/-! ## Listings -/

/-- What a listing of the directory for the path makes of a world. -/
structure World.Lists (world : World) (path : Str) (dirId : NodeId) (items : List Item)
    (later : World) : Prop where
  drive : later.drive = world.drive
  localOnlyFiles : later.localOnlyFiles = world.localOnlyFiles
  below : ∀ {name}, ProperName name → later.mapped (join path name) =
    (lastNamed items name).or (world.mapped (join path name))
  elsewhere : ∀ {other}, (∀ name, ProperName name → other ≠ join path name) →
    later.mapped other = world.mapped other
  loaded : ∀ {other}, later.Loaded other ↔ world.Loaded other ∨ other = dirId
  shown : ∀ {parent child}, child ∈ later.cache.getChildrenPaths parent ↔
    child ∈ world.cache.getChildrenPaths parent ∨
      parent = path ∧ ∃ item ∈ items, child = join path item.name

theorem mapped_serve_map (path other : Str) (fileId : NodeId) :
    ((serve settings calm world (.mapPathToNodeId path fileId)).2).mapped other =
      if other = path then some fileId else world.mapped other := by
  refine (world.cache.resolve_mapPathToNodeId settings none path other fileId).trans ?_
  split
  · rfl
  · rw [if_neg (Option.some_ne_none other).symm]
    rfl

theorem runCalm_mapChildren {path : Str} (isPath : IsPath path) {items : List Item}
    (proper : ∀ item ∈ items, ProperName item.name) :
    ∃ later, runCalm settings world (mapChildren path items) = (.ok (), later) ∧
      later.drive = world.drive ∧ later.localOnlyFiles = world.localOnlyFiles ∧
      (∀ dirId, later.Loaded dirId ↔ world.Loaded dirId) ∧
      (∀ name, ProperName name → later.mapped (join path name) =
        (lastNamed items name).or (world.mapped (join path name))) ∧
      (∀ other, (∀ name, ProperName name → other ≠ join path name) →
        later.mapped other = world.mapped other) ∧
      ∀ parent child, child ∈ later.cache.getChildrenPaths parent ↔
        child ∈ world.cache.getChildrenPaths parent ∨
          parent = path ∧ ∃ item ∈ items, child = join path item.name := by
  induction items generalizing world with
  | nil =>
      refine ⟨world, rfl, rfl, rfl, fun _ => Iff.rfl, fun _ _ => rfl, fun _ _ => rfl, ?_⟩
      simp
  | cons item items induction =>
      have itemProper := proper item List.mem_cons_self
      obtain ⟨later, ran, drive, localOnlyFiles, loaded, below, elsewhere, shown⟩ :=
        induction (fun other member => proper other (List.mem_cons_of_mem _ member))
      refine ⟨later, ran, drive, localOnlyFiles, loaded, ?_, ?_, ?_⟩
      · intro name nameProper
        rw [below name nameProper, mapped_serve_map, lastNamed, Option.or_assoc]
        congr 1
        by_cases same : item.name = name
        · rw [if_pos (congrArg _ same.symm), if_pos same, Option.some_or]
        · rw [if_neg, if_neg same, Option.none_or]
          intro sameChild
          exact same (join_inj isPath nameProper isPath itemProper sameChild).2.symm
      · intro other notBelow
        rw [elsewhere other notBelow, mapped_serve_map, if_neg (notBelow _ itemProper)]
      · intro parent child
        have mapped := world.cache.mem_getChildrenPaths_map settings none (join path item.name)
          parent child item.fileId
        rw [isPath.dirname_join itemProper] at mapped
        rw [shown]
        refine (or_congr_left mapped).trans ?_
        have notRoot := isPath.join_ne_root itemProper
        simp only [List.mem_cons, exists_eq_or_imp]
        tauto

theorem runCalm_loadChildren {path : Str} (isPath : IsPath path) {dirId : NodeId}
    (notLoaded : ¬ world.Loaded dirId)
    (named : ∀ edge ∈ world.drive.edges, ProperName edge.name) :
    ∃ later, runCalm settings world (loadChildren dirId path) = (.ok (), later) ∧
      world.Lists path dirId (world.drive.listChildren dirId) later := by
  have flag : world.cache.isDirectoryChildrenLoaded dirId = false :=
    Bool.eq_false_iff.mpr notLoaded
  have proper : ∀ item ∈ world.drive.listChildren dirId, ProperName item.name :=
    fun item member => named _ (world.drive.mem_listChildren.mp member)
  have ranItems := @runCalm_mapChildren settings
    (serve settings calm world (.listChildren dirId path)).2 path isPath _ proper
  obtain ⟨mapped, ran, drive, localOnlyFiles, loaded, below, elsewhere, shown⟩ := ranItems
  refine ⟨(serve settings calm mapped (.markDirectoryChildrenLoaded dirId)).2, ?_, drive,
    localOnlyFiles, below _, elsewhere _, fun {other} => ?_, shown _ _⟩
  · unfold loadChildren
    rw [runCalm_perform]
    show runCalm _ world (if world.cache.isDirectoryChildrenLoaded dirId then _ else _) = _
    rw [flag, if_neg Bool.false_ne_true, runCalm_perform]
    exact runCalm_bind_ok ran
  · have marked : ((serve settings calm mapped (.markDirectoryChildrenLoaded dirId)).2).Loaded
        other ↔ (if other = dirId then true
          else if none = some other then false
          else mapped.cache.isDirectoryChildrenLoaded other) = true := by
      rw [← mapped.cache.loaded_markDirectoryChildrenLoaded settings none dirId other]
      rfl
    have before : mapped.Loaded other ↔ world.Loaded other := loaded other
    rw [marked, ← before]
    by_cases same : other = dirId
    · simp [same]
    · simp [same, World.Loaded]

/-! ## The equation -/

/-- What a name resolves to below a directory, `found` being what the directory
resolves to. -/
def World.below (world : World) (found : Option NodeId) (parent name : Str) : Option NodeId :=
  (world.mapped (join parent name)).or
    (found.bind fun dirId => if world.Loaded dirId then none else world.drive.child dirId name)

/-- What a resolution makes of a world.  The directories it lists are above what
it finds. -/
structure World.Looked (rank : NodeId → Nat) (world : World) (path : Str)
    (found : Option NodeId) (later : World) : Prop where
  drive : later.drive = world.drive
  localOnlyFiles : later.localOnlyFiles = world.localOnlyFiles
  farther : ∀ {key}, path.length ≤ (dirname key).length → later.mapped key = world.mapped key
  loaded : ∀ {dirId}, world.Loaded dirId → later.Loaded dirId
  listed : ∀ {dirId}, later.Loaded dirId →
    world.Loaded dirId ∨ ∀ fileId, found = some fileId → rank dirId < rank fileId

theorem World.Looked.of_same (rank : NodeId → Nat) {later : World} {path : Str}
    {found : Option NodeId} (same : world.Same later) : world.Looked rank path found later where
  drive := same.drive.symm
  localOnlyFiles := same.localOnlyFiles.symm
  farther _ := by
    unfold World.mapped
    rw [same.cache]
  loaded wasLoaded := by
    unfold World.Loaded at wasLoaded ⊢
    rwa [← same.cache]
  listed loaded := by
    unfold World.Loaded at loaded ⊢
    rw [same.cache]
    exact .inl loaded

/-- What a search below a directory does, which is one listing at most. -/
theorem runCalm_findBelow_lists {parent name : Str} {dirId : NodeId} (isPath : IsPath parent)
    (proper : ProperName name) (named : ∀ edge ∈ world.drive.edges, ProperName edge.name) :
    (world.Loaded dirId →
      runCalm settings world (findBelow dirId (join parent name)) = (.ok none, world)) ∧
    (¬ world.Loaded dirId → ∃ later,
      runCalm settings world (findBelow dirId (join parent name)) =
        (.ok (later.mapped (join parent name)), later) ∧
      world.Lists parent dirId (world.drive.listChildren dirId) later) := by
  unfold findBelow
  rw [runCalm_perform]
  change (_ → runCalm settings world
      (if world.cache.isDirectoryChildrenLoaded dirId then _ else _ : Op (Option NodeId)) = _) ∧
    (_ → ∃ later, runCalm settings world
      (if world.cache.isDirectoryChildrenLoaded dirId then _ else _ : Op (Option NodeId)) = _ ∧ _)
  constructor
  · intro loaded
    have flag : world.cache.isDirectoryChildrenLoaded dirId = true := loaded
    rw [if_pos flag]
    rfl
  · intro notLoaded
    have noFlag : ¬ world.cache.isDirectoryChildrenLoaded dirId = true := notLoaded
    obtain ⟨later, ran, lists⟩ := @runCalm_loadChildren settings world parent isPath dirId
      notLoaded named
    rw [if_neg noFlag, isPath.dirname_join proper, runCalm_bind_ok ran]
    exact ⟨(serve settings calm later (.resolvePathToNodeId (join parent name))).2, rfl,
      lists.drive, lists.localOnlyFiles, lists.below, lists.elsewhere, lists.loaded,
      lists.shown⟩

/-- Where a directory was found, the resolution looks below it. -/
theorem runCalm_findBelow {rank : NodeId → Nat} {start : World} {parent name : Str}
    {dirId : NodeId} (isPath : IsPath parent) (proper : ProperName name)
    (named : ∀ edge ∈ start.drive.edges, ProperName edge.name)
    (ranked : ∀ edge ∈ start.drive.edges, rank edge.parent < rank edge.fileId)
    (unmapped : start.mapped (join parent name) = none)
    (looked : start.Looked rank parent (some dirId) world) :
    ∃ later, runCalm settings world (findBelow dirId (join parent name)) =
        (.ok (start.below (some dirId) parent name), later) ∧
      start.Looked rank (join parent name) (start.below (some dirId) parent name) later := by
  have longer := isPath.length_lt_join proper
  have sameFlag : world.Loaded dirId ↔ start.Loaded dirId := by
    refine ⟨fun loaded => ?_, looked.loaded⟩
    rcases looked.listed loaded with before | above
    · exact before
    · exact absurd (above dirId rfl) (Nat.lt_irrefl _)
  have found : start.below (some dirId) parent name =
      if start.Loaded dirId then none else start.drive.child dirId name := by
    unfold World.below
    rw [unmapped, Option.none_or, Option.bind_some]
  obtain ⟨flagged, unflagged⟩ := @runCalm_findBelow_lists settings world parent name dirId
    isPath proper (looked.drive ▸ named)
  rw [found]
  by_cases loaded : world.Loaded dirId
  · rw [if_pos (sameFlag.mp loaded)]
    refine ⟨world, flagged loaded, looked.drive, looked.localOnlyFiles, fun far => ?_,
      looked.loaded, fun isLoaded => .inr fun fileId impossible => by cases impossible⟩
    exact looked.farther (Nat.le_trans (Nat.le_of_lt longer) far)
  · obtain ⟨later, ran, lists⟩ := unflagged loaded
    have answer : later.mapped (join parent name) = start.drive.child dirId name := by
      rw [lists.below proper, looked.farther, unmapped, Option.or_none, looked.drive]
      · rfl
      · rw [isPath.dirname_join proper]
    rw [if_neg (loaded ∘ sameFlag.mpr), ← answer]
    refine ⟨later, ran, lists.drive.trans looked.drive,
      lists.localOnlyFiles.trans looked.localOnlyFiles, fun {key} far => ?_,
      fun wasLoaded => lists.loaded.mpr (.inl (looked.loaded wasLoaded)),
      fun {other} isLoaded => ?_⟩
    · have notBelow : ∀ child, ProperName child → key ≠ join parent child := by
        intro child childProper same
        rw [same, isPath.dirname_join childProper] at far
        exact absurd (Nat.lt_of_lt_of_le longer far) (Nat.lt_irrefl _)
      exact (lists.elsewhere notBelow).trans
        (looked.farther (Nat.le_trans (Nat.le_of_lt longer) far))
    · have isListed : ∀ fileId, later.mapped (join parent name) = some fileId →
          rank dirId < rank fileId := by
        intro fileId mapped
        exact ranked _ (start.drive.mem_edges_of_child (answer.symm.trans mapped))
      rcases lists.loaded.mp isLoaded with before | rfl
      · rcases looked.listed before with wasLoaded | above
        · exact .inl wasLoaded
        · exact .inr fun fileId child => Nat.lt_trans (above dirId rfl) (isListed fileId child)
      · exact .inr isListed

theorem resolution_of_run {path : Str} {found : Option NodeId} {later : World}
    (ran : runCalm settings world (resolvePath rootId path) = (.ok found, later)) :
    world.resolution settings rootId path = found := by
  unfold World.resolution
  rw [ran]

theorem runCalm_resolvePath_join {rank : NodeId → Nat} {parent name : Str}
    (isPath : IsPath parent) (proper : ProperName name)
    (named : ∀ edge ∈ world.drive.edges, ProperName edge.name)
    (ranked : ∀ edge ∈ world.drive.edges, rank edge.parent < rank edge.fileId)
    (above : ∀ start : World, start.drive = world.drive → ∃ later,
      runCalm settings start (resolvePath rootId parent) =
          (.ok (start.resolution settings rootId parent), later) ∧
        start.Looked rank parent (start.resolution settings rootId parent) later) :
    ∃ later, runCalm settings world (resolvePath rootId (join parent name)) =
        (.ok (world.below (world.resolution settings rootId parent) parent name), later) ∧
      world.Looked rank (join parent name)
        (world.below (world.resolution settings rootId parent) parent name) later := by
  let start : World := (serve settings calm world (.resolvePathToNodeId (join parent name))).2
  have same : world.Same start := ⟨rfl, rfl, rfl⟩
  have longer := isPath.length_lt_join proper
  have answer : (serve settings calm world (.resolvePathToNodeId (join parent name))).1 =
      world.mapped (join parent name) := rfl
  rw [resolvePath_join rootId isPath proper, runCalm_perform, answer]
  cases cached : world.mapped (join parent name) with
  | some cachedId =>
      refine ⟨start, ?_, .of_same rank same⟩
      unfold World.below
      rw [cached]
      rfl
  | none =>
      obtain ⟨middle, ran, looked⟩ := above start rfl
      rw [← same.resolution] at ran looked
      have lookedThere : world.Looked rank parent (world.resolution settings rootId parent)
          middle := ⟨looked.drive, looked.localOnlyFiles, looked.farther, looked.loaded,
            looked.listed⟩
      show ∃ later, runCalm settings start (resolvePath rootId parent >>= _) = _ ∧ _
      rw [runCalm_bind_ok ran]
      cases found : world.resolution settings rootId parent with
      | none =>
          refine ⟨middle, ?_, lookedThere.drive, lookedThere.localOnlyFiles, fun far => ?_,
            lookedThere.loaded, fun loaded => ?_⟩
          · unfold World.below
            rw [cached]
            rfl
          · exact lookedThere.farther (Nat.le_trans (Nat.le_of_lt longer) far)
          · refine .inr fun fileId impossible => ?_
            unfold World.below at impossible
            rw [cached] at impossible
            cases impossible
      | some dirId =>
          rw [found] at lookedThere
          exact runCalm_findBelow isPath proper named ranked cached lookedThere

/-- A resolution always ends, with what the path resolves to. -/
theorem runCalm_resolvePath {rank : NodeId → Nat} {path : Str} (isPath : IsPath path)
    (named : ∀ edge ∈ world.drive.edges, ProperName edge.name)
    (ranked : ∀ edge ∈ world.drive.edges, rank edge.parent < rank edge.fileId) :
    ∃ later, runCalm settings world (resolvePath rootId path) =
        (.ok (world.resolution settings rootId path), later) ∧
      world.Looked rank path (world.resolution settings rootId path) later := by
  induction isPath generalizing world with
  | root => exact ⟨world, rfl, .of_same rank ⟨rfl, rfl, rfl⟩⟩
  | child isPath proper induction =>
      obtain ⟨later, ran, looked⟩ := runCalm_resolvePath_join isPath proper named ranked
        fun start sameDrive => induction (sameDrive ▸ named) (sameDrive ▸ ranked)
      rw [resolution_of_run ran]
      exact ⟨later, ran, looked⟩

@[simp] theorem resolution_root : world.resolution settings rootId ['/'] = some rootId := rfl

theorem resolution_join (tree : world.drive.IsTree) {parent name : Str}
    (isPath : IsPath parent) (proper : ProperName name) :
    world.resolution settings rootId (join parent name) =
      world.below (world.resolution settings rootId parent) parent name := by
  obtain ⟨rank, ranked⟩ := tree.ranked
  obtain ⟨later, ran, -⟩ := runCalm_resolvePath_join isPath proper tree.named ranked
    fun start sameDrive => runCalm_resolvePath isPath (sameDrive ▸ tree.named) (sameDrive ▸ ranked)
  exact resolution_of_run ran

end Equations

end FuseDrive.Fuse
