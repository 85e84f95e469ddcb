import FuseDrive.Fuse.Resolution

/-!
# What a lookup leaves

A lookup climbs from its path to the nearest entry of the map and comes down
again, listing each directory on the way that is not flagged.  The entries and
flags that it leaves are so a function of those before it and of Drive.
-/

namespace FuseDrive.Fuse

open Program (Executes OnlyAsks perform)

/-- Requests that change neither Drive nor `local_only_files`. -/
def Request.Looks : Request → Prop
  | .addLocalOnly _ | .dropLocalOnly _ | .createFolder _ _ | .updateFile _ _ _ _
  | .deleteFile _ => False
  | _ => True

/-- The maps have room. -/
structure Choice.Roomy (choice : Choice) : Prop where
  keepsPaths : choice.victim = none
  keepsFlags : choice.dirVictim = none

/-- A mount that nothing happens to: no time passes, nobody else uses Drive and
the maps evict nothing. -/
def steady (settings : CacheSettings) : Program.Environment World Request Request.Answer where
  serves := (environment settings (fun _ _ choice => choice.Roomy) (fun _ _ => False)).serves
  drifts _ _ := False

section Executions

variable {settings : CacheSettings} {rootId : NodeId} {world : World}

theorem steady_of_ask {α : Type} {request : Request} {next : request.Answer → Op α}
    {result : Except Errno α} {finish : World}
    (execution : Executes (steady settings) world (.ask request next) result finish) :
    ∃ choice : Choice, choice.Roomy ∧
      Executes (steady settings) (serve settings choice world request).2
        (next (serve settings choice world request).1) result finish := by
  cases execution with
  | drift drifted => exact drifted.elim
  | ask served rest =>
      obtain ⟨choice, -, roomy, same⟩ := served
      refine ⟨choice, roomy, ?_⟩
      rw [same]
      exact rest

theorem steady_of_perform {α : Type} {request : Request} {next : request.Answer → Op α}
    {result : Except Errno α} {finish : World}
    (execution : Executes (steady settings) world (perform request >>= next) result finish) :
    ∃ choice : Choice, choice.Roomy ∧
      Executes (steady settings) (serve settings choice world request).2
        (next (serve settings choice world request).1) result finish :=
  steady_of_ask execution

theorem steady_of_done {α : Type} {ended result : Except Errno α} {finish : World}
    (execution : Executes (steady settings) world (.done ended) result finish) :
    result = ended ∧ finish = world := by
  cases execution with
  | done => exact ⟨rfl, rfl⟩
  | drift drifted => exact drifted.elim

theorem steady_of_bind {α β : Type} {program : Op α} {next : α → Op β} {value : β}
    {finish : World}
    (execution : Executes (steady settings) world (program >>= next) (.ok value) finish) :
    ∃ found middle, Executes (steady settings) world program (.ok found) middle ∧
      Executes (steady settings) middle (next found) (.ok value) finish := by
  rcases execution.of_bind with ⟨error, impossible, -⟩ | split
  · cases impossible
  · exact split

theorem steady_of_unless {α : Type} {refused : Bool} {error : Errno} {program : Op α} {value : α}
    {finish : World}
    (execution : Executes (steady settings) world
      (if refused then Program.raise error else program) (.ok value) finish) :
    Executes (steady settings) world program (.ok value) finish := by
  cases refused with
  | true => cases (steady_of_done execution).1
  | false => exact execution

theorem steady_of_if {α : Type} {fine : Bool} {error : Errno} {program : Op α} {value : α}
    {finish : World}
    (execution : Executes (steady settings) world
      (if fine then program else Program.raise error) (.ok value) finish) :
    fine = true ∧ Executes (steady settings) world program (.ok value) finish := by
  cases fine with
  | true => exact ⟨rfl, execution⟩
  | false => cases (steady_of_done execution).1

theorem mapChildren_onlyAsks (path : Str) (items : List Item) :
    OnlyAsks Request.Looks (mapChildren path items) := by
  induction items with
  | nil => exact .done
  | cons item items induction => exact .ask trivial fun _ => induction

theorem loadChildren_onlyAsks (dirId : NodeId) (path : Str) :
    OnlyAsks Request.Looks (loadChildren dirId path) := by
  refine .ask trivial fun loaded => ?_
  cases loaded with
  | true => exact .done
  | false =>
      refine .ask trivial fun items => ?_
      cases items with
      | none => exact .done
      | some items =>
          exact (mapChildren_onlyAsks path items).bind fun _ => .perform trivial

theorem resolveWithin_onlyAsks (limit : Nat) (path : Str) :
    OnlyAsks Request.Looks (resolveWithin rootId limit path) := by
  induction limit generalizing path with
  | zero => exact .done
  | succ limit induction =>
      unfold resolveWithin
      split
      · exact .done
      · refine .ask trivial fun cached => ?_
        cases cached with
        | some cachedId => exact .done
        | none =>
            refine (induction (dirname path)).bind fun found => ?_
            cases found with
            | none => exact .done
            | some dirId =>
                refine .ask trivial fun loaded => ?_
                cases loaded with
                | true => exact .done
                | false => exact (loadChildren_onlyAsks _ _).bind fun _ => .perform trivial

theorem resolvePath_onlyAsks (path : Str) : OnlyAsks Request.Looks (resolvePath rootId path) :=
  resolveWithin_onlyAsks path.length path

theorem serve_of_looks {choice : Choice} {request : Request} (looks : request.Looks) :
    (serve settings choice world request).2.drive = world.drive ∧
      (serve settings choice world request).2.localOnlyFiles = world.localOnlyFiles := by
  cases request with
  | listChildren parentId parentPath =>
      unfold serve
      split
      · exact ⟨rfl, rfl⟩
      · exact ⟨rfl, rfl⟩
  | addLocalOnly | dropLocalOnly | createFolder | updateFile | deleteFile => exact looks.elim
  | _ => exact ⟨rfl, rfl⟩

/-- A resolution changes neither Drive nor `local_only_files`. -/
theorem resolvePath_keeps {path : Str} {result : Except Errno (Option NodeId)}
    {finish : World}
    (execution : Executes (steady settings) world (resolvePath rootId path) result finish) :
    finish.drive = world.drive ∧ finish.localOnlyFiles = world.localOnlyFiles := by
  refine execution.keeps (fun later =>
    later.drive = world.drive ∧ later.localOnlyFiles = world.localOnlyFiles)
    (fun _ drifted => False.elim drifted) ?_ (resolvePath_onlyAsks path) ⟨rfl, rfl⟩
  intro before request answer later holds looks served
  obtain ⟨choice, -, -, same⟩ := served
  have later_eq : later = (serve settings choice before request).2 := by rw [same]
  obtain ⟨sameDrive, sameLocal⟩ := @serve_of_looks settings before choice request looks
  rw [later_eq]
  exact ⟨sameDrive.trans holds.1, sameLocal.trans holds.2⟩

/-! ## Lookups without failures -/

theorem serve_map_of_roomy {choice : Choice} (roomy : choice.Roomy) (path : Str)
    (fileId : NodeId) :
    serve settings choice world (.mapPathToNodeId path fileId) =
      serve settings calm world (.mapPathToNodeId path fileId) := by
  unfold serve
  rw [roomy.keepsPaths]
  rfl

theorem serve_mark_of_roomy {choice : Choice} (roomy : choice.Roomy) (dirId : NodeId) :
    serve settings choice world (.markDirectoryChildrenLoaded dirId) =
      serve settings calm world (.markDirectoryChildrenLoaded dirId) := by
  unfold serve
  rw [roomy.keepsFlags]
  rfl

theorem runCalm_of_mapChildren {path : Str} {items : List Item} {result : Except Errno Unit}
    {later : World}
    (execution : Executes (steady settings) world (mapChildren path items) result later) :
    runCalm settings world (mapChildren path items) = (result, later) := by
  induction items generalizing world with
  | nil =>
      obtain ⟨rfl, rfl⟩ := steady_of_done execution
      rfl
  | cons item items induction =>
      obtain ⟨choice, roomy, rest⟩ := steady_of_perform execution
      rw [serve_map_of_roomy roomy] at rest
      exact induction rest

theorem runCalm_of_loadChildren {path : Str} {dirId : NodeId} {later : World}
    (execution : Executes (steady settings) world (loadChildren dirId path) (.ok ()) later) :
    runCalm settings world (loadChildren dirId path) = (.ok (), later) := by
  unfold loadChildren at execution ⊢
  obtain ⟨_, -, checking⟩ := steady_of_perform execution
  rw [runCalm_perform]
  change Executes (steady settings) world
    (if world.cache.isDirectoryChildrenLoaded dirId then _ else _ : Op Unit) _ _ at checking
  change runCalm settings world
    (if world.cache.isDirectoryChildrenLoaded dirId then _ else _ : Op Unit) = _
  split at checking
  · rename_i loaded
    obtain ⟨-, rfl⟩ := steady_of_done checking
    rw [if_pos loaded]
    rfl
  · rename_i notLoaded
    rw [if_neg notLoaded, runCalm_perform]
    obtain ⟨choice, -, answered⟩ := steady_of_perform checking
    cases fails : choice.fails with
    | some errno =>
        rw [serve_listChildren_failed fails] at answered
        cases (steady_of_done answered).1
    | none =>
        rw [serve_listChildren fails] at answered
        obtain ⟨_, mapped, mapping, marking⟩ := steady_of_bind answered
        obtain ⟨mark, roomy, marked⟩ := steady_of_ask marking
        rw [serve_mark_of_roomy roomy] at marked
        obtain ⟨-, rfl⟩ := steady_of_done marked
        rw [serve_listChildren rfl]
        exact runCalm_bind_ok (runCalm_of_mapChildren mapping)

theorem runCalm_of_findBelow {path : Str} {dirId : NodeId} {found : Option NodeId}
    {later : World}
    (execution : Executes (steady settings) world (findBelow dirId path) (.ok found) later) :
    runCalm settings world (findBelow dirId path) = (.ok found, later) := by
  unfold findBelow at execution ⊢
  obtain ⟨_, -, checking⟩ := steady_of_perform execution
  rw [runCalm_perform]
  change Executes (steady settings) world
    (if world.cache.isDirectoryChildrenLoaded dirId then _ else _ : Op (Option NodeId)) _ _
    at checking
  change runCalm settings world
    (if world.cache.isDirectoryChildrenLoaded dirId then _ else _ : Op (Option NodeId)) = _
  split at checking
  · rename_i loaded
    obtain ⟨same, rfl⟩ := steady_of_done checking
    cases same
    rw [if_pos loaded]
    rfl
  · rename_i notLoaded
    obtain ⟨_, loaded, loading, asking⟩ := steady_of_bind checking
    rw [if_neg notLoaded, runCalm_bind_ok (runCalm_of_loadChildren loading)]
    obtain ⟨_, -, asked⟩ := steady_of_ask asking
    obtain ⟨same, rfl⟩ := steady_of_done asked
    cases same
    rfl

theorem runCalm_of_resolvePath {path : Str} (isPath : IsPath path) {found : Option NodeId}
    {later : World}
    (execution : Executes (steady settings) world (resolvePath rootId path) (.ok found) later) :
    runCalm settings world (resolvePath rootId path) = (.ok found, later) := by
  induction isPath generalizing world found later with
  | root =>
      obtain ⟨same, rfl⟩ := steady_of_done execution
      cases same
      rfl
  | @child parent name isParent proper induction =>
      rw [resolvePath_join rootId isParent proper] at execution ⊢
      obtain ⟨choice, -, asked⟩ := steady_of_perform execution
      have answered (choice : Choice) :
          serve settings choice world (.resolvePathToNodeId (join parent name)) =
            (world.mapped (join parent name), { world with loading := none }) := rfl
      rw [answered] at asked
      rw [runCalm_perform, answered]
      cases cached : world.mapped (join parent name) with
      | some cachedId =>
          rw [cached] at asked
          obtain ⟨same, rfl⟩ := steady_of_done asked
          cases same
          rfl
      | none =>
          rw [cached] at asked
          obtain ⟨dirId, middle, resolved, ending⟩ := steady_of_bind asked
          dsimp only
          rw [runCalm_bind_ok (induction resolved)]
          cases dirId with
          | none =>
              obtain ⟨same, rfl⟩ := steady_of_done ending
              cases same
              rfl
          | some dirId => exact runCalm_of_findBelow ending

end Executions

/-! ## What a lookup lists -/

section Listings

variable (settings : CacheSettings) (rootId : NodeId) (world : World)

/-- The paths that a lookup of `target` asks the map for. -/
inductive World.Asks (world : World) (target : Str) : Str → Prop where
  | self : world.Asks target target
  | up {parent name : Str} : IsPath parent → ProperName name →
      world.Asks target (join parent name) → world.mapped (join parent name) = none →
      world.Asks target parent

/-- A lookup of `target` lists the directory at the path: a name below it is
asked for in vain, and it is not flagged. -/
structure World.ListsFor (target directory : Str) (dirId : NodeId) : Prop where
  isPath : IsPath directory
  asked : ∃ name, ProperName name ∧ world.Asks target (join directory name) ∧
    world.mapped (join directory name) = none
  found : world.resolution settings rootId directory = some dirId
  notLoaded : ¬ world.Loaded dirId

/-- The world after a lookup. -/
structure World.LookedUp (target : Str) (later : World) : Prop where
  drive : later.drive = world.drive
  listed : ∀ {directory dirId name}, world.ListsFor settings rootId target directory dirId →
    ProperName name → later.mapped (join directory name) =
      (world.drive.child dirId name).or (world.mapped (join directory name))
  elsewhere : ∀ {directory name}, IsPath directory → ProperName name →
    (∀ dirId, ¬ world.ListsFor settings rootId target directory dirId) →
    later.mapped (join directory name) = world.mapped (join directory name)
  loaded : ∀ {dirId}, later.Loaded dirId ↔
    world.Loaded dirId ∨ ∃ directory, world.ListsFor settings rootId target directory dirId
  shown : ∀ {parent child}, child ∈ later.cache.getChildrenPaths parent ↔
    child ∈ world.cache.getChildrenPaths parent ∨
      ∃ dirId, world.ListsFor settings rootId target parent dirId ∧
        ∃ item ∈ world.drive.listChildren dirId, child = join parent item.name

variable {settings rootId world}

theorem World.asks_join {parent name : Str} (isPath : IsPath parent) (proper : ProperName name)
    {path : Str} :
    world.Asks (join parent name) path ↔
      path = join parent name ∨
        world.mapped (join parent name) = none ∧ world.Asks parent path := by
  constructor
  · intro asks
    induction asks with
    | self => exact .inl rfl
    | up isParent nameProper _ unmapped induction =>
        rcases induction with same | ⟨nothing, asks⟩
        · obtain ⟨rfl, rfl⟩ := join_inj isParent nameProper isPath proper same
          exact .inr ⟨unmapped, .self⟩
        · exact .inr ⟨nothing, .up isParent nameProper asks unmapped⟩
  · intro asks
    rcases asks with rfl | ⟨unmapped, asks⟩
    · exact .self
    · induction asks with
      | self => exact .up isPath proper .self unmapped
      | up isParent nameProper _ nothing induction =>
          exact .up isParent nameProper induction nothing

theorem World.asks_root {path : Str} : world.Asks ['/'] path ↔ path = ['/'] := by
  constructor
  · intro asks
    induction asks with
    | self => rfl
    | up isParent proper _ _ induction => exact absurd induction (isParent.join_ne_root proper)
  · intro isRoot
    exact isRoot ▸ .self

/-- What the map has is not looked for in directories. -/
theorem World.not_listsFor_of_mapped {target directory : Str} {dirId : NodeId}
    (isPath : IsPath target) (mapped : target = ['/'] ∨ world.mapped target ≠ none) :
    ¬ world.ListsFor settings rootId target directory dirId := by
  intro lists
  obtain ⟨name, proper, asks, unmapped⟩ := lists.asked
  cases isPath with
  | root => exact lists.isPath.join_ne_root proper (world.asks_root.mp asks)
  | child isParent nameProper =>
      have present := mapped.resolve_left (isParent.join_ne_root nameProper)
      rcases (world.asks_join isParent nameProper).mp asks with same | ⟨nothing, -⟩
      · exact present (same ▸ unmapped)
      · exact present nothing

/-- A lookup that the map does not answer lists what that of the directory
lists, and the directory. -/
theorem World.listsFor_join {parent name directory : Str} {dirId : NodeId}
    (isPath : IsPath parent) (proper : ProperName name)
    (unmapped : world.mapped (join parent name) = none) :
    world.ListsFor settings rootId (join parent name) directory dirId ↔
      directory = parent ∧ world.resolution settings rootId parent = some dirId ∧
          ¬ world.Loaded dirId ∨
        world.ListsFor settings rootId parent directory dirId := by
  constructor
  · intro lists
    obtain ⟨other, otherProper, asks, nothing⟩ := lists.asked
    rcases (world.asks_join isPath proper).mp asks with same | ⟨-, above⟩
    · obtain ⟨rfl, rfl⟩ := join_inj lists.isPath otherProper isPath proper same
      exact .inl ⟨rfl, lists.found, lists.notLoaded⟩
    · exact .inr ⟨lists.isPath, ⟨other, otherProper, above, nothing⟩, lists.found,
        lists.notLoaded⟩
  · intro lists
    rcases lists with ⟨rfl, found, notLoaded⟩ | lists
    · exact ⟨isPath, ⟨name, proper, .self, unmapped⟩, found, notLoaded⟩
    · obtain ⟨other, otherProper, asks, nothing⟩ := lists.asked
      exact ⟨lists.isPath, ⟨other, otherProper,
        (world.asks_join isPath proper).mpr (.inr ⟨unmapped, asks⟩), nothing⟩, lists.found,
        lists.notLoaded⟩

theorem World.Asks.length_le {target path : Str} (asks : world.Asks target path) :
    path.length ≤ target.length := by
  induction asks with
  | self => exact Nat.le_refl _
  | up isParent proper _ _ induction =>
      exact (Nat.le_of_lt (isParent.length_lt_join proper)).trans induction

/-- A lookup asks for one path in a directory. -/
theorem World.Asks.unique {target directory first second : Str} (isTarget : IsPath target)
    (isPath : IsPath directory) (firstProper : ProperName first)
    (secondProper : ProperName second) (asksFirst : world.Asks target (join directory first))
    (asksSecond : world.Asks target (join directory second)) : first = second := by
  induction isTarget with
  | root => exact absurd (world.asks_root.mp asksFirst) (isPath.join_ne_root firstProper)
  | child isParent proper induction =>
      have tooLong {name other : Str} (otherProper : ProperName other)
          (same : directory = name) (above : world.Asks name (join directory other)) : False := by
        have longer := isPath.length_lt_join otherProper
        have noLonger := above.length_le
        rw [← same] at noLonger
        omega
      rcases (world.asks_join isParent proper).mp asksFirst with here | ⟨-, firstAbove⟩
      · obtain ⟨sameDirectory, sameFirst⟩ := join_inj isPath firstProper isParent proper here
        rcases (world.asks_join isParent proper).mp asksSecond with alsoHere | ⟨-, above⟩
        · exact sameFirst.trans (join_inj isPath secondProper isParent proper alsoHere).2.symm
        · exact (tooLong secondProper sameDirectory above).elim
      · rcases (world.asks_join isParent proper).mp asksSecond with here | ⟨-, secondAbove⟩
        · have sameDirectory := (join_inj isPath secondProper isParent proper here).1
          exact (tooLong firstProper sameDirectory firstAbove).elim
        · exact induction firstAbove secondAbove

/-- A lookup does not list its own path. -/
theorem World.not_listsFor_self {path : Str} (isPath : IsPath path) {dirId : NodeId} :
    ¬ world.ListsFor settings rootId path path dirId := by
  intro lists
  obtain ⟨name, proper, asks, -⟩ := lists.asked
  exact absurd (isPath.length_lt_join proper) (Nat.not_lt.mpr asks.length_le)

theorem World.LookedUp.of_same {target : Str} {later : World} (same : world.Same later)
    (nothing : ∀ directory dirId, ¬ world.ListsFor settings rootId target directory dirId) :
    world.LookedUp settings rootId target later where
  drive := same.drive.symm
  listed lists := absurd lists (nothing _ _)
  elsewhere _ _ _ := by
    unfold World.mapped
    rw [same.cache]
  loaded {dirId} := by
    have sameFlag : later.Loaded dirId ↔ world.Loaded dirId := by
      unfold World.Loaded
      rw [same.cache]
    rw [sameFlag]
    exact ⟨.inl, fun either => either.resolve_right fun listed =>
      nothing _ _ listed.choose_spec⟩
  shown := by
    rw [same.cache]
    exact ⟨.inl, fun either => either.resolve_right fun listed =>
      nothing _ _ listed.choose_spec.1⟩

theorem World.LookedUp.of_listsFor {target other : Str} {later : World}
    (looked : world.LookedUp settings rootId target later)
    (same : ∀ directory dirId, world.ListsFor settings rootId other directory dirId ↔
      world.ListsFor settings rootId target directory dirId) :
    world.LookedUp settings rootId other later where
  drive := looked.drive
  listed lists := looked.listed ((same _ _).mp lists)
  elsewhere isPath proper notListed :=
    looked.elsewhere isPath proper fun dirId lists => notListed dirId ((same _ _).mpr lists)
  loaded {dirId} := by
    rw [looked.loaded]
    simp only [same]
  shown {parent child} := by
    rw [looked.shown]
    simp only [same]

theorem World.LookedUp.child {parent name : Str} {dirId : NodeId} {middle later : World}
    (isPath : IsPath parent) (proper : ProperName name)
    (unmapped : world.mapped (join parent name) = none)
    (found : world.resolution settings rootId parent = some dirId)
    (notLoaded : ¬ world.Loaded dirId)
    (looked : world.LookedUp settings rootId parent middle)
    (lists : middle.Lists parent dirId (middle.drive.listChildren dirId) later) :
    world.LookedUp settings rootId (join parent name) later := by
  have listsFor {directory : Str} {other : NodeId} :=
    @World.listsFor_join settings rootId world parent name directory other isPath proper unmapped
  have notBelow {directory child : Str} (isDirectory : IsPath directory)
      (childProper : ProperName child) (other : directory ≠ parent) (sibling : Str)
      (siblingProper : ProperName sibling) :
      join directory child ≠ join parent sibling :=
    fun same => other (join_inj isDirectory childProper isPath siblingProper same).1
  refine ⟨lists.drive.trans looked.drive, fun {directory other child} listed childProper => ?_,
    fun {directory child} isDirectory childProper notListed => ?_, fun {other} => ?_,
    fun {directory child} => ?_⟩
  · rcases listsFor.mp listed with ⟨rfl, alsoFound, -⟩ | before
    · cases found.symm.trans alsoFound
      rw [lists.below childProper, looked.elsewhere isPath childProper
        fun _ => world.not_listsFor_self isPath, looked.drive]
      rfl
    · have apart : directory ≠ parent := by
        rintro rfl
        exact world.not_listsFor_self isPath before
      rw [lists.elsewhere (notBelow listed.isPath childProper apart),
        looked.listed before childProper]
  · have apart : directory ≠ parent := by
      rintro rfl
      exact notListed dirId (listsFor.mpr (.inl ⟨rfl, found, notLoaded⟩))
    rw [lists.elsewhere (notBelow isDirectory childProper apart),
      looked.elsewhere isDirectory childProper fun other before =>
        notListed other (listsFor.mpr (.inr before))]
  · rw [lists.loaded, looked.loaded]
    constructor
    · intro either
      rcases either with (before | ⟨directory, before⟩) | rfl
      · exact .inl before
      · exact .inr ⟨directory, listsFor.mpr (.inr before)⟩
      · exact .inr ⟨parent, listsFor.mpr (.inl ⟨rfl, found, notLoaded⟩)⟩
    · intro either
      rcases either with before | ⟨directory, listed⟩
      · exact .inl (.inl before)
      · rcases listsFor.mp listed with ⟨rfl, alsoFound, -⟩ | before
        · cases found.symm.trans alsoFound
          exact .inr rfl
        · exact .inl (.inr ⟨directory, before⟩)
  · rw [lists.shown, looked.shown, looked.drive]
    constructor
    · intro either
      rcases either with (before | ⟨other, before, item⟩) | ⟨rfl, item⟩
      · exact .inl before
      · exact .inr ⟨other, listsFor.mpr (.inr before), item⟩
      · exact .inr ⟨dirId, listsFor.mpr (.inl ⟨rfl, found, notLoaded⟩), item⟩
    · intro either
      rcases either with before | ⟨other, listed, item⟩
      · exact .inl (.inl before)
      · rcases listsFor.mp listed with ⟨rfl, alsoFound, -⟩ | before
        · cases found.symm.trans alsoFound
          exact .inr ⟨rfl, item⟩
        · exact .inl (.inr ⟨other, before, item⟩)

theorem runCalm_lookedUp (tree : world.drive.IsTree) {path : Str} (isPath : IsPath path)
    {start : World} (same : world.Same start) :
    ∃ later, runCalm settings start (resolvePath rootId path) =
        (.ok (world.resolution settings rootId path), later) ∧
      world.LookedUp settings rootId path later := by
  induction isPath generalizing start with
  | root =>
      exact ⟨start, rfl, .of_same same fun _ _ => world.not_listsFor_of_mapped .root (.inl rfl)⟩
  | @child parent name isParent proper induction =>
      let asked : World := { start with loading := none }
      have sameAsked : world.Same asked := ⟨same.cache, same.drive, same.localOnlyFiles⟩
      have answer : serve settings calm start (.resolvePathToNodeId (join parent name)) =
          (world.mapped (join parent name), asked) := by
        unfold World.mapped
        rw [same.cache]
        rfl
      rw [resolution_join tree isParent proper, resolvePath_join rootId isParent proper,
        runCalm_perform, answer]
      unfold World.below
      cases cached : world.mapped (join parent name) with
      | some cachedId =>
          refine ⟨asked, rfl, .of_same sameAsked fun _ _ =>
            world.not_listsFor_of_mapped (isParent.child proper) (.inr ?_)⟩
          rw [cached]
          exact Option.some_ne_none _
      | none =>
          obtain ⟨middle, ran, looked⟩ := induction sameAsked
          obtain ⟨rank, ranked⟩ := tree.ranked
          obtain ⟨_, ranAgain, above⟩ := @runCalm_resolvePath settings rootId asked rank parent
            isParent (sameAsked.drive ▸ tree.named) (sameAsked.drive ▸ ranked)
          rw [← sameAsked.resolution] at ranAgain above
          cases ran.symm.trans ranAgain
          dsimp only
          rw [runCalm_bind_ok ran]
          cases found : world.resolution settings rootId parent with
          | none =>
              refine ⟨middle, rfl, looked.of_listsFor fun directory dirId => ?_⟩
              rw [world.listsFor_join isParent proper cached, found]
              simp
          | some dirId =>
              rw [found] at above
              have sameFlag : middle.Loaded dirId ↔ world.Loaded dirId := by
                have sameBefore : asked.Loaded dirId ↔ world.Loaded dirId := by
                  unfold World.Loaded
                  rw [sameAsked.cache]
                rw [← sameBefore]
                refine ⟨fun loaded => ?_, above.loaded⟩
                refine (above.listed loaded).resolve_right fun listed => ?_
                exact Nat.lt_irrefl _ (listed dirId rfl)
              obtain ⟨flagged, unflagged⟩ := @runCalm_findBelow_lists settings middle parent
                name dirId isParent proper (looked.drive ▸ tree.named)
              rw [Option.none_or, Option.bind_some]
              by_cases loaded : world.Loaded dirId
              · refine ⟨middle, ?_, looked.of_listsFor fun directory other => ?_⟩
                · rw [if_pos loaded]
                  exact flagged (sameFlag.mpr loaded)
                · rw [world.listsFor_join isParent proper cached, found]
                  refine ⟨fun either => either.resolve_left fun here => ?_, .inr⟩
                  cases here.2.1
                  exact here.2.2 loaded
              · obtain ⟨later, ranBelow, lists⟩ := unflagged (loaded ∘ sameFlag.mp)
                refine ⟨later, ?_, looked.child isParent proper cached found loaded lists⟩
                have answered : later.mapped (join parent name) =
                    world.drive.child dirId name := by
                  rw [lists.below proper, looked.elsewhere isParent proper
                    fun _ => world.not_listsFor_self isParent, cached, Option.or_none,
                    looked.drive]
                  rfl
                rw [if_neg loaded, ← answered]
                exact ranBelow

/-- A lookup does not list what it finds. -/
theorem World.not_listsFor_found (tree : world.drive.IsTree) {target directory : Str}
    (isTarget : IsPath target) {fileId : NodeId}
    (found : world.resolution settings rootId target = some fileId) :
    ¬ world.ListsFor settings rootId target directory fileId := by
  intro lists
  obtain ⟨rank, ranked⟩ := tree.ranked
  obtain ⟨later, ran, looked⟩ := @runCalm_lookedUp settings rootId world tree target isTarget
    world ⟨rfl, rfl, rfl⟩
  obtain ⟨_, ranAgain, above⟩ := @runCalm_resolvePath settings rootId world rank target isTarget
    tree.named ranked
  cases ran.symm.trans ranAgain
  rcases above.listed (looked.loaded.mpr (.inr ⟨directory, lists⟩)) with before | lower
  · exact lists.notLoaded before
  · exact Nat.lt_irrefl _ (lower fileId found)

theorem World.LookedUp.entered {target : Str} {later : World}
    (looked : world.LookedUp settings rootId target later) {path : Str} (isPath : IsPath path)
    (entered : path = ['/'] ∨ world.mapped path ≠ none) :
    path = ['/'] ∨ later.mapped path ≠ none := by
  cases isPath with
  | root => exact .inl rfl
  | @child parent name isParent proper =>
      have mapped := entered.resolve_left (isParent.join_ne_root proper)
      right
      by_cases lists : ∃ dirId, world.ListsFor settings rootId target parent dirId
      · obtain ⟨dirId, lists⟩ := lists
        rw [looked.listed lists proper]
        simp [mapped]
      · rw [looked.elsewhere isParent proper fun dirId listed => lists ⟨dirId, listed⟩]
        exact mapped

theorem World.LookedUp.mapped_of_asked (tree : world.drive.IsTree) {target : Str} {later : World}
    (looked : world.LookedUp settings rootId target later) (isTarget : IsPath target)
    {path : Str} {fileId : NodeId} (isPath : IsPath path) (asked : world.Asks target path)
    (found : world.resolution settings rootId path = some fileId) :
    path = ['/'] ∨ later.mapped path = some fileId := by
  cases isPath with
  | root => exact .inl rfl
  | @child parent name isParent proper =>
      right
      rw [resolution_join tree isParent proper, World.below] at found
      cases cached : world.mapped (join parent name) with
      | some cachedId =>
          rw [cached, Option.some_or] at found
          rw [looked.elsewhere isParent proper, cached, found]
          intro dirId lists
          obtain ⟨other, otherProper, asksOther, unmapped⟩ := lists.asked
          rw [← asked.unique isTarget isParent proper otherProper asksOther, cached] at unmapped
          cases unmapped
      | none =>
          rw [cached, Option.none_or] at found
          obtain ⟨dirId, foundParent, child⟩ := Option.bind_eq_some_iff.mp found
          split at child
          · cases child
          · rename_i notLoaded
            rw [looked.listed ⟨isParent, ⟨name, proper, asked, cached⟩, foundParent, notLoaded⟩
              proper, child, Option.some_or]

/-- What an execution of a lookup that returns shows. -/
theorem lookedUp_of_resolvePath (tree : world.drive.IsTree) {path : Str} (isPath : IsPath path)
    {found : Option NodeId} {later : World}
    (execution : Executes (steady settings) world (resolvePath rootId path) (.ok found) later) :
    world.resolution settings rootId path = found ∧
      world.LookedUp settings rootId path later := by
  obtain ⟨last, ran, looked⟩ := @runCalm_lookedUp settings rootId world tree path isPath world
    ⟨rfl, rfl, rfl⟩
  cases (runCalm_of_resolvePath isPath execution).symm.trans ran
  exact ⟨rfl, looked⟩

/-! ## Worlds that answer lookups alike -/

/-- The same entries below the root, the same flags and children, and the same
Drive. -/
structure World.Alike (world other : World) : Prop where
  drive : other.drive = world.drive
  mapped : ∀ {directory name}, IsPath directory → ProperName name →
    other.mapped (join directory name) = world.mapped (join directory name)
  loaded : ∀ {dirId}, other.Loaded dirId ↔ world.Loaded dirId
  shown : ∀ {parent child}, child ∈ other.cache.getChildrenPaths parent ↔
    child ∈ world.cache.getChildrenPaths parent

theorem World.Alike.refl (world : World) : world.Alike world :=
  ⟨rfl, fun _ _ => rfl, Iff.rfl, Iff.rfl⟩

theorem World.Alike.trans {middle other : World} (first : world.Alike middle)
    (second : middle.Alike other) : world.Alike other where
  drive := second.drive.trans first.drive
  mapped isPath proper := (second.mapped isPath proper).trans (first.mapped isPath proper)
  loaded := second.loaded.trans first.loaded
  shown := second.shown.trans first.shown

theorem World.Alike.resolution {other : World} (alike : world.Alike other)
    (tree : world.drive.IsTree) {path : Str} (isPath : IsPath path) :
    other.resolution settings rootId path = world.resolution settings rootId path := by
  induction isPath with
  | root => rfl
  | child isParent proper induction =>
      rw [resolution_join tree isParent proper,
        resolution_join (alike.drive ▸ tree) isParent proper, induction]
      unfold World.below
      rw [alike.mapped isParent proper, alike.drive]
      simp only [alike.loaded]

theorem World.Alike.asks {other : World} (alike : world.Alike other) {target path : Str} :
    other.Asks target path ↔ world.Asks target path := by
  constructor
  · intro asks
    induction asks with
    | self => exact .self
    | up isParent proper _ unmapped induction =>
        exact .up isParent proper induction ((alike.mapped isParent proper).symm.trans unmapped)
  · intro asks
    induction asks with
    | self => exact .self
    | up isParent proper _ unmapped induction =>
        exact .up isParent proper induction ((alike.mapped isParent proper).trans unmapped)

theorem World.Alike.listsFor {other : World} (alike : world.Alike other)
    (tree : world.drive.IsTree) {target directory : Str} {dirId : NodeId} :
    other.ListsFor settings rootId target directory dirId ↔
      world.ListsFor settings rootId target directory dirId := by
  constructor
  · intro lists
    obtain ⟨isPath, ⟨name, proper, asks, unmapped⟩, found, notLoaded⟩ := lists
    exact ⟨isPath, ⟨name, proper, alike.asks.mp asks,
      (alike.mapped isPath proper).symm.trans unmapped⟩,
      (alike.resolution tree isPath).symm.trans found, notLoaded ∘ alike.loaded.mpr⟩
  · intro lists
    obtain ⟨isPath, ⟨name, proper, asks, unmapped⟩, found, notLoaded⟩ := lists
    exact ⟨isPath, ⟨name, proper, alike.asks.mpr asks,
      (alike.mapped isPath proper).trans unmapped⟩,
      (alike.resolution tree isPath).trans found, notLoaded ∘ alike.loaded.mp⟩

/-- A lookup that the map answers changes nothing. -/
theorem World.LookedUp.alike {target : Str} {later : World}
    (looked : world.LookedUp settings rootId target later) (isPath : IsPath target)
    (mapped : target = ['/'] ∨ world.mapped target ≠ none) : world.Alike later where
  drive := looked.drive
  mapped isDirectory proper := looked.elsewhere isDirectory proper fun _ =>
    world.not_listsFor_of_mapped isPath mapped
  loaded {dirId} := by
    rw [looked.loaded]
    refine ⟨fun either => either.resolve_right fun listed => ?_, .inl⟩
    exact world.not_listsFor_of_mapped isPath mapped listed.choose_spec
  shown {parent child} := by
    rw [looked.shown]
    refine ⟨fun either => either.resolve_right fun listed => ?_, .inl⟩
    exact world.not_listsFor_of_mapped isPath mapped listed.choose_spec.1

theorem World.LookedUp.of_alike {other later : World} (alike : world.Alike other)
    (tree : world.drive.IsTree) {target : Str}
    (looked : other.LookedUp settings rootId target later) :
    world.LookedUp settings rootId target later where
  drive := looked.drive.trans alike.drive
  listed lists proper := by
    rw [looked.listed ((alike.listsFor tree).mpr lists) proper, alike.drive,
      alike.mapped lists.isPath proper]
  elsewhere isPath proper notListed := by
    rw [looked.elsewhere isPath proper fun dirId lists =>
      notListed dirId ((alike.listsFor tree).mp lists), alike.mapped isPath proper]
  loaded {dirId} := by
    rw [looked.loaded, alike.loaded]
    simp only [alike.listsFor tree]
  shown {parent child} := by
    rw [looked.shown, alike.shown, alike.drive]
    simp only [alike.listsFor tree]

theorem World.LookedUp.then_alike {middle later : World} {target : Str}
    (looked : world.LookedUp settings rootId target middle) (alike : middle.Alike later) :
    world.LookedUp settings rootId target later where
  drive := alike.drive.trans looked.drive
  listed lists proper := (alike.mapped lists.isPath proper).trans (looked.listed lists proper)
  elsewhere isPath proper notListed :=
    (alike.mapped isPath proper).trans (looked.elsewhere isPath proper notListed)
  loaded := alike.loaded.trans looked.loaded
  shown := alike.shown.trans looked.shown

end Listings

end FuseDrive.Fuse
