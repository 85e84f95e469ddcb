import FuseDrive.Fuse.Ghosts
import FuseDrive.Fuse.TreeWalk

/-!
# Directories that several paths lead to

The flag of a listed directory is kept by id, its names by path.  When two paths
lead to one directory, a listing for the first flags it for both, and the second
keeps only the names it has already.  A listing changes nothing else that a path
resolves to or `readdir` shows, up to entries that it puts right.
-/

namespace FuseDrive.Fuse

open Program (Executes NeverRaises perform)

section Definitions

variable (settings : CacheSettings) (rootId : NodeId) (world : World)

/-- The answer of `readdir` for a directory with these children. -/
def entriesOf (path : Str) (children : List Str) : List Str :=
  let entries := ['.'] :: ['.', '.'] :: children.map basename
  if path = ['/'] ∧ ['s', 't', 'a', 't', 's'] ∉ entries then
    entries ++ [['s', 't', 'a', 't', 's']]
  else entries

/-- What `readdir` lists, which is nothing if it raises. -/
def World.listing (path : Str) : List Str :=
  match (runCalm settings world (readdir rootId path)).1 with
  | .ok entries => entries
  | .error _ => []

/-- What `readdir` lists without asking Drive. -/
def World.shown (world : World) (path : Str) : List Str :=
  entriesOf path (world.cache.getChildrenPaths path)

/-- A listing of the directory gives the path another id than its entry. -/
def World.Corrects (world : World) (directory : Str) (dirId : NodeId) (path : Str) : Prop :=
  ∃ name entry listed, ProperName name ∧ path = join directory name ∧
    world.mapped path = some entry ∧ world.drive.child dirId name = some listed ∧ entry ≠ listed

/-- Every other path that leads to the directory has and shows the names in it,
unless it is at or below an entry that the listing corrects. -/
def World.OneWay (directory : Str) (dirId : NodeId) : Prop :=
  ∀ other, IsPath other → other ≠ directory →
    world.resolution settings rootId other = some dirId →
    (∀ above, IsPath above → AtOrBelow above other → ¬ world.Corrects directory dirId above) →
    ∀ name fileId, ProperName name → world.drive.child dirId name = some fileId →
      world.mapped (join other name) ≠ none ∧ name ∈ world.shown other

/-- The path has an entry that leads elsewhere than the path did. -/
def Redirected (world later : World) (path : Str) : Prop :=
  path ≠ ['/'] ∧ ∃ entry, later.mapped path = some entry ∧
    world.resolution settings rootId path ≠ some entry

/-- No entry at or above the path leads elsewhere. -/
def Untouched (world later : World) (path : Str) : Prop :=
  ∀ above, IsPath above → AtOrBelow above path → ¬ Redirected settings rootId world later above

/-- Paths resolve and directories list as before, but for what is at or below a
corrected entry. -/
structure AsResolved (world later : World) : Prop where
  resolves : ∀ {path}, IsPath path → Untouched settings rootId world later path →
    later.resolution settings rootId path = world.resolution settings rootId path
  lists : ∀ {path}, IsPath path → Untouched settings rootId world later path →
    ∀ name, name ∈ later.listing settings rootId path ↔ name ∈ world.listing settings rootId path

/-- One directory is listed for one path. -/
structure World.Load (directory : Str) (dirId : NodeId) (later : World) : Prop where
  isPath : IsPath directory
  found : world.resolution settings rootId directory = some dirId
  notLoaded : ¬ world.Loaded dirId
  lists : world.Lists directory dirId (world.drive.listChildren dirId) later

/-- Nothing is evicted, and a directory that is listed is led to by one path only. -/
def World.Gentle (world : World) (request : Request) (choice : Choice) : Prop :=
  choice.Roomy ∧
    match request with
    | .listChildren dirId directory =>
        choice.fails = none → world.OneWay settings rootId directory dirId
    | _ => True

/-- A mount where lookups list only such directories. -/
def gentle : Program.Environment World Request Request.Answer where
  serves := (environment settings (fun world => world.Gentle settings rootId)
    fun _ _ => False).serves
  drifts _ _ := False

end Definitions

/-! ## What `readdir` lists -/

section Listings

variable {settings : CacheSettings} {rootId : NodeId} {world : World}

theorem mem_entriesOf {path name : Str} {children : List Str} :
    name ∈ entriesOf path children ↔
      Reserved path name ∨ ∃ child ∈ children, basename child = name := by
  have members : name ∈ ['.'] :: ['.', '.'] :: children.map basename ↔
      name = ['.'] ∨ name = ['.', '.'] ∨ ∃ child ∈ children, basename child = name := by
    simp
  unfold entriesOf Reserved
  dsimp only
  split
  · rename_i atRoot
    rw [List.mem_append, members, List.mem_singleton]
    generalize (∃ child ∈ children, basename child = name) = fromChild
    simp only [atRoot.1, true_and]
    tauto
  · rename_i notAdded
    rw [members]
    have added : path = ['/'] ∧ name = ['s', 't', 'a', 't', 's'] →
        name = ['.'] ∨ name = ['.', '.'] ∨ ∃ child ∈ children, basename child = name := by
      intro stats
      rw [← members]
      by_contra absent
      exact notAdded ⟨stats.1, stats.2 ▸ absent⟩
    generalize (∃ child ∈ children, basename child = name) = fromChild at added ⊢
    tauto

theorem runCalm_listAndShow {middle : World} {dirId : NodeId} {path : Str}
    (ran : runCalm settings world (loadChildren dirId path) = (.ok (), middle)) :
    (runCalm settings world (listAndShow dirId path)).1 = .ok (middle.shown path) := by
  unfold listAndShow World.shown entriesOf
  rw [runCalm_bind_ok ran, runCalm_perform]
  dsimp only [serve]
  split
  · rfl
  · rfl

/-- `readdir` asks Drive for a directory that is not flagged. -/
theorem mem_listing (tree : world.drive.IsTree) {path : Str} (isPath : IsPath path)
    {name : Str} :
    name ∈ world.listing settings rootId path ↔
      ∃ dirId, world.resolution settings rootId path = some dirId ∧
        (name ∈ world.shown path ∨ ¬ world.Loaded dirId ∧
          ∃ item ∈ world.drive.listChildren dirId, item.name = name) := by
  obtain ⟨later, ran, looked⟩ := @runCalm_lookedUp settings rootId world tree path isPath world
    ⟨rfl, rfl, rfl⟩
  unfold World.listing readdir
  rw [runCalm_bind_ok ran]
  cases found : world.resolution settings rootId path with
  | none => simp [runCalm, Program.raise, Program.play]
  | some dirId =>
      have sameFlag : later.Loaded dirId ↔ world.Loaded dirId := by
        rw [looked.loaded]
        refine ⟨fun either => either.resolve_right fun listed => ?_, .inl⟩
        exact world.not_listsFor_found tree isPath found listed.choose_spec
      have sameShown : name ∈ later.shown path ↔ name ∈ world.shown path := by
        unfold World.shown
        rw [mem_entriesOf, mem_entriesOf]
        refine or_congr_right (exists_congr fun child => and_congr_left fun _ => ?_)
        rw [looked.shown]
        refine ⟨fun either => either.resolve_right fun listed => ?_, .inl⟩
        exact world.not_listsFor_self isPath listed.choose_spec.1
      change name ∈ (match (runCalm settings later (listAndShow dirId path)).1 with
        | .ok entries => entries
        | .error _ => []) ↔ _
      by_cases loaded : world.Loaded dirId
      · have flag : later.cache.isDirectoryChildrenLoaded dirId = true := sameFlag.mpr loaded
        have noListing : runCalm settings later (loadChildren dirId path) = (.ok (), later) := by
          unfold loadChildren
          rw [runCalm_perform]
          change runCalm settings later
            (if later.cache.isDirectoryChildrenLoaded dirId then _ else _ : Op Unit) = _
          rw [if_pos flag]
          rfl
        rw [runCalm_listAndShow noListing]
        simp only [sameShown, loaded, not_true, false_and, or_false, Option.some.injEq,
          exists_eq_left']
      · obtain ⟨last, ranLoad, lists⟩ := @runCalm_loadChildren settings later path isPath dirId
          (loaded ∘ sameFlag.mp) (looked.drive ▸ tree.named)
        have fromLoad : name ∈ last.shown path ↔ name ∈ later.shown path ∨
            ∃ item ∈ world.drive.listChildren dirId, item.name = name := by
          unfold World.shown
          rw [mem_entriesOf, mem_entriesOf, or_assoc]
          refine or_congr_right ?_
          simp only [lists.shown, true_and, or_and_right, exists_or, looked.drive]
          refine or_congr_right ?_
          constructor
          · intro listed
            obtain ⟨child, ⟨item, member, rfl⟩, rfl⟩ := listed
            have proper := tree.named _ (world.drive.mem_listChildren.mp member)
            exact ⟨item, member, (isPath.basename_join proper).symm⟩
          · intro listed
            obtain ⟨item, member, rfl⟩ := listed
            have proper := tree.named _ (world.drive.mem_listChildren.mp member)
            exact ⟨join path item.name, ⟨item, member, rfl⟩, isPath.basename_join proper⟩
        rw [runCalm_listAndShow ranLoad]
        simp only [fromLoad, sameShown, loaded, not_false_eq_true, true_and, Option.some.injEq,
          exists_eq_left']

theorem DriveTree.child_ne_none_iff {tree : DriveTree} {dirId : NodeId} {name : Str} :
    tree.child dirId name ≠ none ↔ ∃ item ∈ tree.listChildren dirId, item.name = name := by
  constructor
  · intro present
    obtain ⟨fileId, found⟩ := Option.ne_none_iff_exists'.mp present
    exact ⟨_, mem_of_lastNamed found, rfl⟩
  · intro listed
    obtain ⟨item, member, rfl⟩ := listed
    obtain ⟨fileId, found⟩ := exists_lastNamed_of_mem member
    exact Option.ne_none_iff_exists'.mpr ⟨fileId, found⟩

end Listings

/-! ## Paths above a path -/

section Above

theorem IsPath.atOrBelow_join {above parent name : Str} (isAbove : IsPath above)
    (isPath : IsPath parent) (proper : ProperName name) :
    AtOrBelow above (join parent name) ↔ above = join parent name ∨ AtOrBelow above parent := by
  constructor
  · intro below
    obtain ⟨names, namesProper, same⟩ := below
    induction names using List.reverseRecOn with
    | nil => exact .inl same.symm
    | append_singleton names last _ =>
        obtain ⟨frontProper, lastProper⟩ := ProperNames.concat_iff.mp namesProper
        rw [joinAll_concat] at same
        obtain ⟨rfl, rfl⟩ :=
          join_inj isPath proper (isAbove.joinAll frontProper) lastProper same
        exact .inr ⟨names, frontProper, rfl⟩
  · intro either
    rcases either with rfl | below
    · exact ⟨[], by simp [ProperNames], rfl⟩
    · exact below.join proper

theorem IsPath.atOrBelow_root {above : Str} (isAbove : IsPath above)
    (below : AtOrBelow above ['/']) : above = ['/'] := by
  obtain ⟨names, namesProper, same⟩ := below
  cases isAbove with
  | root => rfl
  | child isParent proper =>
      have longer := isParent.length_lt_join proper
      have noLonger := (IsPath.child isParent proper).length_le_joinAll namesProper
      have positive := isParent.length_pos
      rw [← same, List.length_singleton] at noLonger
      omega

variable {settings : CacheSettings} {rootId : NodeId} {world later : World}

theorem untouched_root : Untouched settings rootId world later ['/'] := by
  intro above isAbove below redirected
  exact redirected.1 (isAbove.atOrBelow_root below)

theorem untouched_join {parent name : Str} (isPath : IsPath parent) (proper : ProperName name) :
    Untouched settings rootId world later (join parent name) ↔
      Untouched settings rootId world later parent ∧
        ¬ Redirected settings rootId world later (join parent name) := by
  constructor
  · intro untouched
    refine ⟨fun above isAbove below => untouched above isAbove (below.join proper), ?_⟩
    exact untouched _ (isPath.child proper) ⟨[], by simp [ProperNames], rfl⟩
  · intro parts above isAbove below
    rcases (isAbove.atOrBelow_join isPath proper).mp below with rfl | higher
    · exact parts.2
    · exact parts.1 above isAbove higher

end Above

/-! ## Listings one after the other -/

section Keeping

/-- What listings keep.  An entry changes only below a directory that becomes
flagged, and a flagged one's entries stay. -/
structure Kept (settings : CacheSettings) (rootId : NodeId) (world later : World) : Prop
    extends AsResolved settings rootId world later where
  drive : later.drive = world.drive
  flags : ∀ {dirId}, world.Loaded dirId → later.Loaded dirId
  settled : ∀ {parent name dirId}, IsPath parent → ProperName name →
    Untouched settings rootId world later parent →
    world.resolution settings rootId parent = some dirId → world.Loaded dirId →
    later.mapped (join parent name) = world.mapped (join parent name)
  loads : ∀ {parent name}, IsPath parent → ProperName name →
    Untouched settings rootId world later parent →
    later.mapped (join parent name) ≠ world.mapped (join parent name) →
    ∃ dirId, world.resolution settings rootId parent = some dirId ∧ later.Loaded dirId

variable {settings : CacheSettings} {rootId : NodeId} {world middle later : World}

/-- An entry answers for its path. -/
theorem resolution_of_mapped (tree : world.drive.IsTree) {parent name : Str} {fileId : NodeId}
    (isPath : IsPath parent) (proper : ProperName name)
    (mapped : world.mapped (join parent name) = some fileId) :
    world.resolution settings rootId (join parent name) = some fileId := by
  rw [resolution_join tree isPath proper, World.below, mapped, Option.some_or]

namespace Kept

theorem of_alike (tree : world.drive.IsTree) (alike : world.Alike later) :
    Kept settings rootId world later := by
  have resolves {path : Str} (isPath : IsPath path) :
      later.resolution settings rootId path = world.resolution settings rootId path :=
    alike.resolution tree isPath
  refine ⟨⟨fun isPath _ => resolves isPath, fun {path} isPath _ name => ?_⟩, alike.drive,
    alike.loaded.mpr, fun isPath proper _ _ _ => alike.mapped isPath proper,
    fun isPath proper _ changed => absurd (alike.mapped isPath proper) changed⟩
  have sameShown : name ∈ later.shown path ↔ name ∈ world.shown path := by
    unfold World.shown
    rw [mem_entriesOf, mem_entriesOf]
    simp only [alike.shown]
  rw [mem_listing (alike.drive ▸ tree) isPath, mem_listing tree isPath, resolves isPath]
  simp only [sameShown, alike.loaded, alike.drive]

/-- A path that is untouched in the end has been untouched all along: an entry
that changes is below a flagged directory, and then stays. -/
theorem untouched (tree : world.drive.IsTree) (first : Kept settings rootId world middle)
    (second : Kept settings rootId middle later) {path : Str} (isPath : IsPath path)
    (untouched : Untouched settings rootId world later path) :
    Untouched settings rootId world middle path ∧
      Untouched settings rootId middle later path := by
  induction isPath with
  | root => exact ⟨untouched_root, untouched_root⟩
  | @child parent name isParent proper induction =>
      obtain ⟨above, notRedirected⟩ := (untouched_join isParent proper).mp untouched
      obtain ⟨aboveFirst, aboveSecond⟩ := induction above
      have sameParent := first.resolves isParent aboveFirst
      have notFirst : ¬ Redirected settings rootId world middle (join parent name) := by
        intro redirected
        obtain ⟨notRoot, entry, mapped, elsewhere⟩ := redirected
        refine notRedirected ⟨notRoot, entry, ?_, elsewhere⟩
        have changed : middle.mapped (join parent name) ≠ world.mapped (join parent name) := by
          intro same
          exact elsewhere (resolution_of_mapped tree isParent proper (same.symm.trans mapped))
        obtain ⟨dirId, found, loaded⟩ := first.loads isParent proper aboveFirst changed
        rw [second.settled isParent proper aboveSecond (sameParent.trans found) loaded, mapped]
      have untouchedFirst := (untouched_join isParent proper).mpr ⟨aboveFirst, notFirst⟩
      refine ⟨untouchedFirst, (untouched_join isParent proper).mpr ⟨aboveSecond, ?_⟩⟩
      intro redirected
      obtain ⟨notRoot, entry, mapped, elsewhere⟩ := redirected
      refine notRedirected ⟨notRoot, entry, mapped, ?_⟩
      rwa [← first.resolves (isParent.child proper) untouchedFirst]

theorem trans (tree : world.drive.IsTree) (first : Kept settings rootId world middle)
    (second : Kept settings rootId middle later) : Kept settings rootId world later where
  resolves isPath untouched := by
    obtain ⟨before, after⟩ := first.untouched tree second isPath untouched
    exact (second.resolves isPath after).trans (first.resolves isPath before)
  lists isPath untouched name := by
    obtain ⟨before, after⟩ := first.untouched tree second isPath untouched
    exact (second.lists isPath after name).trans (first.lists isPath before name)
  drive := second.drive.trans first.drive
  flags loaded := second.flags (first.flags loaded)
  settled isPath proper untouched found loaded := by
    obtain ⟨before, after⟩ := first.untouched tree second isPath untouched
    have stillFound := (first.resolves isPath before).trans found
    rw [second.settled isPath proper after stillFound (first.flags loaded),
      first.settled isPath proper before found loaded]
  loads {parent name} isPath proper untouched changed := by
    obtain ⟨before, after⟩ := first.untouched tree second isPath untouched
    by_cases same : middle.mapped (join parent name) = world.mapped (join parent name)
    · obtain ⟨dirId, found, loaded⟩ := second.loads isPath proper after (same ▸ changed)
      exact ⟨dirId, (first.resolves isPath before).symm.trans found, loaded⟩
    · obtain ⟨dirId, found, loaded⟩ := first.loads isPath proper before same
      exact ⟨dirId, found, second.flags loaded⟩

end Kept

/-! ## One listing -/

namespace World.Load

variable {directory : Str} {dirId : NodeId}

theorem notBelow (load : world.Load settings rootId directory dirId later) {parent name : Str}
    (isPath : IsPath parent) (proper : ProperName name) (other : parent ≠ directory) :
    later.mapped (join parent name) = world.mapped (join parent name) := by
  refine load.lists.elsewhere fun sibling siblingProper same => other ?_
  exact (join_inj isPath proper load.isPath siblingProper same).1

theorem redirected_iff (tree : world.drive.IsTree)
    (load : world.Load settings rootId directory dirId later) {path : Str}
    (isPath : IsPath path) :
    Redirected settings rootId world later path ↔ world.Corrects directory dirId path := by
  have below {name : Str} (proper : ProperName name) :
      later.mapped (join directory name) =
        (world.drive.child dirId name).or (world.mapped (join directory name)) :=
    load.lists.below proper
  constructor
  · intro redirected
    obtain ⟨notRoot, entry, mapped, elsewhere⟩ := redirected
    cases isPath with
    | root => exact absurd rfl notRoot
    | @child parent name isParent proper =>
        have changed : later.mapped (join parent name) ≠ world.mapped (join parent name) := by
          intro same
          exact elsewhere (resolution_of_mapped tree isParent proper (same.symm.trans mapped))
        have here : parent = directory := by
          by_contra other
          exact changed (load.notBelow isParent proper other)
        subst here
        have notBelow := below proper
        rw [resolution_join tree isParent proper, load.found, World.below, Option.bind_some,
          if_neg load.notLoaded] at elsewhere
        cases listed : world.drive.child dirId name with
        | none =>
            rw [listed, Option.none_or] at notBelow
            exact absurd notBelow changed
        | some fileId =>
            rw [listed, Option.some_or] at notBelow
            cases notBelow.symm.trans mapped
            cases old : world.mapped (join parent name) with
            | none =>
                rw [old, listed, Option.none_or] at elsewhere
                exact absurd rfl elsewhere
            | some oldEntry =>
                refine ⟨name, oldEntry, entry, proper, rfl, old, listed, ?_⟩
                intro same
                exact changed (notBelow.trans (old.trans (congrArg some same)).symm)
  · intro corrects
    obtain ⟨name, entry, listed, proper, rfl, mapped, child, differ⟩ := corrects
    refine ⟨load.isPath.join_ne_root proper, listed, ?_, ?_⟩
    · rw [below proper, child, Option.some_or]
    · rw [resolution_of_mapped tree load.isPath proper mapped]
      intro same
      exact differ (Option.some.inj same)

theorem untouched_iff (tree : world.drive.IsTree)
    (load : world.Load settings rootId directory dirId later) {path : Str} :
    Untouched settings rootId world later path ↔
      ∀ above, IsPath above → AtOrBelow above path → ¬ world.Corrects directory dirId above := by
  unfold Untouched
  refine forall_congr' fun above => forall_congr' fun isAbove => forall_congr' fun _ => ?_
  rw [load.redirected_iff tree isAbove]

theorem resolves (tree : world.drive.IsTree)
    (load : world.Load settings rootId directory dirId later)
    (oneWay : world.OneWay settings rootId directory dirId) {path : Str} (isPath : IsPath path)
    (untouched : Untouched settings rootId world later path) :
    later.resolution settings rootId path = world.resolution settings rootId path := by
  induction isPath with
  | root => rfl
  | @child parent name isParent proper induction =>
      obtain ⟨above, notRedirected⟩ := (untouched_join isParent proper).mp untouched
      cases mapped : later.mapped (join parent name) with
      | some entry =>
          rw [resolution_of_mapped (load.lists.drive ▸ tree) isParent proper mapped]
          by_contra elsewhere
          exact notRedirected ⟨isParent.join_ne_root proper, entry, mapped, Ne.symm elsewhere⟩
      | none =>
          rw [resolution_join tree isParent proper,
            resolution_join (load.lists.drive ▸ tree) isParent proper, induction above]
          have unmapped : world.mapped (join parent name) = none := by
            by_cases here : parent = directory
            · subst here
              rw [load.lists.below proper, Option.or_eq_none_iff] at mapped
              exact mapped.2
            · rwa [← load.notBelow isParent proper here]
          unfold World.below
          rw [mapped, unmapped, Option.none_or, Option.none_or, load.lists.drive]
          cases found : world.resolution settings rootId parent with
          | none => rfl
          | some parentId =>
              rw [Option.bind_some, Option.bind_some]
              by_cases same : parentId = dirId
              · subst same
                have flagged : later.Loaded parentId := load.lists.loaded.mpr (.inr rfl)
                rw [if_pos flagged, if_neg load.notLoaded]
                by_contra listed
                obtain ⟨fileId, child⟩ := Option.ne_none_iff_exists'.mp (Ne.symm listed)
                by_cases here : parent = directory
                · subst here
                  rw [load.lists.below proper, Option.or_eq_none_iff] at mapped
                  cases child.symm.trans mapped.1
                · exact (oneWay parent isParent here found ((load.untouched_iff tree).mp above)
                    name fileId proper child).1 unmapped
              · have sameFlag : later.Loaded parentId ↔ world.Loaded parentId := by
                  rw [load.lists.loaded]
                  exact or_iff_left same
                simp only [sameFlag]

theorem mem_shown (tree : world.drive.IsTree)
    (load : world.Load settings rootId directory dirId later) {path name : Str} :
    name ∈ later.shown path ↔ name ∈ world.shown path ∨
      path = directory ∧ ∃ item ∈ world.drive.listChildren dirId, item.name = name := by
  unfold World.shown
  rw [mem_entriesOf, mem_entriesOf, or_assoc]
  refine or_congr_right ?_
  simp only [load.lists.shown, or_and_right, exists_or]
  refine or_congr_right ?_
  constructor
  · intro listed
    obtain ⟨child, ⟨rfl, item, member, rfl⟩, rfl⟩ := listed
    have proper := tree.named _ (world.drive.mem_listChildren.mp member)
    exact ⟨rfl, item, member, (load.isPath.basename_join proper).symm⟩
  · intro listed
    obtain ⟨rfl, item, member, rfl⟩ := listed
    have proper := tree.named _ (world.drive.mem_listChildren.mp member)
    exact ⟨join path item.name, ⟨rfl, item, member, rfl⟩, load.isPath.basename_join proper⟩

theorem lists_iff (tree : world.drive.IsTree)
    (load : world.Load settings rootId directory dirId later)
    (oneWay : world.OneWay settings rootId directory dirId) {path : Str} (isPath : IsPath path)
    (untouched : Untouched settings rootId world later path) {name : Str} :
    name ∈ later.listing settings rootId path ↔ name ∈ world.listing settings rootId path := by
  rw [mem_listing (load.lists.drive ▸ tree) isPath, mem_listing tree isPath,
    load.resolves tree oneWay isPath untouched]
  refine exists_congr fun pathId => and_congr_right fun found => ?_
  rw [load.mem_shown tree, load.lists.loaded, load.lists.drive]
  by_cases same : pathId = dirId
  · subst same
    by_cases here : path = directory
    · simp [here, load.notLoaded]
    · have shows : (∃ item ∈ world.drive.listChildren pathId, item.name = name) →
          name ∈ world.shown path := by
        intro listed
        obtain ⟨fileId, child⟩ :=
          Option.ne_none_iff_exists'.mp (DriveTree.child_ne_none_iff.mpr listed)
        obtain ⟨item, member, rfl⟩ := listed
        have proper := tree.named _ (world.drive.mem_listChildren.mp member)
        have notCorrected := (load.untouched_iff tree).mp untouched
        exact (oneWay path isPath here found notCorrected item.name fileId proper child).2
      simp only [here, false_and, or_false, or_true, not_true, load.notLoaded, not_false_eq_true,
        true_and]
      exact (or_iff_left_of_imp shows).symm
  · have elsewhere : path ≠ directory := by
      rintro rfl
      exact same (Option.some.inj (found.symm.trans load.found))
    simp only [elsewhere, same, false_and, or_false]

theorem kept (tree : world.drive.IsTree)
    (load : world.Load settings rootId directory dirId later)
    (oneWay : world.OneWay settings rootId directory dirId) : Kept settings rootId world later where
  resolves isPath untouched := load.resolves tree oneWay isPath untouched
  lists isPath untouched _ := load.lists_iff tree oneWay isPath untouched
  drive := load.lists.drive
  flags loaded := load.lists.loaded.mpr (.inl loaded)
  settled {parent name parentId} isPath proper _ found loaded := by
    refine load.notBelow isPath proper ?_
    rintro rfl
    cases found.symm.trans load.found
    exact load.notLoaded loaded
  loads {parent name} isPath proper _ changed := by
    have here : parent = directory := by
      by_contra other
      exact changed (load.notBelow isPath proper other)
    exact ⟨dirId, here ▸ load.found, load.lists.loaded.mpr (.inr rfl)⟩

end World.Load

/-! ## Lookups -/

theorem steady_of_gentle {α : Type} {program : Op α} {result : Except Errno α}
    (execution : Executes (gentle settings rootId) world program result later) :
    Executes (steady settings) world program result later := by
  refine execution.mono (fun served => ?_) fun drifted => False.elim drifted
  obtain ⟨choice, valid, allowed, same⟩ := served
  exact ⟨choice, valid, allowed.1, same⟩

theorem gentle_of_perform {α : Type} {request : Request} {next : request.Answer → Op α}
    {result : Except Errno α}
    (execution : Executes (gentle settings rootId) world (perform request >>= next) result
      later) :
    ∃ choice : Choice, world.Gentle settings rootId request choice ∧
      Executes (gentle settings rootId) (serve settings choice world request).2
        (next (serve settings choice world request).1) result later := by
  cases execution with
  | drift drifted => exact drifted.elim
  | ask served rest =>
      obtain ⟨choice, -, allowed, same⟩ := served
      refine ⟨choice, allowed, ?_⟩
      rw [same]
      exact rest

/-- A path that was found is found again. -/
theorem found_again (tree : world.drive.IsTree) {path : Str} {fileId : NodeId}
    (isPath : IsPath path)
    (execution : Executes (steady settings) world (resolvePath rootId path)
      (.ok (some fileId)) later) :
    later.resolution settings rootId path = some fileId := by
  obtain ⟨found, looked⟩ := lookedUp_of_resolvePath tree isPath execution
  cases isPath with
  | root => exact found
  | child isParent proper =>
      have isChild := isParent.child proper
      rcases looked.mapped_of_asked tree isChild isChild .self found with isRoot | mapped
      · exact absurd isRoot (isParent.join_ne_root proper)
      · exact resolution_of_mapped (looked.drive ▸ tree) isParent proper mapped

theorem mapChildren_neverRaises (path : Str) (items : List Item) :
    NeverRaises (mapChildren path items) := by
  induction items with
  | nil => exact .done
  | cons item items induction => exact .ask fun _ => induction

namespace Kept

theorem of_loadChildren (tree : world.drive.IsTree) {path : Str} {dirId : NodeId}
    (isPath : IsPath path) (found : world.resolution settings rootId path = some dirId)
    {result : Except Errno Unit}
    (execution : Executes (gentle settings rootId) world (loadChildren dirId path) result later) :
    Kept settings rootId world later := by
  have steadily := steady_of_gentle execution
  obtain ⟨_, -, checking⟩ := gentle_of_perform execution
  change Executes (gentle settings rootId) world
    (if world.cache.isDirectoryChildrenLoaded dirId then _ else _ : Op Unit) _ _ at checking
  split at checking
  · obtain ⟨-, rfl⟩ := steady_of_done (steady_of_gentle checking)
    exact .of_alike tree (.refl _)
  · rename_i notLoaded
    obtain ⟨choice, allowed, answered⟩ := gentle_of_perform checking
    cases fails : choice.fails with
    | some errno =>
        rw [serve_listChildren_failed fails] at answered
        obtain ⟨-, rfl⟩ := steady_of_done (steady_of_gentle answered)
        exact .of_alike tree (.refl _)
    | none =>
        cases result with
        | error error =>
            rw [serve_listChildren fails] at answered
            rcases answered.of_bind with ⟨_, -, raised⟩ | ⟨_, _, -, marking⟩
            · exact absurd raised (mapChildren_neverRaises _ _).not_error
            · exact absurd marking (NeverRaises.perform _).not_error
        | ok =>
            obtain ⟨last, ran, lists⟩ := @runCalm_loadChildren settings world path isPath dirId
              notLoaded tree.named
            cases (runCalm_of_loadChildren steadily).symm.trans ran
            have load : world.Load settings rootId path dirId later :=
              ⟨isPath, found, notLoaded, lists⟩
            exact load.kept tree (allowed.2 fails)

theorem of_findBelow (tree : world.drive.IsTree) {parent name : Str} {dirId : NodeId}
    (isPath : IsPath parent) (proper : ProperName name)
    (found : world.resolution settings rootId parent = some dirId)
    {result : Except Errno (Option NodeId)}
    (execution : Executes (gentle settings rootId) world (findBelow dirId (join parent name))
      result later) :
    Kept settings rootId world later := by
  obtain ⟨_, -, checking⟩ := gentle_of_perform execution
  change Executes (gentle settings rootId) world
    (if world.cache.isDirectoryChildrenLoaded dirId then _ else _ : Op (Option NodeId)) _ _
    at checking
  split at checking
  · obtain ⟨-, rfl⟩ := steady_of_done (steady_of_gentle checking)
    exact .of_alike tree (.refl _)
  · rw [isPath.dirname_join proper] at checking
    rcases checking.of_bind with ⟨_, -, raised⟩ | ⟨_, loaded, loading, asking⟩
    · exact of_loadChildren tree isPath found raised
    · have kept := of_loadChildren tree isPath found loading
      refine kept.trans tree ?_
      obtain ⟨_, -, asked⟩ := gentle_of_perform asking
      obtain ⟨-, rfl⟩ := steady_of_done (steady_of_gentle asked)
      exact .of_alike (kept.drive ▸ tree) ⟨rfl, fun _ _ => rfl, Iff.rfl, Iff.rfl⟩

/-- A lookup keeps what paths resolve to and directories list, whether it ends
with a result or with an error. -/
theorem of_resolvePath (tree : world.drive.IsTree) {path : Str} (isPath : IsPath path)
    {result : Except Errno (Option NodeId)}
    (execution : Executes (gentle settings rootId) world (resolvePath rootId path) result
      later) :
    Kept settings rootId world later := by
  induction isPath generalizing world result later with
  | root =>
      obtain ⟨-, rfl⟩ := steady_of_done (steady_of_gentle execution)
      exact .of_alike tree (.refl _)
  | @child parent name isParent proper induction =>
      rw [resolvePath_join rootId isParent proper] at execution
      obtain ⟨choice, -, asked⟩ := gentle_of_perform execution
      have forgets : Kept settings rootId world { world with loading := none } :=
        .of_alike tree ⟨rfl, fun _ _ => rfl, Iff.rfl, Iff.rfl⟩
      refine forgets.trans tree ?_
      have answered : serve settings choice world (.resolvePathToNodeId (join parent name)) =
          (world.mapped (join parent name), { world with loading := none }) := rfl
      rw [answered] at asked
      cases cached : world.mapped (join parent name) with
      | some cachedId =>
          rw [cached] at asked
          obtain ⟨-, rfl⟩ := steady_of_done (steady_of_gentle asked)
          exact .of_alike tree (.refl _)
      | none =>
          rw [cached] at asked
          rcases asked.of_bind with ⟨_, -, raised⟩ | ⟨found, middle, resolved, ending⟩
          · exact induction tree raised
          · have kept : Kept settings rootId { world with loading := none } middle :=
              induction tree resolved
            refine kept.trans tree ?_
            have middleTree : middle.drive.IsTree := kept.drive ▸ tree
            cases found with
            | none =>
                obtain ⟨-, rfl⟩ := steady_of_done (steady_of_gentle ending)
                exact .of_alike middleTree (.refl _)
            | some dirId =>
                have stillFound : middle.resolution settings rootId parent = some dirId :=
                  @found_again settings rootId { world with loading := none } _ tree _ _ isParent
                    (steady_of_gentle resolved)
                exact of_findBelow middleTree isParent proper stillFound ending

end Kept

/-- On a mount that agrees with a tree every directory has one path. -/
theorem Coherent.oneWay {tree : DriveTree} {visited : Visited}
    (coherent : Coherent tree rootId visited) (rooted : tree.RootedTree rootId)
    {directory : Str} {dirId : NodeId} (isPath : IsPath directory)
    (found : visited.world.resolution settings rootId directory = some dirId) :
    visited.world.OneWay settings rootId directory dirId := by
  intro other isOther differs alsoFound
  obtain ⟨names, proper, rfl⟩ := isPath_iff.mp isPath
  obtain ⟨others, othersProper, rfl⟩ := isPath_iff.mp isOther
  rw [coherent.resolution rooted proper] at found
  rw [coherent.resolution rooted othersProper] at alsoFound
  exact absurd (congrArg pathOf (rooted.walk_injective alsoFound found)) differs

end Keeping

end FuseDrive.Fuse
