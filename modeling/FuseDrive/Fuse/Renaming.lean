import FuseDrive.Fuse.Lookups
import FuseDrive.Fuse.LoadedFlagRuns
import Mathlib.Data.List.Induction

/-!
# Where a renamed name is found

After an update on Drive `rename` takes two paths out of the map: the old one and
the directory of the new one.  Everything else the cache knows stays: the flags
of listed directories, the entry of the new path, and what is mapped below the
old one.  The effect is the one asked for exactly if what stays agrees with
Drive's new tree.
-/

namespace FuseDrive.Fuse

open Program (Executes OnlyAsks perform)

/-! ## Paths below a path -/

/-- The path of a chain of names. -/
def joinAll (base : Str) (names : List Str) : Str := names.foldl join base

def ProperNames (names : List Str) : Prop := ∀ name ∈ names, ProperName name

def AtOrBelow (base path : Str) : Prop := ∃ names, ProperNames names ∧ path = joinAll base names

def Elsewhere (old new path : Str) : Prop := ¬ AtOrBelow old path ∧ ¬ AtOrBelow new path

/-- Neither path is below the other.  The kernel refuses all other renames. -/
structure Apart (old new : Str) : Prop where
  notInto : ¬ AtOrBelow old (dirname new)
  notOnto : ¬ AtOrBelow new (dirname old)

/-- The file at the end of a chain of names. -/
def DriveTree.walk (tree : DriveTree) : NodeId → List Str → Option NodeId
  | dirId, [] => some dirId
  | dirId, name :: names => (tree.child dirId name).bind fun fileId => tree.walk fileId names

section Chains

theorem joinAll_concat (base : Str) (names : List Str) (name : Str) :
    joinAll base (names ++ [name]) = join (joinAll base names) name :=
  List.foldl_concat ..

theorem ProperNames.concat_iff {names : List Str} {name : Str} :
    ProperNames (names ++ [name]) ↔ ProperNames names ∧ ProperName name := by
  unfold ProperNames
  simp [or_imp, forall_and]

theorem IsPath.joinAll {base : Str} (isPath : IsPath base) {names : List Str}
    (proper : ProperNames names) : IsPath (joinAll base names) := by
  induction names generalizing base with
  | nil => exact isPath
  | cons name names induction =>
      exact induction (.child isPath (proper name List.mem_cons_self))
        fun other member => proper other (List.mem_cons_of_mem _ member)

theorem IsPath.length_le_joinAll {base : Str} (isPath : IsPath base) {names : List Str}
    (proper : ProperNames names) : base.length ≤ (Fuse.joinAll base names).length := by
  induction names generalizing base with
  | nil => exact Nat.le_refl _
  | cons name names induction =>
      have nameProper := proper name List.mem_cons_self
      exact Nat.le_trans (Nat.le_of_lt (isPath.length_lt_join nameProper))
        (induction (.child isPath nameProper)
          fun other member => proper other (List.mem_cons_of_mem _ member))

theorem AtOrBelow.join {base path name : Str} (below : AtOrBelow base path)
    (proper : ProperName name) : AtOrBelow base (join path name) := by
  obtain ⟨names, namesProper, rfl⟩ := below
  exact ⟨names ++ [name], ProperNames.concat_iff.mpr ⟨namesProper, proper⟩,
    (joinAll_concat base names name).symm⟩

theorem AtOrBelow.trans {base middle path : Str} (first : AtOrBelow base middle)
    (second : AtOrBelow middle path) : AtOrBelow base path := by
  obtain ⟨names, proper, rfl⟩ := first
  obtain ⟨others, othersProper, rfl⟩ := second
  refine ⟨names ++ others, ?_, (List.foldl_append ..).symm⟩
  intro name member
  rcases List.mem_append.mp member with early | late
  · exact proper name early
  · exact othersProper name late

theorem Elsewhere.parent {old new path name : Str} (proper : ProperName name)
    (outside : Elsewhere old new (join path name)) : Elsewhere old new path :=
  ⟨fun below => outside.1 (below.join proper), fun below => outside.2 (below.join proper)⟩

theorem IsPath.not_atOrBelow {parent name : Str} (isPath : IsPath parent)
    (proper : ProperName name) : ¬ AtOrBelow (Fuse.join parent name) parent := by
  rintro ⟨names, namesProper, same⟩
  have longer := isPath.length_lt_join proper
  have noShorter := (IsPath.child isPath proper).length_le_joinAll namesProper
  rw [← same] at noShorter
  exact absurd (Nat.lt_of_lt_of_le longer noShorter) (Nat.lt_irrefl _)

theorem IsChildPath.join_eq {path : Str} (isChildPath : IsChildPath path) :
    join (Fuse.dirname path) (basename path) = path ∧ ProperName (basename path) := by
  obtain ⟨parent, name, isPath, proper, rfl⟩ := isChildPath.exists_join
  rw [isPath.dirname_join proper, isPath.basename_join proper]
  exact ⟨rfl, proper⟩

theorem IsChildPath.dirname {path : Str} (isChildPath : IsChildPath path) :
    IsPath (Fuse.dirname path) := by
  obtain ⟨parent, name, isPath, proper, rfl⟩ := isChildPath.exists_join
  rwa [isPath.dirname_join proper]

variable (tree : DriveTree)

theorem DriveTree.walk_concat (dirId : NodeId) (names : List Str) (name : Str) :
    tree.walk dirId (names ++ [name]) =
      (tree.walk dirId names).bind fun fileId => tree.child fileId name := by
  induction names generalizing dirId with
  | nil =>
      show (tree.child dirId name).bind some = tree.child dirId name
      exact Option.bind_fun_some _
  | cons first names induction =>
      show (tree.child dirId first).bind _ = ((tree.child dirId first).bind _).bind _
      rw [Option.bind_assoc]
      exact congrArg _ (funext fun fileId => induction fileId)

theorem DriveTree.properNames_of_walk (named : ∀ edge ∈ tree.edges, ProperName edge.name)
    {dirId fileId : NodeId} {names : List Str} (found : tree.walk dirId names = some fileId) :
    ProperNames names := by
  induction names generalizing dirId with
  | nil => exact fun name member => by cases member
  | cons first names induction =>
      obtain ⟨childId, child, rest⟩ := Option.bind_eq_some_iff.mp found
      intro name member
      rcases List.mem_cons.mp member with rfl | later
      · exact named _ (tree.mem_edges_of_child child)
      · exact induction rest name later

end Chains

/-! ## Effect and condition -/

section Effects

variable (settings : CacheSettings) (rootId : NodeId)

/-- The new path leads to the file, the old one to nothing, and the others where
they led. -/
structure NameMoved (world after : World) (old new : Str) (fileId : NodeId) : Prop where
  found : after.resolution settings rootId new = some fileId
  gone : after.resolution settings rootId old = none
  others : ∀ path, IsPath path → Elsewhere old new path →
    after.resolution settings rootId path = world.resolution settings rootId path

/-- A local-only file was saved to a file on Drive. -/
structure Saved (world after : World) (old new : Str) (fileId : NodeId) : Prop
    extends NameMoved settings rootId world after old new fileId where
  dropped : old ∉ after.localOnlyFiles

/-- What is below the file moved with it. -/
structure TreeMoved (world after : World) (old new : Str) (fileId : NodeId) : Prop
    extends NameMoved settings rootId world after old new fileId where
  under : ∀ names childId, after.drive.walk fileId names = some childId →
    after.resolution settings rootId (joinAll new names) = some childId
  nothingLeft : ∀ names, ProperNames names →
    after.resolution settings rootId (joinAll old names) = none

/-- What is seen of a name below what its directory leads to, once the paths are
dropped and Drive has the tree: the entry of the path, or else, if the directory
is not flagged, what Drive lists. -/
def World.seen (asked : World) (dropped : List Str) (drive : DriveTree)
    (found : Option NodeId) (parent name : Str) : Option NodeId :=
  (if join parent name ∈ dropped then none else asked.mapped (join parent name)).or
    (found.bind fun dirId => if asked.Loaded dirId then none else drive.child dirId name)

/-- What is seen agrees with what the paths led to before, and with the move. -/
structure NameTidy (world asked : World) (dropped : List Str) (drive : DriveTree)
    (old new : Str) (fileId : NodeId) : Prop where
  others : ∀ parent name, IsPath parent → ProperName name → Elsewhere old new (join parent name) →
    asked.seen dropped drive (world.resolution settings rootId parent) parent name =
      world.resolution settings rootId (join parent name)
  named : asked.seen dropped drive (world.resolution settings rootId (dirname new))
    (dirname new) (basename new) = some fileId
  freed : asked.seen dropped drive (world.resolution settings rootId (dirname old))
    (dirname old) (basename old) = none

/-- Below the file too: under the new path Drive's tree is seen, and under the
old one nothing is mapped. -/
structure TreeTidy (world asked : World) (dropped : List Str) (drive : DriveTree)
    (old new : Str) (fileId : NodeId) : Prop
    extends NameTidy settings rootId world asked dropped drive old new fileId where
  under : ∀ names dirId name childId, drive.walk fileId names = some dirId →
    drive.child dirId name = some childId →
      asked.seen dropped drive (some dirId) (joinAll new names) name = some childId
  nothingLeft : ∀ names, names ≠ [] → ProperNames names →
    joinAll old names ∈ dropped ∨ asked.mapped (joinAll old names) = none

/-- The world after the request to Drive and the invalidations. -/
structure World.Leaves (asked : World) (dropped : List Str) (drive : DriveTree)
    (after : World) : Prop where
  mapped : ∀ {path}, after.mapped path = if path ∈ dropped then none else asked.mapped path
  loaded : ∀ {dirId}, after.Loaded dirId ↔ asked.Loaded dirId
  drive : after.drive = drive

variable {settings rootId} {world asked after : World} {dropped : List Str} {drive : DriveTree}
  {old new : Str} {fileId : NodeId}

theorem World.Leaves.below (leaves : asked.Leaves dropped drive after) (found : Option NodeId)
    (parent name : Str) :
    after.below found parent name = asked.seen dropped drive found parent name := by
  unfold World.below World.seen
  rw [leaves.mapped, leaves.drive]
  simp only [leaves.loaded]

theorem World.Leaves.resolution_join (leaves : asked.Leaves dropped drive after)
    (tree : after.drive.IsTree) {parent name : Str} (isPath : IsPath parent)
    (proper : ProperName name) :
    after.resolution settings rootId (join parent name) =
      asked.seen dropped drive (after.resolution settings rootId parent) parent name := by
  rw [Fuse.resolution_join tree isPath proper, leaves.below]

theorem World.Leaves.others_iff (leaves : asked.Leaves dropped drive after)
    (tree : after.drive.IsTree) :
    (∀ path, IsPath path → Elsewhere old new path →
      after.resolution settings rootId path = world.resolution settings rootId path) ↔
    ∀ parent name, IsPath parent → ProperName name → Elsewhere old new (join parent name) →
      asked.seen dropped drive (world.resolution settings rootId parent) parent name =
        world.resolution settings rootId (join parent name) := by
  constructor
  · intro others parent name isPath proper outside
    rw [← others _ (.child isPath proper) outside, leaves.resolution_join tree isPath proper,
      others _ isPath (outside.parent proper)]
  · intro seen path isPath outside
    induction isPath with
    | root => rfl
    | child isPath proper induction =>
        rw [leaves.resolution_join tree isPath proper, induction (outside.parent proper),
          seen _ _ isPath proper outside]

theorem World.Leaves.nameMoved_iff (leaves : asked.Leaves dropped drive after)
    (tree : after.drive.IsTree) (oldIsPath : IsChildPath old) (newIsPath : IsChildPath new)
    (apart : Apart old new) :
    NameMoved settings rootId world after old new fileId ↔
      NameTidy settings rootId world asked dropped drive old new fileId := by
  obtain ⟨oldParent, oldName, oldParentIsPath, oldProper, rfl⟩ := oldIsPath.exists_join
  obtain ⟨newParent, newName, newParentIsPath, newProper, rfl⟩ := newIsPath.exists_join
  obtain ⟨notInto, notOnto⟩ := apart
  rw [newParentIsPath.dirname_join newProper] at notInto
  rw [oldParentIsPath.dirname_join oldProper] at notOnto
  have oldOutside : Elsewhere (join oldParent oldName) (join newParent newName) oldParent :=
    ⟨oldParentIsPath.not_atOrBelow oldProper, notOnto⟩
  have newOutside : Elsewhere (join oldParent oldName) (join newParent newName) newParent :=
    ⟨notInto, newParentIsPath.not_atOrBelow newProper⟩
  constructor
  · rintro ⟨found, gone, others⟩
    refine ⟨(leaves.others_iff tree).mp others, ?_, ?_⟩
    · rw [newParentIsPath.dirname_join newProper, newParentIsPath.basename_join newProper,
        ← others _ newParentIsPath newOutside,
        ← leaves.resolution_join tree newParentIsPath newProper]
      exact found
    · rw [oldParentIsPath.dirname_join oldProper, oldParentIsPath.basename_join oldProper,
        ← others _ oldParentIsPath oldOutside,
        ← leaves.resolution_join tree oldParentIsPath oldProper]
      exact gone
  · rintro ⟨seen, named, freed⟩
    have others := (leaves.others_iff tree).mpr seen
    rw [newParentIsPath.dirname_join newProper, newParentIsPath.basename_join newProper] at named
    rw [oldParentIsPath.dirname_join oldProper, oldParentIsPath.basename_join oldProper] at freed
    refine ⟨?_, ?_, others⟩
    · rw [leaves.resolution_join tree newParentIsPath newProper,
        others _ newParentIsPath newOutside]
      exact named
    · rw [leaves.resolution_join tree oldParentIsPath oldProper,
        others _ oldParentIsPath oldOutside]
      exact freed

/-- Below the new path, by induction on the chain of names. -/
theorem World.Leaves.under_iff (leaves : asked.Leaves dropped drive after)
    (tree : after.drive.IsTree) (isPath : IsPath new)
    (found : after.resolution settings rootId new = some fileId) :
    (∀ names childId, after.drive.walk fileId names = some childId →
      after.resolution settings rootId (joinAll new names) = some childId) ↔
    ∀ names dirId name childId, drive.walk fileId names = some dirId →
      drive.child dirId name = some childId →
        asked.seen dropped drive (some dirId) (joinAll new names) name = some childId := by
  have named := tree.named
  rw [leaves.drive] at named ⊢
  constructor
  · intro under names dirId name childId walked child
    have proper := named _ (drive.mem_edges_of_child child)
    have isDirectory := isPath.joinAll (drive.properNames_of_walk named walked)
    rw [← under names dirId walked, ← leaves.resolution_join tree isDirectory proper,
      ← joinAll_concat]
    refine under _ _ ?_
    rw [drive.walk_concat, walked]
    exact child
  · intro seen names
    induction names using List.reverseRecOn with
    | nil =>
        intro childId walked
        cases walked
        exact found
    | append_singleton names name induction =>
        intro childId walked
        rw [drive.walk_concat] at walked
        obtain ⟨dirId, walkedThere, child⟩ := Option.bind_eq_some_iff.mp walked
        have proper := named _ (drive.mem_edges_of_child child)
        have isDirectory := isPath.joinAll (drive.properNames_of_walk named walkedThere)
        rw [joinAll_concat, leaves.resolution_join tree isDirectory proper,
          induction _ walkedThere]
        exact seen _ _ _ _ walkedThere child

/-- Below the old path, which leads to nothing. -/
theorem World.Leaves.nothingLeft_iff (leaves : asked.Leaves dropped drive after)
    (tree : after.drive.IsTree) (isPath : IsPath old)
    (gone : after.resolution settings rootId old = none) :
    (∀ names, ProperNames names → after.resolution settings rootId (joinAll old names) = none) ↔
    ∀ names, names ≠ [] → ProperNames names →
      joinAll old names ∈ dropped ∨ asked.mapped (joinAll old names) = none := by
  have below : ∀ names name, ProperNames (names ++ [name]) →
      after.resolution settings rootId (joinAll old names) = none →
      (after.resolution settings rootId (joinAll old (names ++ [name])) = none ↔
        joinAll old (names ++ [name]) ∈ dropped ∨
          asked.mapped (joinAll old (names ++ [name])) = none) := by
    intro names name proper nothing
    obtain ⟨namesProper, nameProper⟩ := ProperNames.concat_iff.mp proper
    rw [joinAll_concat, leaves.resolution_join tree (isPath.joinAll namesProper) nameProper,
      nothing]
    unfold World.seen
    rw [Option.bind_none, Option.or_none]
    by_cases isDropped : join (joinAll old names) name ∈ dropped
    · rw [if_pos isDropped]
      exact ⟨fun _ => .inl isDropped, fun _ => rfl⟩
    · rw [if_neg isDropped]
      exact ⟨.inr, fun either => either.resolve_left isDropped⟩
  constructor
  · intro nothing names notEmpty proper
    obtain rfl | ⟨front, name, rfl⟩ := names.eq_nil_or_concat'
    · exact absurd rfl notEmpty
    · have frontProper := (ProperNames.concat_iff.mp proper).1
      exact (below _ _ proper (nothing _ frontProper)).mp (nothing _ proper)
  · intro unmapped names
    induction names using List.reverseRecOn with
    | nil => exact fun _ => gone
    | append_singleton names name induction =>
        intro proper
        have nothing := induction (ProperNames.concat_iff.mp proper).1
        exact (below _ _ proper nothing).mpr (unmapped _ (by simp) proper)

theorem World.Leaves.treeMoved_iff (leaves : asked.Leaves dropped drive after)
    (tree : after.drive.IsTree) (oldIsPath : IsChildPath old) (newIsPath : IsChildPath new)
    (apart : Apart old new) :
    TreeMoved settings rootId world after old new fileId ↔
      TreeTidy settings rootId world asked dropped drive old new fileId := by
  have names := @World.Leaves.nameMoved_iff settings rootId world asked after dropped drive old
    new fileId leaves tree oldIsPath newIsPath apart
  constructor
  · rintro ⟨moved, under, nothingLeft⟩
    exact ⟨names.mp moved, (leaves.under_iff tree newIsPath.1 moved.found).mp under,
      (leaves.nothingLeft_iff tree oldIsPath.1 moved.gone).mp nothingLeft⟩
  · rintro ⟨tidy, under, nothingLeft⟩
    have moved := names.mpr tidy
    exact ⟨moved, (leaves.under_iff tree newIsPath.1 moved.found).mpr under,
      (leaves.nothingLeft_iff tree oldIsPath.1 moved.gone).mpr nothingLeft⟩

end Effects

/-! ## The world before the call -/

section Conditions

variable (settings : CacheSettings) (rootId : NodeId) (world : World)

/-- The path for which the lookups of `rename` list directories: one of them has
an entry for the old path, or leaves one for its directory. -/
def World.sought (old : Str) : Str :=
  if world.mapped old = none then old else dirname old

/-- The lookups of `rename` list the directory at the path. -/
def World.ListsToMove (old directory : Str) (dirId : NodeId) : Prop :=
  world.ListsFor settings rootId (world.sought old) directory dirId

/-- The directory is flagged before the lookups, or by them. -/
def World.FlaggedThen (old : Str) (dirId : NodeId) : Prop :=
  world.Loaded dirId ∨ ∃ directory, world.ListsToMove settings rootId old directory dirId

/-- The map has the new path and Drive gives it back once it is dropped. -/
structure SaveFits (old new : Str) (target : NodeId) : Prop where
  entered : world.mapped new = some target
  listed : ∃ dirId, world.resolution settings rootId (dirname new) = some dirId ∧
    ¬ world.Loaded dirId ∧ world.drive.child dirId (basename new) = some target
  freed : world.resolution settings rootId old = none

/-- What has to hold for Drive's move to be seen; `drive` is its tree then. -/
structure MoveFits (old new : Str) (fileId parentId : NodeId) (drive : DriveTree) : Prop where
  moved : old ≠ new
  home : world.resolution settings rootId (dirname new) = some parentId
  /-- The new path's directory is found again after its entry is dropped. -/
  kept : dirname new = ['/'] ∨ world.mapped (dirname new) ≠ none ∧
    ∃ above, world.resolution settings rootId (dirname (dirname new)) = some above ∧
      ¬ world.FlaggedThen settings rootId old above ∧
      drive.child above (basename (dirname new)) = some parentId
  named : ¬ world.ListsToMove settings rootId old (dirname new) parentId ∧
        world.mapped new = some fileId ∨
      world.ListsToMove settings rootId old (dirname new) parentId ∧
        (world.drive.child parentId (basename new)).or (world.mapped new) = some fileId ∨
      world.mapped new = none ∧ ¬ world.FlaggedThen settings rootId old parentId ∧
        drive.child parentId (basename new) = some fileId
  freed : ∀ dirId, world.resolution settings rootId (dirname old) = some dirId →
    world.FlaggedThen settings rootId old dirId ∨ drive.child dirId (basename old) = none
  /-- Listings find what the map has. -/
  agrees : ∀ directory dirId name mapped listed,
    world.ListsToMove settings rootId old directory dirId → ProperName name →
    Elsewhere old new (join directory name) → join directory name ≠ dirname new →
    world.mapped (join directory name) = some mapped →
    world.drive.child dirId name = some listed → listed = mapped
  /-- What only Drive has stays as it was, and is nothing in a directory that is
  listed at another path. -/
  unlisted : ∀ directory dirId name, IsPath directory → ProperName name →
    world.resolution settings rootId directory = some dirId → ¬ world.Loaded dirId →
    ¬ world.ListsToMove settings rootId old directory dirId →
    Elsewhere old new (join directory name) → join directory name ≠ dirname new →
    world.mapped (join directory name) = none →
    (world.FlaggedThen settings rootId old dirId → world.drive.child dirId name = none) ∧
    (¬ world.FlaggedThen settings rootId old dirId →
      drive.child dirId name = world.drive.child dirId name)
  under : ∀ names dirId name childId, drive.walk fileId names = some dirId →
    drive.child dirId name = some childId →
      world.mapped (join (joinAll new names) name) = some childId ∨
      world.mapped (join (joinAll new names) name) = none ∧
        ¬ world.FlaggedThen settings rootId old dirId
  nothingLeft : ∀ names, names ≠ [] → ProperNames names →
    world.mapped (joinAll old names) = none

variable {settings rootId world} {old new : Str}

theorem AtOrBelow.of_asks {target path : Str} (asks : world.Asks target path) :
    AtOrBelow path target := by
  induction asks with
  | self =>
      have noNames : ProperNames [] := fun name member => by cases member
      exact ⟨[], noNames, rfl⟩
  | @up parent name _ proper _ _ induction =>
      obtain ⟨names, namesProper, same⟩ := induction
      refine ⟨name :: names, ?_, same⟩
      intro other member
      rcases List.mem_cons.mp member with rfl | later
      · exact proper
      · exact namesProper other later

theorem World.ListsToMove.above {directory : Str} {dirId : NodeId} (oldIsPath : IsChildPath old)
    (lists : world.ListsToMove settings rootId old directory dirId) :
    AtOrBelow directory (dirname old) := by
  obtain ⟨parent, last, isParent, lastProper, rfl⟩ := oldIsPath.exists_join
  obtain ⟨name, proper, asks, -⟩ := lists.asked
  obtain ⟨names, namesProper, same⟩ := AtOrBelow.of_asks asks
  have allProper : ProperNames (name :: names) := by
    intro other member
    rcases List.mem_cons.mp member with rfl | later
    · exact proper
    · exact namesProper other later
  rw [isParent.dirname_join lastProper]
  unfold World.sought at same
  split at same
  · obtain ⟨front, final, split⟩ : ∃ front final, name :: names = front ++ [final] :=
      ⟨_, _, (List.dropLast_append_getLast (List.cons_ne_nil name names)).symm⟩
    rw [split] at allProper
    obtain ⟨frontProper, finalProper⟩ := ProperNames.concat_iff.mp allProper
    have whole : join parent last = join (joinAll directory front) final := by
      rw [← joinAll_concat, ← split]
      exact same
    have isFront := lists.isPath.joinAll frontProper
    exact ⟨front, frontProper, (join_inj isParent lastProper isFront finalProper whole).1⟩
  · rw [isParent.dirname_join lastProper] at same
    exact ⟨name :: names, allProper, same⟩

section Lookups

variable {asked : World} {fileId parentId : NodeId} {drive : DriveTree}
  (looked : world.LookedUp settings rootId (world.sought old) asked)

include looked

theorem World.LookedUp.loaded_iff {dirId : NodeId} :
    asked.Loaded dirId ↔ world.FlaggedThen settings rootId old dirId :=
  looked.loaded

/-- The other names are seen as before exactly if the listings agree with the
map and what only Drive has stays. -/
theorem World.LookedUp.other_iff (tree : world.drive.IsTree) {dropped : List Str}
    {parent name : Str} (isPath : IsPath parent) (proper : ProperName name)
    (kept : join parent name ∉ dropped) :
    asked.seen dropped drive (world.resolution settings rootId parent) parent name =
        world.resolution settings rootId (join parent name) ↔
      (∀ dirId mapped listed, world.ListsToMove settings rootId old parent dirId →
        world.mapped (join parent name) = some mapped →
        world.drive.child dirId name = some listed → listed = mapped) ∧
      ∀ dirId, world.resolution settings rootId parent = some dirId → ¬ world.Loaded dirId →
        ¬ world.ListsToMove settings rootId old parent dirId →
        world.mapped (join parent name) = none →
        (world.FlaggedThen settings rootId old dirId → world.drive.child dirId name = none) ∧
        (¬ world.FlaggedThen settings rootId old dirId →
          drive.child dirId name = world.drive.child dirId name) := by
  rw [resolution_join tree isPath proper]
  unfold World.seen World.below
  rw [if_neg kept]
  cases found : world.resolution settings rootId parent with
  | none =>
      have notListed : ∀ dirId, ¬ world.ListsToMove settings rootId old parent dirId :=
        fun dirId lists => Option.some_ne_none _ (lists.found.symm.trans found)
      rw [looked.elsewhere isPath proper notListed]
      simp [notListed]
  | some dirId =>
      have only : ∀ other, world.ListsToMove settings rootId old parent other →
          other = dirId := fun other lists => Option.some.inj (lists.found.symm.trans found)
      simp only [Option.bind_some, Option.some.injEq, forall_eq']
      by_cases lists : world.ListsToMove settings rootId old parent dirId
      · -- the directory is listed for this path
        have flagged : asked.Loaded dirId := looked.loaded_iff.mpr (.inr ⟨parent, lists⟩)
        rw [looked.listed lists proper, if_pos flagged, if_neg lists.notLoaded, Option.or_none]
        constructor
        · intro same
          refine ⟨fun other mapped listed otherLists isMapped isListed => ?_,
            fun _ notListed => absurd lists notListed⟩
          rw [only other otherLists] at isListed
          rw [isMapped, isListed] at same
          exact Option.some.inj same
        · intro fits
          cases isMapped : world.mapped (join parent name) with
          | none => simp
          | some mapped =>
              cases isListed : world.drive.child dirId name with
              | none => simp
              | some listed => simp [fits.1 dirId mapped listed lists isMapped isListed]
      · have notListed : ∀ other, ¬ world.ListsToMove settings rootId old parent other :=
          fun other otherLists => lists (only other otherLists ▸ otherLists)
        rw [looked.elsewhere isPath proper notListed]
        cases isMapped : world.mapped (join parent name) with
        | some mapped => simp [notListed]
        | none =>
            simp only [← looked.loaded_iff]
            by_cases loaded : world.Loaded dirId
            · have flagged : asked.Loaded dirId := looked.loaded_iff.mpr (.inl loaded)
              simp [loaded, flagged]
            · by_cases flagged : asked.Loaded dirId
              · simp [loaded, flagged, lists, notListed, eq_comm]
              · simp [loaded, flagged, lists, notListed]

theorem World.LookedUp.home_iff (tree : world.drive.IsTree) {dropped : List Str}
    {parent name : Str} (isPath : IsPath parent) (proper : ProperName name)
    (isDropped : join parent name ∈ dropped) (entered : world.mapped (join parent name) ≠ none)
    (found : (∀ dirId, ¬ world.ListsToMove settings rootId old parent dirId) →
      world.mapped (join parent name) = some parentId) :
    asked.seen dropped drive (world.resolution settings rootId parent) parent name =
        world.resolution settings rootId (join parent name) ↔
      world.resolution settings rootId (join parent name) = some parentId ∧
        ∃ above, world.resolution settings rootId parent = some above ∧
          ¬ world.FlaggedThen settings rootId old above ∧
          drive.child above name = some parentId := by
  obtain ⟨entry, cached⟩ := Option.ne_none_iff_exists'.mp entered
  have resolved : world.resolution settings rootId (join parent name) = some entry := by
    rw [resolution_join tree isPath proper, World.below, cached, Option.some_or]
  unfold World.seen
  rw [if_pos isDropped, Option.none_or, resolved]
  constructor
  · intro seen
    obtain ⟨above, foundAbove, child⟩ := Option.bind_eq_some_iff.mp seen
    split at child
    · cases child
    · rename_i notLoaded
      -- the directory above is not listed, so the entry is the one before
      have notListed : ∀ dirId, ¬ world.ListsToMove settings rootId old parent dirId := by
        intro dirId lists
        cases lists.found.symm.trans foundAbove
        exact notLoaded (looked.loaded_iff.mpr (.inr ⟨parent, lists⟩))
      have same : some entry = some parentId := cached.symm.trans (found notListed)
      rw [same] at child ⊢
      exact ⟨rfl, above, foundAbove, notLoaded ∘ looked.loaded_iff.mpr, child⟩
  · intro home
    obtain ⟨same, above, foundAbove, notFlagged, child⟩ := home
    rw [foundAbove, Option.bind_some, if_neg (notFlagged ∘ looked.loaded_iff.mp), child, same]

theorem World.LookedUp.named_iff {dropped : List Str} {parent name : Str}
    (isPath : IsPath parent) (proper : ProperName name) (kept : join parent name ∉ dropped)
    (home : world.resolution settings rootId parent = some parentId) :
    asked.seen dropped drive (world.resolution settings rootId parent) parent name =
        some fileId ↔
      ¬ world.ListsToMove settings rootId old parent parentId ∧
          world.mapped (join parent name) = some fileId ∨
        world.ListsToMove settings rootId old parent parentId ∧
          (world.drive.child parentId name).or (world.mapped (join parent name)) =
            some fileId ∨
        world.mapped (join parent name) = none ∧
          ¬ world.FlaggedThen settings rootId old parentId ∧
          drive.child parentId name = some fileId := by
  unfold World.seen
  rw [if_neg kept, home, Option.bind_some, ← looked.loaded_iff]
  by_cases lists : world.ListsToMove settings rootId old parent parentId
  · have flagged : asked.Loaded parentId := looked.loaded_iff.mpr (.inr ⟨parent, lists⟩)
    rw [looked.listed lists proper]
    simp [lists, flagged]
  · have notListed : ∀ dirId, ¬ world.ListsToMove settings rootId old parent dirId := by
      intro dirId otherLists
      cases otherLists.found.symm.trans home
      exact lists otherLists
    rw [looked.elsewhere isPath proper notListed]
    cases cached : world.mapped (join parent name) with
    | some entry => simp [lists]
    | none => simp [lists]

theorem World.LookedUp.under_iff (oldIsPath : IsChildPath old) (newIsPath : IsChildPath new)
    (apart : Apart old new) {names : List Str} {name : Str} {dirId childId : NodeId}
    (namesProper : ProperNames names) (proper : ProperName name)
    (child : drive.child dirId name = some childId) :
    asked.seen [old, dirname new] drive (some dirId) (joinAll new names) name = some childId ↔
      world.mapped (join (joinAll new names) name) = some childId ∨
        world.mapped (join (joinAll new names) name) = none ∧
          ¬ world.FlaggedThen settings rootId old dirId := by
  have isDirectory := newIsPath.1.joinAll namesProper
  have below : AtOrBelow new (joinAll new names) := ⟨names, namesProper, rfl⟩
  have notListed : ∀ other, ¬ world.ListsToMove settings rootId old (joinAll new names) other :=
    fun other lists => apart.notOnto (below.trans (lists.above oldIsPath))
  have notOld : join (joinAll new names) name ≠ old := by
    intro same
    have directory := isDirectory.dirname_join proper
    rw [same] at directory
    exact apart.notOnto (directory ▸ below)
  have notParent : join (joinAll new names) name ≠ dirname new := by
    obtain ⟨parent, last, isParent, lastProper, rfl⟩ := newIsPath.exists_join
    rw [isParent.dirname_join lastProper]
    intro same
    have reached := below.join proper
    rw [same] at reached
    exact isParent.not_atOrBelow lastProper reached
  unfold World.seen
  rw [if_neg (by simp [notOld, notParent]), looked.elsewhere isDirectory proper notListed,
    Option.bind_some, child, ← looked.loaded_iff]
  cases cached : world.mapped (join (joinAll new names) name) with
  | some entry => simp
  | none => simp

theorem World.LookedUp.nothingLeft_iff (oldIsPath : IsChildPath old) (apart : Apart old new)
    {names : List Str} (notEmpty : names ≠ []) (proper : ProperNames names) :
    joinAll old names ∈ [old, dirname new] ∨ asked.mapped (joinAll old names) = none ↔
      world.mapped (joinAll old names) = none := by
  obtain rfl | ⟨front, name, rfl⟩ := names.eq_nil_or_concat'
  · exact absurd rfl notEmpty
  · obtain ⟨frontProper, nameProper⟩ := ProperNames.concat_iff.mp proper
    have isDirectory := oldIsPath.1.joinAll frontProper
    have below : AtOrBelow old (joinAll old front) := ⟨front, frontProper, rfl⟩
    have notListed : ∀ other, ¬ world.ListsToMove settings rootId old (joinAll old front) other := by
      intro other lists
      obtain ⟨parent, last, isParent, lastProper, rfl⟩ := oldIsPath.exists_join
      have above := lists.above oldIsPath
      rw [isParent.dirname_join lastProper] at above
      exact isParent.not_atOrBelow lastProper (below.trans above)
    have longer := isDirectory.length_lt_join nameProper
    have noShorter := oldIsPath.1.length_le_joinAll frontProper
    have notOld : join (joinAll old front) name ≠ old := by
      intro same
      rw [same] at longer
      omega
    have notParent : join (joinAll old front) name ≠ dirname new :=
      fun same => apart.notInto (same ▸ below.join nameProper)
    rw [joinAll_concat, looked.elsewhere isDirectory nameProper notListed]
    simp [notOld, notParent]

theorem World.LookedUp.freed_iff (oldIsPath : IsChildPath old) {dropped : List Str}
    (isDropped : old ∈ dropped) :
    asked.seen dropped drive (world.resolution settings rootId (dirname old)) (dirname old)
        (basename old) = none ↔
      ∀ dirId, world.resolution settings rootId (dirname old) = some dirId →
        world.FlaggedThen settings rootId old dirId ∨
          drive.child dirId (basename old) = none := by
  unfold World.seen
  rw [oldIsPath.join_eq.1, if_pos isDropped, Option.none_or]
  cases found : world.resolution settings rootId (dirname old) with
  | none => simp
  | some dirId =>
      simp only [Option.bind_some, Option.some.injEq, forall_eq', ← looked.loaded_iff]
      by_cases loaded : asked.Loaded dirId
      · simp [loaded]
      · simp [loaded]

/-- The directory of the new path leads where it led, its entry being dropped. -/
theorem World.LookedUp.parent_iff (tree : world.drive.IsTree) (newIsPath : IsChildPath new)
    (entered : dirname new = ['/'] ∨ world.mapped (dirname new) ≠ none)
    (foundRoot : dirname new = ['/'] → parentId = rootId)
    (found : dirname new ≠ ['/'] →
      (∀ dirId, ¬ world.ListsToMove settings rootId old (dirname (dirname new)) dirId) →
      world.mapped (dirname new) = some parentId) :
    (∀ parent name, IsPath parent → ProperName name → join parent name = dirname new →
      asked.seen [old, dirname new] drive (world.resolution settings rootId parent) parent name =
        world.resolution settings rootId (join parent name)) ↔
      world.resolution settings rootId (dirname new) = some parentId ∧
        (dirname new = ['/'] ∨ world.mapped (dirname new) ≠ none ∧
          ∃ above, world.resolution settings rootId (dirname (dirname new)) = some above ∧
            ¬ world.FlaggedThen settings rootId old above ∧
            drive.child above (basename (dirname new)) = some parentId) := by
  by_cases isRoot : dirname new = ['/']
  · rw [isRoot, foundRoot isRoot]
    refine ⟨fun _ => ⟨rfl, .inl rfl⟩, fun _ parent name isPath proper same => ?_⟩
    exact absurd same (isPath.join_ne_root proper)
  · obtain ⟨above, last, isAbove, lastProper, same⟩ :=
      IsChildPath.exists_join ⟨newIsPath.dirname, isRoot⟩
    have present := entered.resolve_left isRoot
    have foundThere := found isRoot
    rw [same, isAbove.dirname_join lastProper] at foundThere
    rw [same] at present isRoot ⊢
    rw [isAbove.dirname_join lastProper, isAbove.basename_join lastProper]
    have home := @World.LookedUp.home_iff settings rootId world old asked parentId drive looked
      tree [old, join above last] above last isAbove lastProper (by simp) present foundThere
    constructor
    · intro seen
      obtain ⟨resolved, below⟩ := home.mp (seen above last isAbove lastProper rfl)
      exact ⟨resolved, .inr ⟨present, below⟩⟩
    · intro kept parent name isPath proper sameJoin
      obtain ⟨rfl, rfl⟩ := join_inj isPath proper isAbove lastProper sameJoin
      exact home.mpr ⟨kept.1, (kept.2.resolve_left isRoot).2⟩

/-- What the lookups leave is tidy exactly if the move fits the world before. -/
theorem World.LookedUp.treeTidy_iff (tree : world.drive.IsTree) (oldIsPath : IsChildPath old)
    (newIsPath : IsChildPath new) (apart : Apart old new)
    (named : ∀ edge ∈ drive.edges, ProperName edge.name)
    (entered : dirname new = ['/'] ∨ world.mapped (dirname new) ≠ none)
    (foundRoot : dirname new = ['/'] → parentId = rootId)
    (found : dirname new ≠ ['/'] →
      (∀ dirId, ¬ world.ListsToMove settings rootId old (dirname (dirname new)) dirId) →
      world.mapped (dirname new) = some parentId) :
    TreeTidy settings rootId world asked [old, dirname new] drive old new fileId ↔
      MoveFits settings rootId world old new fileId parentId drive := by
  have parent := @World.LookedUp.parent_iff settings rootId world old new asked parentId drive
    looked tree newIsPath entered foundRoot found
  have outside : Elsewhere old new (dirname new) := by
    refine ⟨apart.notInto, ?_⟩
    obtain ⟨newParent, newName, isParent, proper, rfl⟩ := newIsPath.exists_join
    rw [isParent.dirname_join proper]
    exact isParent.not_atOrBelow proper
  have notDropped {path : Str} (elsewhere : Elsewhere old new path)
      (notParent : path ≠ dirname new) : path ∉ [old, dirname new] := by
    have noNames : ProperNames [] := fun name member => by cases member
    have notOld : path ≠ old := fun same => elsewhere.1 ⟨[], noNames, same⟩
    simp [notOld, notParent]
  have newKept (moved : old ≠ new) :
      join (dirname new) (basename new) ∉ [old, dirname new] := by
    have longer := newIsPath.dirname.length_lt_join newIsPath.join_eq.2
    have notParent : join (dirname new) (basename new) ≠ dirname new := by
      intro same
      rw [same] at longer
      exact Nat.lt_irrefl _ longer
    have notOld : join (dirname new) (basename new) ≠ old := by
      rw [newIsPath.join_eq.1]
      exact moved.symm
    simp [notOld, notParent]
  have freedIff := @World.LookedUp.freed_iff settings rootId world old asked drive looked
    oldIsPath [old, dirname new] List.mem_cons_self
  have namedIff (moved : old ≠ new)
      (home : world.resolution settings rootId (dirname new) = some parentId) :=
    @World.LookedUp.named_iff settings rootId world old asked fileId parentId drive looked
      [old, dirname new] (dirname new) (basename new) newIsPath.dirname newIsPath.join_eq.2
      (newKept moved) home
  rw [newIsPath.join_eq.1] at namedIff
  constructor
  · intro tidy
    obtain ⟨⟨others, isNamed, freed⟩, under, nothingLeft⟩ := tidy
    have moved : old ≠ new := by
      intro same
      subst same
      rw [isNamed] at freed
      cases freed
    obtain ⟨home, kept⟩ := parent.mp fun above last isAbove lastProper same =>
      others above last isAbove lastProper (same ▸ outside)
    have other {directory name : Str} (isPath : IsPath directory) (proper : ProperName name)
        (elsewhere : Elsewhere old new (join directory name))
        (notParent : join directory name ≠ dirname new) :=
      (looked.other_iff tree isPath proper (notDropped elsewhere notParent)).mp
        (others directory name isPath proper elsewhere)
    refine ⟨moved, home, kept, (namedIff moved home).mp isNamed, freedIff.mp freed, ?_, ?_, ?_, ?_⟩
    · intro directory dirId name mapped listed lists proper elsewhere notParent
      exact (other lists.isPath proper elsewhere notParent).1 dirId mapped listed lists
    · intro directory dirId name isPath proper found notLoaded notListed elsewhere notParent
      exact (other isPath proper elsewhere notParent).2 dirId found notLoaded notListed
    · intro names dirId name childId walked child
      exact (looked.under_iff oldIsPath newIsPath apart (drive.properNames_of_walk named walked)
        (named _ (drive.mem_edges_of_child child)) child).mp
          (under names dirId name childId walked child)
    · intro names notEmpty proper
      exact (looked.nothingLeft_iff oldIsPath apart notEmpty proper).mp
        (nothingLeft names notEmpty proper)
  · intro fits
    refine ⟨⟨?_, (namedIff fits.moved fits.home).mpr fits.named, freedIff.mpr fits.freed⟩, ?_, ?_⟩
    · intro directory name isPath proper elsewhere
      by_cases isParent : join directory name = dirname new
      · exact parent.mpr ⟨fits.home, fits.kept⟩ directory name isPath proper isParent
      · refine (looked.other_iff tree isPath proper (notDropped elsewhere isParent)).mpr ⟨?_, ?_⟩
        · intro dirId mapped listed lists
          exact fits.agrees directory dirId name mapped listed lists proper elsewhere isParent
        · intro dirId found notLoaded notListed
          exact fits.unlisted directory dirId name isPath proper found notLoaded notListed
            elsewhere isParent
    · intro names dirId name childId walked child
      exact (looked.under_iff oldIsPath newIsPath apart (drive.properNames_of_walk named walked)
        (named _ (drive.mem_edges_of_child child)) child).mpr
          (fits.under names dirId name childId walked child)
    · intro names notEmpty proper
      exact (looked.nothingLeft_iff oldIsPath apart notEmpty proper).mpr
        (fits.nothingLeft names notEmpty proper)

end Lookups

theorem World.Alike.seen {asked : World} (alike : world.Alike asked) (tree : world.drive.IsTree)
    {dropped : List Str} {parent name : Str} (isPath : IsPath parent) (proper : ProperName name)
    (kept : join parent name ∉ dropped) :
    asked.seen dropped world.drive (world.resolution settings rootId parent) parent name =
      world.resolution settings rootId (join parent name) := by
  rw [resolution_join tree isPath proper]
  unfold World.seen World.below
  rw [if_neg kept, alike.mapped isPath proper]
  simp only [alike.loaded]

/-- What the lookup of the new path leaves is tidy exactly if the save fits the
world before. -/
theorem nameTidy_iff_saveFits {asked : World} {target : NodeId} (tree : world.drive.IsTree)
    (oldIsPath : IsChildPath old) (newIsPath : IsChildPath new)
    (looked : world.LookedUp settings rootId new asked)
    (resolved : world.resolution settings rootId new = some target) :
    NameTidy settings rootId world asked [new] world.drive old new target ↔
      SaveFits settings rootId world old new target := by
  obtain ⟨sameOld, oldProper⟩ := oldIsPath.join_eq
  obtain ⟨sameNew, newProper⟩ := newIsPath.join_eq
  have below := @resolution_join settings rootId world tree _ _ newIsPath.dirname newProper
  rw [sameNew, resolved, World.below, sameNew] at below
  have namedIff : asked.seen [new] world.drive (world.resolution settings rootId (dirname new))
        (dirname new) (basename new) = some target ↔
      ∃ dirId, world.resolution settings rootId (dirname new) = some dirId ∧
        ¬ asked.Loaded dirId ∧ world.drive.child dirId (basename new) = some target := by
    unfold World.seen
    rw [sameNew, if_pos List.mem_cons_self, Option.none_or, Option.bind_eq_some_iff]
    simp only [ite_eq_iff, reduceCtorEq, and_false, false_or]
  have freedIff (alike : world.Alike asked) (moved : old ≠ new) :
      asked.seen [new] world.drive (world.resolution settings rootId (dirname old)) (dirname old)
          (basename old) = none ↔ world.resolution settings rootId old = none := by
    have kept : join (dirname old) (basename old) ∉ [new] := by simp [sameOld, moved]
    rw [alike.seen tree oldIsPath.dirname oldProper kept, sameOld]
  constructor
  · intro tidy
    obtain ⟨others, named, freed⟩ := tidy
    have moved : old ≠ new := by
      intro same
      subst same
      rw [named] at freed
      cases freed
    obtain ⟨dirId, found, notLoaded, child⟩ := namedIff.mp named
    have entered : world.mapped new = some target := by
      cases cached : world.mapped new with
      | some entry =>
          rw [cached, Option.some_or] at below
          exact below.symm
      | none =>
          -- the lookup has listed and flagged the directory
          exfalso
          rw [cached, Option.none_or, found, Option.bind_some] at below
          split at below
          · cases below
          · rename_i notBefore
            have unmapped : world.mapped (join (dirname new) (basename new)) = none := by
              rw [sameNew, cached]
            have asks : world.Asks new (join (dirname new) (basename new)) := by
              rw [sameNew]
              exact .self
            exact notLoaded (looked.loaded.mpr (.inr ⟨dirname new, newIsPath.dirname,
              ⟨basename new, newProper, asks, unmapped⟩, found, notBefore⟩))
    have alike := looked.alike newIsPath.1 (.inr (by rw [entered]; exact Option.some_ne_none _))
    exact ⟨entered, ⟨dirId, found, notLoaded ∘ alike.loaded.mpr, child⟩,
      (freedIff alike moved).mp freed⟩
  · intro fits
    obtain ⟨entered, ⟨dirId, found, notLoaded, child⟩, gone⟩ := fits
    have alike := looked.alike newIsPath.1 (.inr (by rw [entered]; exact Option.some_ne_none _))
    have moved : old ≠ new := by
      intro same
      rw [same, resolved] at gone
      cases gone
    refine ⟨?_, namedIff.mpr ⟨dirId, found, notLoaded ∘ alike.loaded.mp, child⟩,
      (freedIff alike moved).mpr gone⟩
    intro parent name isPath proper elsewhere
    have noNames : ProperNames [] := fun name member => by cases member
    have notNew : join parent name ≠ new := fun same => elsewhere.2 ⟨[], noNames, same⟩
    exact alike.seen tree isPath proper (by simp [notNew])

/-! ## The three lookups -/

/-- A directory is listed that the path of the given one's directory leads to. -/
structure ListedAbove (settings : CacheSettings) (rootId : NodeId) (start asked : World)
    (directory : Str) (above : NodeId) : Prop where
  child : start.drive.child above (basename directory) ≠ none
  notBefore : ¬ start.Loaded above
  flagged : asked.Loaded above
  entered : dirname directory = ['/'] ∨ asked.mapped (dirname directory) ≠ none
  leads : start.resolution settings rootId (dirname directory) = some above ∨
    dirname directory ≠ ['/'] ∧ asked.mapped (dirname directory) = some above

/-- What `rename` looks up before it asks Drive to move the file below
`parentId`. -/
structure World.LooksForMove (settings : CacheSettings) (rootId : NodeId) (start : World)
    (old new : Str) (fileId parentId : NodeId) (found reached asked : World) : Prop where
  isFile : start.resolution settings rootId old = some fileId
  afterOld : start.LookedUp settings rootId old found
  isParent : found.resolution settings rootId (dirname new) = some parentId
  afterParent : found.LookedUp settings rootId (dirname new) reached
  afterAll : reached.LookedUp settings rootId (dirname old) asked

namespace World.LooksForMove

variable {fileId parentId : NodeId} {drive : DriveTree} {start found reached asked : World}
  (looks : start.LooksForMove settings rootId old new fileId parentId found reached asked)
  (tree : start.drive.IsTree)

include looks

theorem found_isTree (tree : start.drive.IsTree) : found.drive.IsTree :=
  looks.afterOld.drive ▸ tree

theorem loaded_of_found {dirId : NodeId} (loaded : found.Loaded dirId) : asked.Loaded dirId :=
  looks.afterAll.loaded.mpr (.inl (looks.afterParent.loaded.mpr (.inl loaded)))

include tree

/-- Without an entry for the old path its directory has one after the first
lookup, and the last one changes nothing. -/
theorem asked_alike (oldIsPath : IsChildPath old) (unmapped : start.mapped old = none) :
    reached.Alike asked := by
  obtain ⟨sameOld, proper⟩ := oldIsPath.join_eq
  have below := @resolution_join settings rootId start tree _ _ oldIsPath.dirname proper
  rw [sameOld, looks.isFile, World.below, sameOld, unmapped, Option.none_or] at below
  obtain ⟨dirId, foundThere, -⟩ := Option.bind_eq_some_iff.mp below.symm
  have asks : start.Asks old (dirname old) := by
    have itself : start.Asks old (join (dirname old) (basename old)) := by
      rw [sameOld]
      exact .self
    exact .up oldIsPath.dirname proper itself (by rw [sameOld, unmapped])
  have entry := looks.afterOld.mapped_of_asked tree oldIsPath.1 oldIsPath.dirname asks foundThere
  refine looks.afterAll.alike oldIsPath.dirname ?_
  refine looks.afterParent.entered oldIsPath.dirname (entry.imp_right fun mapped => ?_)
  rw [mapped]
  exact Option.some_ne_none _

theorem lookedUp (oldIsPath : IsChildPath old) (newIsPath : IsChildPath new)
    (entered : dirname new = ['/'] ∨ start.mapped (dirname new) ≠ none) :
    start.LookedUp settings rootId (start.sought old) asked := by
  have stillEntered := looks.afterOld.entered newIsPath.dirname entered
  have alike := looks.afterParent.alike newIsPath.dirname stillEntered
  unfold World.sought
  by_cases unmapped : start.mapped old = none
  · rw [if_pos unmapped]
    exact looks.afterOld.then_alike (alike.trans (looks.asked_alike tree oldIsPath unmapped))
  · rw [if_neg unmapped]
    have sameFound := looks.afterOld.alike oldIsPath.1 (.inr unmapped)
    exact .of_alike (sameFound.trans alike) tree looks.afterAll

theorem mapped_parent (oldIsPath : IsChildPath old) (newIsPath : IsChildPath new)
    (entered : dirname new = ['/'] ∨ start.mapped (dirname new) ≠ none)
    (notRoot : dirname new ≠ ['/'])
    (notListed : ∀ dirId,
      ¬ start.ListsToMove settings rootId old (dirname (dirname new)) dirId) :
    start.mapped (dirname new) = some parentId := by
  have isChild : IsChildPath (dirname new) := ⟨newIsPath.dirname, notRoot⟩
  obtain ⟨same, proper⟩ := isChild.join_eq
  have sameEntry : found.mapped (dirname new) = start.mapped (dirname new) := by
    by_cases unmapped : start.mapped old = none
    · have sought : start.sought old = old := if_pos unmapped
      unfold World.ListsToMove at notListed
      rw [sought] at notListed
      have kept := looks.afterOld.elsewhere isChild.dirname proper notListed
      rwa [same] at kept
    · have kept := (looks.afterOld.alike oldIsPath.1 (.inr unmapped)).mapped isChild.dirname
        proper
      rwa [same] at kept
  have present := entered.resolve_left notRoot
  obtain ⟨entry, cached⟩ := Option.ne_none_iff_exists'.mp present
  have resolved := @resolution_join settings rootId found (looks.found_isTree tree) _ _
    isChild.dirname proper
  rw [same, World.below, same, sameEntry, cached, Option.some_or, looks.isParent] at resolved
  rw [cached, resolved]

/-- Without an entry for the new path's directory a lookup lists the one above. -/
theorem listed_of_unmapped (isChild : IsChildPath (dirname new))
    (unmapped : found.mapped (dirname new) = none) :
    ∃ above, found.resolution settings rootId (dirname (dirname new)) = some above ∧
      ¬ found.Loaded above ∧
      start.drive.child above (basename (dirname new)) = some parentId ∧
      reached.Loaded above ∧
      (dirname (dirname new) = ['/'] ∨ reached.mapped (dirname (dirname new)) = some above) := by
  obtain ⟨same, proper⟩ := isChild.join_eq
  have foundTree := looks.found_isTree tree
  have resolved := @resolution_join settings rootId found foundTree _ _ isChild.dirname proper
  rw [same, looks.isParent, World.below, same, unmapped, Option.none_or] at resolved
  obtain ⟨above, foundAbove, child⟩ := Option.bind_eq_some_iff.mp resolved.symm
  split at child
  · cases child
  · rename_i notLoaded
    rw [looks.afterOld.drive] at child
    have itself : found.Asks (dirname new) (join (dirname (dirname new)) (basename (dirname new))) := by
      rw [same]
      exact .self
    have nothing : found.mapped (join (dirname (dirname new)) (basename (dirname new))) = none := by
      rw [same, unmapped]
    refine ⟨above, foundAbove, notLoaded, child, ?_, ?_⟩
    · exact looks.afterParent.loaded.mpr (.inr ⟨_, isChild.dirname,
        ⟨_, proper, itself, nothing⟩, foundAbove, notLoaded⟩)
    · exact looks.afterParent.mapped_of_asked foundTree isChild.1 isChild.dirname
        (.up isChild.dirname proper itself nothing) foundAbove

/-- Without an entry for the new path's directory one of the lookups lists the
one above, which its path then leads to. -/
theorem listedAbove (oldIsPath : IsChildPath old) (isChild : IsChildPath (dirname new))
    (unmapped : start.mapped (dirname new) = none) :
    ∃ above, ListedAbove settings rootId start asked (dirname new) above := by
  obtain ⟨same, proper⟩ := isChild.join_eq
  by_cases stillUnmapped : found.mapped (dirname new) = none
  · obtain ⟨above, foundAbove, notLoaded, child, flagged, entry⟩ :=
      looks.listed_of_unmapped tree isChild stillUnmapped
    have notBefore : ¬ start.Loaded above :=
      fun loaded => notLoaded (looks.afterOld.loaded.mpr (.inl loaded))
    refine ⟨above, by rw [child]; exact Option.some_ne_none _, notBefore,
      looks.afterAll.loaded.mpr (.inl flagged), ?_, ?_⟩
    · refine looks.afterAll.entered isChild.dirname (entry.imp_right fun mapped => ?_)
      rw [mapped]
      exact Option.some_ne_none _
    · by_cases oldUnmapped : start.mapped old = none
      · by_cases isRoot : dirname (dirname new) = ['/']
        · left
          rw [isRoot] at foundAbove ⊢
          exact foundAbove
        · right
          obtain ⟨sameAbove, aboveProper⟩ := IsChildPath.join_eq ⟨isChild.dirname, isRoot⟩
          have kept := (looks.asked_alike tree oldIsPath oldUnmapped).mapped
            (IsChildPath.dirname ⟨isChild.dirname, isRoot⟩) aboveProper
          rw [sameAbove] at kept
          exact ⟨isRoot, kept.trans (entry.resolve_left isRoot)⟩
      · left
        have sameFound := looks.afterOld.alike oldIsPath.1 (.inr oldUnmapped)
        rw [← sameFound.resolution tree isChild.dirname]
        exact foundAbove
  · -- the lookup of the old path has listed it
    have lists : ∃ above, start.ListsFor settings rootId old (dirname (dirname new)) above := by
      by_contra notListed
      apply stillUnmapped
      have kept := looks.afterOld.elsewhere isChild.dirname proper
        fun above lists => notListed ⟨above, lists⟩
      rwa [same, unmapped] at kept
    obtain ⟨above, lists⟩ := lists
    have listed := looks.afterOld.listed lists proper
    rw [same, unmapped, Option.or_none] at listed
    rw [listed] at stillUnmapped
    obtain ⟨name, nameProper, asks, nothing⟩ := lists.asked
    have entry := looks.afterOld.mapped_of_asked tree oldIsPath.1 lists.isPath
      (.up lists.isPath nameProper asks nothing) lists.found
    refine ⟨above, stillUnmapped, lists.notLoaded, ?_, ?_, .inl lists.found⟩
    · exact looks.loaded_of_found (looks.afterOld.loaded.mpr (.inr ⟨_, lists⟩))
    · refine looks.afterAll.entered lists.isPath (looks.afterParent.entered lists.isPath
        (entry.imp_right fun mapped => ?_))
      rw [mapped]
      exact Option.some_ne_none _

end World.LooksForMove

theorem Apart.outside (apart : Apart old new) (newIsPath : IsChildPath new) :
    Elsewhere old new (dirname new) := by
  refine ⟨apart.notInto, ?_⟩
  obtain ⟨parent, name, isParent, proper, rfl⟩ := newIsPath.exists_join
  rw [isParent.dirname_join proper]
  exact isParent.not_atOrBelow proper

theorem NameTidy.above_eq {asked : World} {fileId : NodeId} {drive : DriveTree}
    (tidy : NameTidy settings rootId world asked [old, dirname new] drive old new fileId)
    (apart : Apart old new) (newIsPath : IsChildPath new) (isChild : IsChildPath (dirname new))
    (notRoot : dirname (dirname new) ≠ ['/']) {entry : NodeId}
    (mapped : asked.mapped (dirname (dirname new)) = some entry) :
    world.resolution settings rootId (dirname (dirname new)) = some entry := by
  have aboveIsChild : IsChildPath (dirname (dirname new)) := ⟨isChild.dirname, notRoot⟩
  obtain ⟨same, proper⟩ := aboveIsChild.join_eq
  obtain ⟨sameParent, parentProper⟩ := isChild.join_eq
  have outside : Elsewhere old new (dirname (dirname new)) := by
    have parentOutside := apart.outside newIsPath
    rw [← sameParent] at parentOutside
    exact parentOutside.parent parentProper
  have noNames : ProperNames [] := fun name member => by cases member
  have notOld : dirname (dirname new) ≠ old := fun isOld => outside.1 ⟨[], noNames, isOld⟩
  have notParent : dirname (dirname new) ≠ dirname new := by
    have longer := isChild.dirname.length_lt_join parentProper
    rw [sameParent] at longer
    intro isParent
    rw [isParent] at longer
    exact Nat.lt_irrefl _ longer
  have seen := tidy.others _ _ aboveIsChild.dirname proper (by rwa [same])
  unfold World.seen at seen
  rw [same, if_neg (by simp [notOld, notParent]), mapped, Option.some_or] at seen
  exact seen.symm

theorem NameTidy.parent_eq {asked : World} {fileId : NodeId} {drive : DriveTree}
    (tidy : NameTidy settings rootId world asked [old, dirname new] drive old new fileId)
    (apart : Apart old new) (newIsPath : IsChildPath new) (isChild : IsChildPath (dirname new)) :
    (world.resolution settings rootId (dirname (dirname new))).bind (fun dirId =>
        if asked.Loaded dirId then none else drive.child dirId (basename (dirname new))) =
      world.resolution settings rootId (dirname new) := by
  obtain ⟨same, proper⟩ := isChild.join_eq
  have seen := tidy.others _ _ isChild.dirname proper (by
    rw [same]
    exact apart.outside newIsPath)
  unfold World.seen at seen
  rwa [same, if_pos (by simp), Option.none_or] at seen

/-- Where the maps are tidy the lookups find an entry for the new path's directory. -/
theorem World.LooksForMove.entered_of_tidy {fileId parentId : NodeId} {drive : DriveTree}
    {found reached asked : World}
    (looks : world.LooksForMove settings rootId old new fileId parentId found reached asked)
    (tree : world.drive.IsTree) (oldIsPath : IsChildPath old) (newIsPath : IsChildPath new)
    (apart : Apart old new)
    (tidy : NameTidy settings rootId world asked [old, dirname new] drive old new fileId) :
    dirname new = ['/'] ∨ world.mapped (dirname new) ≠ none := by
  by_contra notEntered
  obtain ⟨notRoot, unmapped⟩ := not_or.mp notEntered
  have isChild : IsChildPath (dirname new) := ⟨newIsPath.dirname, notRoot⟩
  have nothing := not_not.mp unmapped
  obtain ⟨above, child, notBefore, flagged, -, leads⟩ :=
    looks.listedAbove tree oldIsPath isChild nothing
  have found : world.resolution settings rootId (dirname (dirname new)) = some above :=
    leads.elim id fun entry => tidy.above_eq apart newIsPath isChild entry.1 entry.2
  have same := tidy.parent_eq apart newIsPath isChild
  obtain ⟨joined, proper⟩ := isChild.join_eq
  have resolved := @resolution_join settings rootId world tree _ _ isChild.dirname proper
  rw [joined, World.below, joined, nothing, Option.none_or, found, Option.bind_some,
    if_neg notBefore] at resolved
  rw [found, Option.bind_some, if_pos flagged, resolved] at same
  exact child same.symm

/-- A local-only file that Drive has too is never moved to a new name: the
first lookup flags the directory or finds none. -/
theorem World.LooksForMove.not_tidy_of_local {fileId parentId : NodeId} {drive : DriveTree}
    {start found reached asked : World}
    (looks : start.LooksForMove settings rootId old new fileId parentId found reached asked)
    (tree : world.drive.IsTree) (oldIsPath : IsChildPath old) (newIsPath : IsChildPath new)
    (apart : Apart old new) (lookedNew : world.LookedUp settings rootId new start)
    (nothing : world.resolution settings rootId new = none) :
    ¬ NameTidy settings rootId world asked [old, dirname new] drive old new fileId := by
  intro tidy
  have startTree : start.drive.IsTree := lookedNew.drive ▸ tree
  obtain ⟨sameNew, newProper⟩ := newIsPath.join_eq
  have below := @resolution_join settings rootId world tree _ _ newIsPath.dirname newProper
  rw [sameNew, nothing, World.below, sameNew] at below
  obtain ⟨unmapped, notBelow⟩ := Option.or_eq_none_iff.mp below.symm
  have itself : world.Asks new (join (dirname new) (basename new)) := by
    rw [sameNew]
    exact .self
  have asksParent : world.Asks new (dirname new) :=
    .up newIsPath.dirname newProper itself (by rw [sameNew, unmapped])
  -- a directory that the lookup comes to is flagged afterwards
  have flagged {directory name : Str} {dirId : NodeId} (isPath : IsPath directory)
      (proper : ProperName name) (asks : world.Asks new (join directory name))
      (noEntry : world.mapped (join directory name) = none)
      (resolved : world.resolution settings rootId directory = some dirId) :
      start.Loaded dirId := by
    by_cases loaded : world.Loaded dirId
    · exact lookedNew.loaded.mpr (.inl loaded)
    · exact lookedNew.loaded.mpr (.inr ⟨directory, isPath, ⟨name, proper, asks, noEntry⟩,
        resolved, loaded⟩)
  -- and leads to the same
  have leads {directory : Str} {dirId : NodeId} (isPath : IsPath directory)
      (asks : world.Asks new directory)
      (resolved : world.resolution settings rootId directory = some dirId) :
      start.resolution settings rootId directory = some dirId := by
    rcases lookedNew.mapped_of_asked tree newIsPath.1 isPath asks resolved with rfl | mapped
    · exact resolved
    · cases isPath with
      | root => exact resolved
      | child isParent proper =>
          rw [resolution_join startTree isParent proper, World.below, mapped, Option.some_or]
  -- what it does not find has no entry then
  have stays {directory name : Str} (isPath : IsPath directory) (proper : ProperName name)
      (asks : world.Asks new (join directory name))
      (nowhere : world.resolution settings rootId (join directory name) = none) :
      start.mapped (join directory name) = none := by
    rw [resolution_join tree isPath proper, World.below, Option.or_eq_none_iff] at nowhere
    obtain ⟨noEntry, noChild⟩ := nowhere
    by_cases lists : ∃ dirId, world.ListsFor settings rootId new directory dirId
    · obtain ⟨dirId, lists⟩ := lists
      rw [lists.found, Option.bind_some, if_neg lists.notLoaded] at noChild
      rw [lookedNew.listed lists proper, noChild, noEntry]
      rfl
    · rw [lookedNew.elsewhere isPath proper fun dirId listed => lists ⟨dirId, listed⟩]
      exact noEntry
  cases foundParent : world.resolution settings rootId (dirname new) with
  | some dirId =>
      have loaded := flagged newIsPath.dirname newProper itself (by rw [sameNew, unmapped])
        foundParent
      have entered : dirname new = ['/'] ∨ start.mapped (dirname new) ≠ none := by
        refine (lookedNew.mapped_of_asked tree newIsPath.1 newIsPath.dirname asksParent
          foundParent).imp_right fun mapped => ?_
        rw [mapped]
        exact Option.some_ne_none _
      have notListed : ∀ other,
          ¬ start.ListsFor settings rootId (start.sought old) (dirname new) other := by
        intro other lists
        cases lists.found.symm.trans (leads newIsPath.dirname asksParent foundParent)
        exact lists.notLoaded loaded
      have stillUnmapped := (looks.lookedUp startTree oldIsPath newIsPath entered).elsewhere
        newIsPath.dirname newProper notListed
      rw [stays newIsPath.dirname newProper itself (by rw [sameNew, nothing])] at stillUnmapped
      have named := tidy.named
      unfold World.seen at named
      rw [foundParent, stillUnmapped, ite_self, Option.none_or, Option.bind_some,
        if_pos (looks.loaded_of_found (looks.afterOld.loaded.mpr (.inl loaded)))] at named
      cases named
  | none =>
      have notRoot : dirname new ≠ ['/'] := by
        intro isRoot
        rw [isRoot] at foundParent
        cases foundParent
      have isChild : IsChildPath (dirname new) := ⟨newIsPath.dirname, notRoot⟩
      obtain ⟨sameParent, parentProper⟩ := isChild.join_eq
      have asksJoin : world.Asks new (join (dirname (dirname new)) (basename (dirname new))) := by
        rw [sameParent]
        exact asksParent
      have noEntry := @resolution_join settings rootId world tree _ _ isChild.dirname parentProper
      rw [sameParent, foundParent, World.below] at noEntry
      replace noEntry := (Option.or_eq_none_iff.mp noEntry.symm).1
      have stillUnmapped := stays isChild.dirname parentProper asksJoin
        (by rw [sameParent, foundParent])
      rw [sameParent] at stillUnmapped
      obtain ⟨above, -, notBefore, -, entry, leadsAbove⟩ :=
        looks.listedAbove startTree oldIsPath isChild stillUnmapped
      cases foundAbove : world.resolution settings rootId (dirname (dirname new)) with
      | none =>
          have aboveNotRoot : dirname (dirname new) ≠ ['/'] := by
            intro isRoot
            rw [isRoot] at foundAbove
            cases foundAbove
          obtain ⟨other, mapped⟩ :=
            Option.ne_none_iff_exists'.mp (entry.resolve_left aboveNotRoot)
          rw [tidy.above_eq apart newIsPath isChild aboveNotRoot mapped] at foundAbove
          cases foundAbove
      | some dirId =>
          have loaded := flagged isChild.dirname parentProper asksJoin noEntry foundAbove
          have asksAbove := World.Asks.up isChild.dirname parentProper asksJoin noEntry
          have same : above = dirId := by
            rcases leadsAbove with resolved | ⟨aboveNotRoot, mapped⟩
            · exact Option.some.inj
                (resolved.symm.trans (leads isChild.dirname asksAbove foundAbove))
            · rw [tidy.above_eq apart newIsPath isChild aboveNotRoot mapped] at foundAbove
              exact Option.some.inj foundAbove
          exact notBefore (same ▸ loaded)

end Conditions

/-! ## The executions of `rename` -/

section Executions

variable {settings : CacheSettings} {rootId : NodeId} {world after : World} {old new : Str}

theorem leaves_invalidatePath {asked : World} {dropped : List Str} {drive : DriveTree}
    {middle : World} (leaves : asked.Leaves dropped drive middle) (choice : Choice) (path : Str) :
    asked.Leaves (dropped ++ [path]) drive
      (serve settings choice middle (.invalidatePath path)).2 where
  mapped {other} := by
    have popped : (serve settings choice middle (.invalidatePath path)).2.mapped other =
        if other = path then none else middle.mapped other :=
      middle.cache.resolve_invalidatePath path other
    rw [popped, leaves.mapped]
    by_cases same : other = path
    · simp [same]
    · simp [same]
  loaded := leaves.loaded
  drive := leaves.drive

theorem renameOnDrive_leaves {start : World} (tree : start.drive.IsTree)
    (oldIsPath : IsChildPath old) (newIsPath : IsChildPath new)
    (renamed : Executes (steady settings) start (renameOnDrive rootId old new) (.ok ()) after) :
    ∃ fileId parentId found reached asked,
      start.LooksForMove settings rootId old new fileId parentId found reached asked ∧
      asked.Leaves [old, dirname new] (start.drive.move fileId parentId (basename new)) after := by
  unfold renameOnDrive at renamed
  obtain ⟨quota, -, afterQuota⟩ := steady_of_perform renamed
  have begun := steady_of_unless afterQuota
  obtain ⟨fileId, found, ranOld, afterOld⟩ := steady_of_bind begun
  obtain ⟨parentId, reached, ranNew, afterNew⟩ := steady_of_bind afterOld
  cases fileId with
  | none => cases (steady_of_done afterNew).1
  | some fileId =>
      cases parentId with
      | none => cases (steady_of_done afterNew).1
      | some parentId =>
          obtain ⟨oldParentId, asked, ranOldParent, update⟩ := steady_of_bind afterNew
          obtain ⟨answer, -, afterUpdate⟩ := steady_of_perform update
          obtain ⟨isFile, afterOld⟩ := lookedUp_of_resolvePath tree oldIsPath.1 ranOld
          have foundTree : found.drive.IsTree := afterOld.drive ▸ tree
          obtain ⟨isParent, afterParent⟩ :=
            lookedUp_of_resolvePath foundTree newIsPath.dirname ranNew
          have reachedTree : reached.drive.IsTree := afterParent.drive ▸ foundTree
          obtain ⟨-, afterAll⟩ :=
            lookedUp_of_resolvePath reachedTree oldIsPath.dirname ranOldParent
          refine ⟨fileId, parentId, found, reached, asked,
            ⟨isFile, afterOld, isParent, afterParent, afterAll⟩, ?_⟩
          rw [← afterOld.drive, ← afterParent.drive, ← afterAll.drive]
          obtain ⟨updated, invalidations⟩ := steady_of_if afterUpdate
          have moved : asked.Leaves [] (asked.drive.move fileId parentId (basename new))
              (serve settings answer asked
                (.updateFile fileId parentId oldParentId (basename new))).2 := by
            cases failed : answer.fails with
            | some errno =>
                unfold serve at updated
                rw [failed] at updated
                cases updated
            | none =>
                unfold serve
                rw [failed]
                exact ⟨rfl, Iff.rfl, rfl⟩
          obtain ⟨first, -, afterFirst⟩ := steady_of_perform invalidations
          obtain ⟨second, -, afterSecond⟩ := steady_of_ask afterFirst
          rw [(steady_of_done afterSecond).2]
          exact leaves_invalidatePath (leaves_invalidatePath moved first old) second (dirname new)

theorem renameOntoDrive_leaves {asked : World} {target : NodeId}
    (isLocal : old ∈ asked.localOnlyFiles)
    (renamed : Executes (steady settings) asked (renameOntoDrive rootId old new target) (.ok ())
      after) :
    asked.Leaves [new] asked.drive after ∧ old ∉ after.localOnlyFiles := by
  unfold renameOntoDrive at renamed
  obtain ⟨copy, -, afterCopy⟩ := steady_of_perform renamed
  obtain ⟨-, copied⟩ := steady_of_if afterCopy
  obtain ⟨_, middle, unlinked, invalidation⟩ := steady_of_bind copied
  unfold unlink at unlinked
  obtain ⟨localCheck, -, afterCheck⟩ := steady_of_perform unlinked
  have stillLocal : (serve settings localCheck asked (.isLocalOnly old)).1 = true :=
    decide_eq_true isLocal
  rw [show (serve settings localCheck (serve settings copy asked (.copyAndEnqueue old target)).2
    (.isLocalOnly old)).1 = true from stillLocal, if_pos rfl] at afterCheck
  obtain ⟨dropping, -, afterDropping⟩ := steady_of_ask afterCheck
  obtain ⟨last, -, afterLast⟩ := steady_of_ask invalidation
  rw [(steady_of_done afterLast).2, (steady_of_done afterDropping).2]
  have untouched : asked.Leaves [] asked.drive
      (serve settings dropping asked (.dropLocalOnly old)).2 := ⟨rfl, Iff.rfl, rfl⟩
  refine ⟨leaves_invalidatePath untouched last new, ?_⟩
  show old ∉ asked.localOnlyFiles.filter (· ≠ old)
  simp

/-- The move on Drive is seen exactly if it fits the world before. -/
theorem treeMoved_iff_moveFits (tree : world.drive.IsTree) (treeAfter : after.drive.IsTree)
    (oldIsPath : IsChildPath old) (newIsPath : IsChildPath new) (apart : Apart old new)
    {fileId parentId : NodeId} {found reached asked : World}
    (looks : world.LooksForMove settings rootId old new fileId parentId found reached asked)
    (leaves : asked.Leaves [old, dirname new] (world.drive.move fileId parentId (basename new))
      after) :
    TreeMoved settings rootId world after old new fileId ↔
      MoveFits settings rootId world old new fileId parentId
        (world.drive.move fileId parentId (basename new)) := by
  have named := treeAfter.named
  rw [leaves.drive] at named
  have moved := @World.Leaves.treeMoved_iff settings rootId world asked after
    [old, dirname new] (world.drive.move fileId parentId (basename new)) old new fileId leaves
    treeAfter oldIsPath newIsPath apart
  have foundRoot : dirname new = ['/'] → parentId = rootId := by
    intro isRoot
    have isParent := looks.isParent
    rw [isRoot] at isParent
    exact (Option.some.inj isParent).symm
  rw [moved]
  constructor
  · intro tidy
    have entered := looks.entered_of_tidy tree oldIsPath newIsPath apart tidy.toNameTidy
    exact ((looks.lookedUp tree oldIsPath newIsPath entered).treeTidy_iff tree oldIsPath
      newIsPath apart named entered foundRoot
      (looks.mapped_parent tree oldIsPath newIsPath entered)).mp tidy
  · intro fits
    have entered : dirname new = ['/'] ∨ world.mapped (dirname new) ≠ none :=
      fits.kept.imp_right And.left
    exact ((looks.lookedUp tree oldIsPath newIsPath entered).treeTidy_iff tree oldIsPath
      newIsPath apart named entered foundRoot
      (looks.mapped_parent tree oldIsPath newIsPath entered)).mpr fits

/-- A rename moves the name, and the tree below it, exactly if the entries, the
flags and Drive's tree fit it. -/
theorem rename_movesName (oldIsPath : IsChildPath old) (newIsPath : IsChildPath new)
    (apart : Apart old new) (tree : world.drive.IsTree) (treeAfter : after.drive.IsTree)
    (onDrive : old ∈ world.localOnlyFiles → isTemporaryEditorSwapFile new = false)
    (renamed : Executes (steady settings) world (rename rootId old new) (.ok ()) after) :
    (∃ target, old ∈ world.localOnlyFiles ∧
      world.resolution settings rootId new = some target ∧ after.drive = world.drive ∧
      (Saved settings rootId world after old new target ↔
        SaveFits settings rootId world old new target)) ∨
    (∃ fileId parentId, old ∈ world.localOnlyFiles ∧
      world.resolution settings rootId new = none ∧
      after.drive = world.drive.move fileId parentId (basename new) ∧
      ¬ TreeMoved settings rootId world after old new fileId) ∨
    ∃ fileId parentId, old ∉ world.localOnlyFiles ∧
      world.resolution settings rootId old = some fileId ∧
      after.drive = world.drive.move fileId parentId (basename new) ∧
      (TreeMoved settings rootId world after old new fileId ↔
        MoveFits settings rootId world old new fileId parentId
          (world.drive.move fileId parentId (basename new))) := by
  unfold rename at renamed
  obtain ⟨check, -, afterCheck⟩ := steady_of_perform renamed
  by_cases isLocal : old ∈ world.localOnlyFiles
  · rw [show (serve settings check world (.isLocalOnly old)).1 = true from decide_eq_true isLocal,
      if_pos rfl, onDrive isLocal, if_neg Bool.false_ne_true] at afterCheck
    obtain ⟨target, asked, ranNew, rest⟩ := steady_of_bind afterCheck
    have kept := resolvePath_keeps ranNew
    obtain ⟨resolved, looked⟩ := lookedUp_of_resolvePath tree newIsPath.1 ranNew
    cases target with
    | none =>
        have startTree : asked.drive.IsTree := looked.drive ▸ tree
        obtain ⟨fileId, parentId, found, reached, last, looks, leaves⟩ :=
          renameOnDrive_leaves startTree oldIsPath newIsPath rest
        rw [looked.drive] at leaves
        refine .inr (.inl ⟨fileId, parentId, isLocal, resolved, leaves.drive, fun moved => ?_⟩)
        exact looks.not_tidy_of_local tree oldIsPath newIsPath apart looked resolved
          ((leaves.nameMoved_iff treeAfter oldIsPath newIsPath apart).mp moved.toNameMoved)
    | some target =>
        obtain ⟨leaves, dropped⟩ := renameOntoDrive_leaves (kept.2.symm ▸ isLocal) rest
        rw [looked.drive] at leaves
        have names := @World.Leaves.nameMoved_iff settings rootId world asked after [new]
          world.drive old new target leaves treeAfter oldIsPath newIsPath apart
        have fits := nameTidy_iff_saveFits tree oldIsPath newIsPath looked resolved
        refine .inl ⟨target, isLocal, resolved, leaves.drive, ?_⟩
        rw [← fits, ← names]
        exact ⟨Saved.toNameMoved, fun moved => ⟨moved, dropped⟩⟩
  · rw [show (serve settings check world (.isLocalOnly old)).1 = false from
      decide_eq_false isLocal, if_neg Bool.false_ne_true] at afterCheck
    obtain ⟨fileId, parentId, found, reached, asked, looks, leaves⟩ :=
      renameOnDrive_leaves tree oldIsPath newIsPath afterCheck
    exact .inr (.inr ⟨fileId, parentId, isLocal, looks.isFile, leaves.drive,
      treeMoved_iff_moveFits tree treeAfter oldIsPath newIsPath apart looks leaves⟩)

end Executions

/-! ## A name that is lost and one that moves -/

theorem executes_calm {α : Type} {world : World} {program : Op α}
    (passed : Program.Meets (fun world request => calm.Valid defaultSettings world request)
      (serve defaultSettings calm) world program) :
    Executes (steady defaultSettings) world program
      (Program.play (serve defaultSettings calm) world program).1
      (Program.play (serve defaultSettings calm) world program).2 := by
  refine Executes.of_meets ?_ passed
  intro world request valid
  exact ⟨calm, valid, ⟨rfl, rfl⟩, rfl⟩

theorem isChildPath_single {name : Str} (proper : ProperName name) : IsChildPath ('/' :: name) := by
  refine ⟨isPath_single proper, fun same => proper.1 ?_⟩
  exact (List.cons.inj same).2

theorem apart_single {name other : Str} (proper : ProperName name)
    (otherProper : ProperName other) : Apart ('/' :: name) ('/' :: other) := by
  rw [← join_root proper, ← join_root otherProper]
  refine ⟨?_, ?_⟩
  · rw [IsPath.root.dirname_join otherProper]
    exact IsPath.root.not_atOrBelow proper
  · rw [IsPath.root.dirname_join proper]
    exact IsPath.root.not_atOrBelow otherProper

theorem isTree_single {fileId : NodeId} {name : Str} (proper : ProperName name)
    (notRoot : fileId ≠ sampleRoot) : DriveTree.IsTree ⟨[⟨sampleRoot, name, fileId⟩]⟩ := by
  refine ⟨?_, fun dirId => if dirId = sampleRoot then 0 else 1, ?_⟩
  · intro edge member
    cases List.mem_singleton.mp member
    exact proper
  · intro edge member
    cases List.mem_singleton.mp member
    simp [notRoot]

/-- After a listing of the root `rename("/a", "/b")` loses the file. -/
theorem rename_losesListed :
    ¬ ∀ (settings : CacheSettings) (rootId : NodeId) (now : Nat) (drive : DriveTree)
      (world after : World) (old new : Str) (fileId : NodeId),
      Relation.ReflTransGen (Performs settings rootId (fun _ _ _ _ => True) (fun _ _ => False))
        (World.start settings rootId now drive) world →
      IsChildPath old → IsChildPath new → Apart old new → after.drive.IsTree →
      old ∉ world.localOnlyFiles → world.resolution settings rootId old = some fileId →
      Executes (steady settings) world (rename rootId old new) (.ok ()) after →
        TreeMoved settings rootId world after old new fileId := by
  intro always
  have isA : ProperName ['a'] := by decide
  have isB : ProperName ['b'] := by decide
  have listed : Performs defaultSettings sampleRoot (fun _ _ _ _ => True) (fun _ _ => False)
      (World.start defaultSettings sampleRoot 0 sampleDrive) sampleListed :=
    .of_calm (isPath_single isA) (by decide)
  have tree : sampleRenamed.drive.IsTree := isTree_single isB (by decide)
  have renamed : Executes (steady defaultSettings) sampleListed
      (rename sampleRoot ['/', 'a'] ['/', 'b']) (.ok ()) sampleRenamed :=
    executes_calm (by decide)
  have moved := always _ _ _ _ _ _ _ _ sampleFile (.single listed) (isChildPath_single isA)
    (isChildPath_single isB) (apart_single isA isB) tree (by decide) rfl renamed
  exact absurd moved.found (by decide)

/-- An empty Drive after `mkdir("/a")`, which does not list the root. -/
def sampleMade : World :=
  (Program.play (serve defaultSettings calm) (World.start defaultSettings sampleRoot 0 ⟨[]⟩)
    ((Operation.mkdir ['/', 'a']).program sampleRoot)).2

/-- And after `rename("/a", "/b")`. -/
def sampleMoved : World :=
  (Program.play (serve defaultSettings calm) sampleMade
    ((Operation.rename ['/', 'a'] ['/', 'b']).program sampleRoot)).2

theorem sampleMade_isTree : sampleMade.drive.IsTree := isTree_single (by decide) (by decide)

theorem mapped_sampleMade (path : Str) :
    sampleMade.mapped path =
      if path = ['/', 'a'] then some calm.newId
      else if path = ['/'] then some sampleRoot
      else none := by
  have start := (World.start defaultSettings sampleRoot 0 ⟨[]⟩).cache.resolve_mapPathToNodeId
    defaultSettings none ['/', 'a'] path calm.newId
  have root := (⟨0, .empty, .empty, ∅⟩ : PathCache).resolve_mapPathToNodeId
    defaultSettings none ['/'] path sampleRoot
  refine start.trans ?_
  split
  · rfl
  · rw [if_neg (by simp)]
    refine root.trans ?_
    split
    · rfl
    · rfl

theorem child_single {fileId dirId : NodeId} {name other : Str} :
    (⟨[⟨sampleRoot, name, fileId⟩]⟩ : DriveTree).child dirId other =
      if dirId = sampleRoot ∧ other = name then some fileId else none :=
  DriveTree.child_create ⟨[]⟩ sampleRoot dirId fileId name other

theorem notSampleRoot {fact : Prop} : ¬ (calm.newId = sampleRoot ∧ fact) :=
  fun same => absurd same.1 (by decide)

theorem resolution_sampleMade {path : Str} (isPath : IsPath path) :
    path = ['/'] ∨
      ∀ dirId, sampleMade.resolution defaultSettings sampleRoot path = some dirId →
        dirId = calm.newId := by
  cases isPath with
  | root => exact .inl rfl
  | @child parent name isPath proper =>
      refine .inr fun dirId found => ?_
      rw [resolution_join sampleMade_isTree isPath proper] at found
      unfold World.below at found
      rw [mapped_sampleMade, if_neg (isPath.join_ne_root proper)] at found
      rcases Option.or_eq_some_iff.mp found with mapped | ⟨-, listed⟩
      · split at mapped
        · cases mapped
          rfl
        · cases mapped
      · obtain ⟨above, -, child⟩ := Option.bind_eq_some_iff.mp listed
        split at child
        · cases child
        · have single := child.symm.trans (@child_single calm.newId above ['a'] name)
          split at single
          · cases single
            rfl
          · cases single

theorem not_loaded_sampleMade (dirId : NodeId) : ¬ sampleMade.Loaded dirId :=
  fun loaded => Bool.false_ne_true loaded

theorem not_listsToMove_sampleMade {directory : Str} {dirId : NodeId} :
    ¬ sampleMade.ListsToMove defaultSettings sampleRoot ['/', 'a'] directory dirId :=
  sampleMade.not_listsFor_of_mapped .root (.inl rfl)

theorem not_flaggedThen_sampleMade {dirId : NodeId} :
    ¬ sampleMade.FlaggedThen defaultSettings sampleRoot ['/', 'a'] dirId := by
  intro flagged
  rcases flagged with loaded | ⟨directory, lists⟩
  · exact not_loaded_sampleMade dirId loaded
  · exact not_listsToMove_sampleMade lists

theorem sampleMade_moveFits :
    MoveFits defaultSettings sampleRoot sampleMade ['/', 'a'] ['/', 'b'] calm.newId sampleRoot
      ⟨[⟨sampleRoot, ['b'], calm.newId⟩]⟩ where
  moved := by decide
  home := rfl
  kept := .inl rfl
  named := by
    have unmapped : sampleMade.mapped ['/', 'b'] = none := by
      rw [mapped_sampleMade, if_neg (by decide), if_neg (by decide)]
    exact .inr (.inr ⟨unmapped, not_flaggedThen_sampleMade, by decide⟩)
  freed dirId found := by
    cases found
    exact .inr (by decide)
  agrees _ _ _ _ _ lists := absurd lists not_listsToMove_sampleMade
  unlisted directory dirId name isPath proper found _ _ elsewhere _ _ := by
    refine ⟨fun flagged => absurd flagged not_flaggedThen_sampleMade, fun _ => ?_⟩
    have noNames : ProperNames [] := fun name member => by cases member
    have notA : join directory name ≠ ['/', 'a'] := fun same => elsewhere.1 ⟨[], noNames, same⟩
    have notB : join directory name ≠ ['/', 'b'] := fun same => elsewhere.2 ⟨[], noNames, same⟩
    show (⟨[⟨sampleRoot, ['b'], calm.newId⟩]⟩ : DriveTree).child dirId name =
      (⟨[⟨sampleRoot, ['a'], calm.newId⟩]⟩ : DriveTree).child dirId name
    rw [child_single, child_single]
    rcases resolution_sampleMade isPath with rfl | onlyFile
    · rw [join_root proper] at notA notB
      rw [if_neg fun same => notB (congrArg _ same.2), if_neg fun same => notA (congrArg _ same.2)]
    · cases onlyFile dirId found
      rw [if_neg notSampleRoot, if_neg notSampleRoot]
  under names dirId name childId walked child := by
    exfalso
    rw [child_single] at child
    split at child
    · rename_i here
      cases names with
      | nil =>
          cases walked
          exact notSampleRoot here
      | cons first names =>
          obtain ⟨second, below, -⟩ := Option.bind_eq_some_iff.mp walked
          rw [child_single, if_neg notSampleRoot] at below
          cases below
    · cases child
  nothingLeft names notEmpty proper := by
    cases names with
    | nil => exact absurd rfl notEmpty
    | cons name names =>
        have isA : IsPath ['/', 'a'] := isPath_single (by decide)
        have nameProper := proper name List.mem_cons_self
        have longer := isA.length_lt_join nameProper
        have noShorter := (isA.child nameProper).length_le_joinAll
          fun other member => proper other (List.mem_cons_of_mem _ member)
        have long : 2 < (joinAll ['/', 'a'] (name :: names)).length :=
          Nat.lt_of_lt_of_le longer noShorter
        rw [mapped_sampleMade, if_neg, if_neg]
        · intro same
          rw [same] at long
          exact absurd long (by decide)
        · intro same
          rw [same] at long
          exact absurd long (by decide)

theorem rename_movesName_made :
    TreeMoved defaultSettings sampleRoot sampleMade sampleMoved ['/', 'a'] ['/', 'b']
      calm.newId := by
  have isA : ProperName ['a'] := by decide
  have isB : ProperName ['b'] := by decide
  have treeAfter : sampleMoved.drive.IsTree := isTree_single isB (by decide)
  have renamed : Executes (steady defaultSettings) sampleMade
      (rename sampleRoot ['/', 'a'] ['/', 'b']) (.ok ()) sampleMoved :=
    executes_calm (by decide)
  have notLocal : ['/', 'a'] ∉ sampleMade.localOnlyFiles := by decide
  rcases rename_movesName (isChildPath_single isA) (isChildPath_single isB)
    (apart_single isA isB) sampleMade_isTree treeAfter (fun isLocal => absurd isLocal notLocal)
    renamed with ⟨_, isLocal, -⟩ | ⟨_, _, isLocal, -⟩ | ⟨fileId, parentId, -, isFile, moved, effect⟩
  · exact absurd isLocal notLocal
  · exact absurd isLocal notLocal
  · cases isFile
    have edges : [(⟨sampleRoot, ['b'], calm.newId⟩ : Edge)] = [⟨parentId, ['b'], calm.newId⟩] :=
      congrArg DriveTree.edges moved
    cases edges
    exact effect.mpr sampleMade_moveFits

end FuseDrive.Fuse
