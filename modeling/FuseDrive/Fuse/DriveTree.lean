import FuseDrive.Fuse.PathCache

/-!
# The tree on Drive

Drive keeps one parent for each file.  A directory can list a name twice; the
child of that name is then the one listed last, as it is for a loop that maps
the names one after the other.
-/

namespace FuseDrive.Fuse

/-- What `list_children` reports of a file. -/
structure Item where
  name : Str
  fileId : NodeId
deriving DecidableEq

structure Edge where
  parent : NodeId
  name : Str
  fileId : NodeId
deriving DecidableEq

/-- The last item of the name. -/
def lastNamed : List Item → Str → Option NodeId
  | [], _ => none
  | item :: items, name =>
      (lastNamed items name).or (if item.name = name then some item.fileId else none)

structure DriveTree where
  edges : List Edge

namespace DriveTree

def listChildren (tree : DriveTree) (dirId : NodeId) : List Item :=
  (tree.edges.filter (·.parent = dirId)).map fun edge => ⟨edge.name, edge.fileId⟩

def child (tree : DriveTree) (dirId : NodeId) (name : Str) : Option NodeId :=
  lastNamed (tree.listChildren dirId) name

def create (tree : DriveTree) (parent : NodeId) (name : Str) (fileId : NodeId) : DriveTree :=
  ⟨tree.edges ++ [⟨parent, name, fileId⟩]⟩

def delete (tree : DriveTree) (fileId : NodeId) : DriveTree :=
  ⟨tree.edges.filter (·.fileId ≠ fileId)⟩

def move (tree : DriveTree) (fileId parent : NodeId) (name : Str) : DriveTree :=
  (tree.delete fileId).create parent name fileId

/-- The directory has these children now. -/
def relist (tree : DriveTree) (dirId : NodeId) (items : List Item) : DriveTree :=
  ⟨tree.edges.filter (·.parent ≠ dirId) ++
    items.map fun item => ⟨dirId, item.name, item.fileId⟩⟩

end DriveTree

theorem lastNamed_append (first second : List Item) (name : Str) :
    lastNamed (first ++ second) name = (lastNamed second name).or (lastNamed first name) := by
  induction first with
  | nil => rw [List.nil_append, lastNamed, Option.or_none]
  | cons item items induction =>
      rw [List.cons_append, lastNamed, induction, lastNamed, Option.or_assoc]

theorem mem_of_lastNamed {items : List Item} {name : Str} {fileId : NodeId}
    (found : lastNamed items name = some fileId) : ⟨name, fileId⟩ ∈ items := by
  induction items with
  | nil => cases found
  | cons item items induction =>
      rw [lastNamed, Option.or_eq_some_iff] at found
      rcases found with later | ⟨-, here⟩
      · exact List.mem_cons_of_mem _ (induction later)
      · split at here
        · rename_i same
          cases here
          cases same
          exact List.mem_cons_self
        · cases here

theorem exists_lastNamed_of_mem {items : List Item} {item : Item} (member : item ∈ items) :
    ∃ fileId, lastNamed items item.name = some fileId := by
  induction items with
  | nil => cases member
  | cons first items induction =>
      rw [lastNamed]
      cases rest : lastNamed items item.name with
      | some fileId => exact ⟨fileId, rfl⟩
      | none =>
          rcases List.mem_cons.mp member with rfl | later
          · exact ⟨item.fileId, by simp⟩
          · obtain ⟨fileId, found⟩ := induction later
            rw [rest] at found
            cases found

theorem lastNamed_filter {items : List Item} {keep : Item → Bool} {name : Str}
    {fileId : NodeId} (found : lastNamed items name = some fileId)
    (kept : keep ⟨name, fileId⟩ = true) :
    lastNamed (items.filter keep) name = some fileId := by
  induction items with
  | nil => cases found
  | cons item items induction =>
      rw [lastNamed, Option.or_eq_some_iff] at found
      rcases found with later | ⟨noLater, here⟩
      · rw [List.filter_cons]
        split
        · rw [lastNamed, induction later, Option.some_or]
        · exact induction later
      · split at here
        · rename_i same
          cases here
          subst same
          rw [List.filter_cons, if_pos kept, lastNamed, if_pos rfl]
          have none : lastNamed (items.filter keep) item.name = none := by
            by_contra found
            obtain ⟨other, found⟩ := Option.ne_none_iff_exists'.mp found
            have member := List.mem_of_mem_filter (mem_of_lastNamed found)
            obtain ⟨last, later⟩ := exists_lastNamed_of_mem member
            rw [noLater] at later
            cases later
          rw [none, Option.none_or]
        · cases here

namespace DriveTree

section Updates

variable (tree : DriveTree)

theorem mem_listChildren {dirId : NodeId} {item : Item} :
    item ∈ tree.listChildren dirId ↔ ⟨dirId, item.name, item.fileId⟩ ∈ tree.edges := by
  unfold listChildren
  simp only [List.mem_map, List.mem_filter, decide_eq_true_eq]
  constructor
  · rintro ⟨edge, ⟨member, rfl⟩, rfl⟩
    exact member
  · intro member
    exact ⟨_, ⟨member, rfl⟩, rfl⟩

theorem mem_edges_of_child {dirId fileId : NodeId} {name : Str}
    (found : tree.child dirId name = some fileId) : ⟨dirId, name, fileId⟩ ∈ tree.edges :=
  tree.mem_listChildren.mp (mem_of_lastNamed found)

theorem child_create (parent dirId fileId : NodeId) (name other : Str) :
    (tree.create parent name fileId).child dirId other =
      if dirId = parent ∧ other = name then some fileId else tree.child dirId other := by
  unfold child listChildren create
  rw [List.filter_append, List.map_append, lastNamed_append]
  by_cases sameParent : dirId = parent
  · subst sameParent
    by_cases sameName : other = name
    · subst sameName
      simp [lastNamed]
    · simp [lastNamed, sameName, Ne.symm sameName]
  · have different : ¬ parent = dirId := fun same => sameParent same.symm
    simp [lastNamed, sameParent, different]

theorem listChildren_delete (fileId dirId : NodeId) :
    (tree.delete fileId).listChildren dirId =
      (tree.listChildren dirId).filter (·.fileId ≠ fileId) := by
  unfold listChildren delete
  rw [List.filter_map, List.filter_filter, List.filter_filter]
  congr 1
  refine List.filter_congr fun edge _ => ?_
  rw [Bool.and_comm]
  rfl

theorem child_delete_of_ne {fileId dirId other : NodeId} {name : Str}
    (found : tree.child dirId name = some other) (different : other ≠ fileId) :
    (tree.delete fileId).child dirId name = some other := by
  unfold child
  rw [listChildren_delete]
  exact lastNamed_filter found (by simpa using different)

theorem exists_child_of_delete {fileId dirId other : NodeId} {name : Str}
    (found : (tree.delete fileId).child dirId name = some other) :
    ∃ before, tree.child dirId name = some before := by
  have member := List.mem_of_mem_filter (mem_edges_of_child _ found)
  have listed : (⟨name, other⟩ : Item) ∈ tree.listChildren dirId :=
    tree.mem_listChildren.mpr member
  exact exists_lastNamed_of_mem listed

theorem child_relist (dirId other : NodeId) (items : List Item) (name : Str) :
    (tree.relist dirId items).child other name =
      if other = dirId then lastNamed items name else tree.child other name := by
  unfold child listChildren relist
  rw [List.filter_append, List.map_append, lastNamed_append, List.filter_filter,
    List.filter_map]
  by_cases same : other = dirId
  · subst same
    have noOld : (tree.edges.filter fun edge =>
        decide (edge.parent = other) && decide (edge.parent ≠ other)) = [] := by
      simp
    rw [noOld, if_pos rfl]
    simp [lastNamed, Function.comp_def]
  · have different : ¬ dirId = other := fun equal => same equal.symm
    have noNew : (items.filter ((fun edge => decide (edge.parent = other)) ∘
        fun item => (⟨dirId, item.name, item.fileId⟩ : Edge))) = [] := by
      simp [different]
    have allOld : (tree.edges.filter fun edge =>
        decide (edge.parent = other) && decide (edge.parent ≠ dirId)) =
          tree.edges.filter (·.parent = other) := by
      refine List.filter_congr fun edge _ => ?_
      by_cases here : edge.parent = other
      · simp [here, same]
      · simp [here]
    rw [noNew, allOld, if_neg same]
    rfl

end Updates

end DriveTree

end FuseDrive.Fuse
