import FuseDrive.Fuse.Renaming

/-!
# Resolution as a walk of the tree

Over a tree that nobody changes, with a cache that keeps what it is given, the
resolution of a path follows its names from the root whatever was looked up
before, and no directory is listed twice.  The listings come in pages: the
storage client asks for one after the other and follows the token of each to the
next.
-/

namespace FuseDrive.Fuse

open Program (Executes perform play)

/-! ## Pages -/

/-- A page token; Python takes an empty one for none. -/
abbrev PageToken := { text : Str // text ≠ [] }

/-- An answer of `files().list`. -/
structure Page where
  files : List Item
  nextPageToken : Option PageToken

/-- The answers of the storage for a directory and a page token. -/
abbrev Server := NodeId → Option PageToken → Page

/-- The loop of `list_children`, for so many rounds. -/
def listPages (respond : Option PageToken → Page) : Nat → Option PageToken → List Item →
    Option (List Item)
  | 0, _, _ => none
  | rounds + 1, pageToken, allFiles =>
      let response := respond pageToken
      match response.nextPageToken with
      | none => some (allFiles ++ response.files)
      | some next => listPages respond rounds (some next) (allFiles ++ response.files)

/-- `list_children` returns these files. -/
def Server.Returns (server : Server) (parentId : NodeId) (items : List Item) : Prop :=
  ∃ rounds, listPages (server parentId) rounds none [] = some items

/-- The pages from a token on. -/
inductive Paged (respond : Option PageToken → Page) :
    Option PageToken → List (List Item) → Prop where
  | last {token} : (respond token).nextPageToken = none →
      Paged respond token [(respond token).files]
  | more {token next pages} : (respond token).nextPageToken = some next →
      Paged respond (some next) pages →
      Paged respond token ((respond token).files :: pages)

/-- The storage lists the tree, in pages of any number and any size. -/
def Server.Splits (server : Server) (tree : DriveTree) : Prop :=
  ∀ dirId, ∃ pages, Paged (server dirId) none pages ∧ pages.flatten = tree.listChildren dirId

theorem Paged.listPages_eq {respond : Option PageToken → Page} {token : Option PageToken}
    {pages : List (List Item)} (paged : Paged respond token pages) (allFiles : List Item) :
    listPages respond pages.length token allFiles = some (allFiles ++ pages.flatten) := by
  induction paged generalizing allFiles with
  | last noMore => simp [listPages, noMore]
  | more next rest induction =>
      rw [List.length_cons, listPages, List.flatten_cons, ← List.append_assoc]
      simp only [next]
      exact induction _

theorem listPages_mono {respond : Option PageToken → Page} {rounds more : Nat}
    (longer : rounds ≤ more) {token : Option PageToken} {allFiles items : List Item}
    (listed : listPages respond rounds token allFiles = some items) :
    listPages respond more token allFiles = some items := by
  induction rounds generalizing more token allFiles with
  | zero => cases listed
  | succ rounds induction =>
      obtain ⟨more, rfl⟩ := Nat.exists_eq_add_one.mpr (Nat.lt_of_lt_of_le rounds.succ_pos longer)
      unfold listPages at listed ⊢
      simp only at listed ⊢
      split
      · rename_i noMore
        simpa only [noMore] using listed
      · rename_i next token
        simp only [token] at listed
        exact induction (Nat.le_of_succ_le_succ longer) listed

/-- The loop ends, and with the listing of the tree. -/
theorem Server.Splits.returns_iff {server : Server} {tree : DriveTree}
    (splits : server.Splits tree) (dirId : NodeId) (items : List Item) :
    server.Returns dirId items ↔ items = tree.listChildren dirId := by
  obtain ⟨pages, paged, whole⟩ := splits dirId
  have all := paged.listPages_eq []
  rw [List.nil_append, whole] at all
  constructor
  · rintro ⟨rounds, listed⟩
    have first := listPages_mono (Nat.le_max_left rounds pages.length) listed
    have second := listPages_mono (Nat.le_max_right rounds pages.length) all
    rw [first, Option.some.injEq] at second
    exact second
  · rintro rfl
    exact ⟨pages.length, all⟩

/-! ## Trees and walks -/

/-- A tree below the root: distinct ids, and in each directory distinct names
that are file names. -/
structure DriveTree.RootedTree (tree : DriveTree) (rootId : NodeId) : Prop extends tree.IsTree where
  ids : (tree.edges.map Edge.fileId).Nodup
  root : ∀ edge ∈ tree.edges, edge.fileId ≠ rootId
  names : ∀ edge ∈ tree.edges, ∀ other ∈ tree.edges,
    edge.parent = other.parent → edge.name = other.name → edge = other

/-- Following names from a directory, one edge each. -/
inductive Follows (tree : DriveTree) : NodeId → List Str → NodeId → Prop where
  | here {dirId} : Follows tree dirId [] dirId
  | step {dirId name childId names fileId} : ⟨dirId, name, childId⟩ ∈ tree.edges →
      Follows tree childId names fileId → Follows tree dirId (name :: names) fileId

namespace DriveTree.RootedTree

variable {tree : DriveTree} {rootId : NodeId}

theorem child_iff (rooted : tree.RootedTree rootId) {dirId fileId : NodeId} {name : Str} :
    tree.child dirId name = some fileId ↔ ⟨dirId, name, fileId⟩ ∈ tree.edges := by
  constructor
  · exact tree.mem_edges_of_child
  · intro edge
    have listed : (⟨name, fileId⟩ : Item) ∈ tree.listChildren dirId :=
      tree.mem_listChildren.mpr edge
    obtain ⟨last, found⟩ := exists_lastNamed_of_mem listed
    have same := rooted.names _ edge _ (tree.mem_edges_of_child found) rfl rfl
    cases same
    exact found

theorem walk_iff (rooted : tree.RootedTree rootId) {dirId fileId : NodeId} {names : List Str} :
    tree.walk dirId names = some fileId ↔ Follows tree dirId names fileId := by
  constructor
  · intro walked
    induction names generalizing dirId with
    | nil =>
        cases walked
        exact .here
    | cons name names induction =>
        obtain ⟨childId, child, rest⟩ := Option.bind_eq_some_iff.mp walked
        exact .step (rooted.child_iff.mp child) (induction rest)
  · intro follows
    induction follows with
    | here => rfl
    | step edge _ induction =>
        exact Option.bind_eq_some_iff.mpr ⟨_, rooted.child_iff.mpr edge, induction⟩

/-- A node is somebody's child once. -/
theorem edge_unique (rooted : tree.RootedTree rootId) {edge other : Edge}
    (member : edge ∈ tree.edges) (otherMember : other ∈ tree.edges)
    (same : edge.fileId = other.fileId) : edge = other :=
  List.inj_on_of_nodup_map rooted.ids member otherMember same

/-- A node is at one place. -/
theorem walk_injective (rooted : tree.RootedTree rootId) {names others : List Str}
    {fileId : NodeId} (here : tree.walk rootId names = some fileId)
    (there : tree.walk rootId others = some fileId) : names = others := by
  induction names using List.reverseRecOn generalizing others fileId with
  | nil =>
      cases here
      cases others using List.reverseRecOn with
      | nil => rfl
      | append_singleton others other =>
          rw [tree.walk_concat, Option.bind_eq_some_iff] at there
          obtain ⟨dirId, -, child⟩ := there
          exact absurd rfl (rooted.root _ (rooted.child_iff.mp child))
  | append_singleton names name induction =>
      rw [tree.walk_concat, Option.bind_eq_some_iff] at here
      obtain ⟨dirId, walked, child⟩ := here
      cases others using List.reverseRecOn with
      | nil =>
          cases there
          exact absurd rfl (rooted.root _ (rooted.child_iff.mp child))
      | append_singleton others other =>
          rw [tree.walk_concat, Option.bind_eq_some_iff] at there
          obtain ⟨otherDir, otherWalked, otherChild⟩ := there
          have same := rooted.edge_unique (rooted.child_iff.mp child)
            (rooted.child_iff.mp otherChild) rfl
          cases same
          rw [induction walked otherWalked]

end DriveTree.RootedTree

/-! ## Looking around -/

/-- The path is one of `StatsVFS`. -/
def isStatsPath (path : Str) : Bool :=
  ['/', 's', 't', 'a', 't', 's'].isPrefixOf path

/-- `getattr`, up to the attributes. -/
def getattr (rootId : NodeId) (path : Str) : Op Unit :=
  if isStatsPath path then pure ()
  else do
    let isLocal ← perform (Request.isLocalOnly path)
    if isLocal then pure ()
    else
      match ← resolvePath rootId path with
      | none => Program.raise .enoent
      | some _ => pure ()

inductive Look where
  | resolve (path : Str)
  | getattr (path : Str)
  | readdir (path : Str)

def Look.path : Look → Str
  | .resolve path | .getattr path | .readdir path => path

def Look.program (rootId : NodeId) : Look → Op Unit
  | .resolve path => do
      let _ ← resolvePath rootId path
      pure ()
  | .getattr path => Fuse.getattr rootId path
  | .readdir path =>
      if isStatsPath path then pure ()
      else do
        let _ ← Fuse.readdir rootId path
        pure ()

/-- The mount and the directories the storage client was asked to list, newest
first. -/
structure Visited where
  world : World
  listed : List NodeId

/-- Everything is answered as in a mount without failures and evictions, but
listings are fetched page by page. -/
inductive PagedServes (settings : CacheSettings) (server : Server) (visited : Visited) :
    (request : Request) → request.Answer → Visited → Prop where
  | listing {parentId parentPath items} : server.Returns parentId items →
      PagedServes settings server visited (.listChildren parentId parentPath) (some items)
        ⟨{ visited.world with
            known := visited.world.known.relist parentId items
            loading := some ⟨parentId, parentPath, []⟩ }, parentId :: visited.listed⟩
  | other {request} : (∀ parentId parentPath, request ≠ .listChildren parentId parentPath) →
      PagedServes settings server visited request
        (serve settings calm visited.world request).1
        ⟨(serve settings calm visited.world request).2, visited.listed⟩

def paged (settings : CacheSettings) (server : Server) :
    Program.Environment Visited Request Request.Answer where
  serves := PagedServes settings server
  drifts _ _ := False

/-- A step of a mount that is only looked at: a call, or a wait in which nothing
expires. -/
inductive Looks (settings : CacheSettings) (server : Server) (rootId : NodeId)
    (visited later : Visited) : Prop where
  | call {look : Look} {result} : IsPath look.path →
      Executes (paged settings server) visited (look.program rootId) result later →
      Looks settings server rootId visited later
  | wait {duration} : later = { visited with world := visited.world.tick duration } →
      (∀ path, later.world.mapped path = visited.world.mapped path) →
      (∀ dirId, later.world.Loaded dirId ↔ visited.world.Loaded dirId) →
      Looks settings server rootId visited later

/-! ## A function in place of the pages -/

/-- The answer of a mount whose storage lists the tree. -/
def serveLogged (settings : CacheSettings) (visited : Visited) (request : Request) :
    request.Answer × Visited :=
  ((serve settings calm visited.world request).1,
    ⟨(serve settings calm visited.world request).2,
      match request with
      | .listChildren parentId _ => parentId :: visited.listed
      | _ => visited.listed⟩)

section Runs

variable {settings : CacheSettings} {server : Server} {rootId : NodeId}

theorem pagedServes_iff {visited later : Visited} (splits : server.Splits visited.world.drive)
    {request : Request} {answer : request.Answer} :
    PagedServes settings server visited request answer later ↔
      serveLogged settings visited request = (answer, later) := by
  constructor
  · intro served
    cases served with
    | listing returned =>
        rw [splits.returns_iff] at returned
        subst returned
        rfl
    | other different =>
        cases request with
        | listChildren parentId parentPath => exact absurd rfl (different _ _)
        | _ => rfl
  · intro same
    cases request with
    | listChildren parentId parentPath =>
        cases same
        exact .listing ((splits.returns_iff _ _).mpr rfl)
    | _ =>
        cases same
        exact .other nofun

theorem play_logged {α : Type} (visited : Visited) (program : Op α) :
    (play (serveLogged settings) visited program).1 =
        (runCalm settings visited.world program).1 ∧
      (play (serveLogged settings) visited program).2.world =
        (runCalm settings visited.world program).2 := by
  induction program generalizing visited with
  | done result => exact ⟨rfl, rfl⟩
  | ask request next induction => exact induction _ _

theorem serveLogged_drive {request : Request} (looks : request.Looks) (visited : Visited) :
    (serveLogged settings visited request).2.world.drive = visited.world.drive := by
  cases request with
  | addLocalOnly | dropLocalOnly | createFolder | updateFile | deleteFile => exact looks.elim
  | _ => rfl

/-- Over a tree that the storage splits into pages, executions are runs. -/
theorem executes_paged_iff {α : Type} {visited later : Visited} {program : Op α}
    {result : Except Errno α} (splits : server.Splits visited.world.drive)
    (looks : Program.OnlyAsks Request.Looks program) :
    Executes (paged settings server) visited program result later ↔
      play (serveLogged settings) visited program = (result, later) := by
  constructor
  · intro execution
    induction execution with
    | done => rfl
    | drift drifted => exact drifted.elim
    | ask served following induction =>
        rename_i before middle finish request answer next result
        cases looks with
        | ask fine rest =>
            have answered := (pagedServes_iff splits).mp served
            unfold play
            rw [answered]
            refine induction ?_ (rest _)
            have drive := @serveLogged_drive settings request fine before
            rw [answered] at drive
            rwa [drive]
  · intro ran
    induction looks generalizing visited with
    | done =>
        cases ran
        exact .done
    | @ask request next fine _ induction =>
        have drive := @serveLogged_drive settings request fine visited
        exact .ask ((pagedServes_iff splits).mpr rfl) (induction _ (drive.symm ▸ splits) ran)

end Runs

/-! ## The cache agrees with the tree -/

/-- The path of a chain of names from the root. -/
def pathOf (names : List Str) : Str := joinAll ['/'] names

theorem isPath_pathOf {names : List Str} (proper : ProperNames names) : IsPath (pathOf names) :=
  IsPath.root.joinAll proper

theorem pathOf_concat (names : List Str) (name : Str) :
    pathOf (names ++ [name]) = join (pathOf names) name :=
  joinAll_concat ['/'] names name

/-- The absolute normalized paths are those of chains of names. -/
theorem isPath_iff {path : Str} :
    IsPath path ↔ ∃ names, ProperNames names ∧ path = pathOf names := by
  constructor
  · intro isPath
    induction isPath with
    | root => exact ⟨[], nofun, rfl⟩
    | child _ proper induction =>
        obtain ⟨names, namesProper, rfl⟩ := induction
        exact ⟨names ++ [_], ProperNames.concat_iff.mpr ⟨namesProper, proper⟩,
          (pathOf_concat names _).symm⟩
  · rintro ⟨names, proper, rfl⟩
    exact isPath_pathOf proper

/-- Whatever is mapped is where the walk leads, and a directory that is marked
as loaded, or was listed, has its children mapped at its place. -/
structure Coherent (tree : DriveTree) (rootId : NodeId) (visited : Visited) : Prop where
  drive : visited.world.drive = tree
  mapped : ∀ names fileId, ProperNames names →
    visited.world.mapped (pathOf names) = some fileId → tree.walk rootId names = some fileId
  loaded : ∀ dirId, visited.world.Loaded dirId → ∃ names, ProperNames names ∧
    tree.walk rootId names = some dirId ∧ ∀ name fileId, tree.child dirId name = some fileId →
      visited.world.mapped (pathOf (names ++ [name])) = some fileId
  listed : ∀ dirId ∈ visited.listed, visited.world.Loaded dirId
  once : visited.listed.Nodup

section Coherent

variable {tree : DriveTree} {settings : CacheSettings} {rootId : NodeId} {visited : Visited}

/-- A history of the mount plays no part. -/
theorem Coherent.congr {later : Visited} (coherent : Coherent tree rootId visited)
    (cache : later.world.cache = visited.world.cache)
    (drive : later.world.drive = visited.world.drive) (listed : later.listed = visited.listed) :
    Coherent tree rootId later := by
  obtain ⟨⟨laterCache, laterDrive, localOnly, known, loading, placed⟩, laterListed⟩ := later
  cases cache
  cases drive
  cases listed
  exact ⟨coherent.drive, coherent.mapped, coherent.loaded, coherent.listed, coherent.once⟩

/-- What a directory whose children are mapped does not have is not there. -/
theorem Coherent.below_eq (coherent : Coherent tree rootId visited)
    (rooted : tree.RootedTree rootId) {names : List Str} {name : Str}
    (proper : ProperNames (names ++ [name])) :
    visited.world.below (tree.walk rootId names) (pathOf names) name =
      tree.walk rootId (names ++ [name]) := by
  unfold World.below
  rw [← pathOf_concat]
  cases mapped : visited.world.mapped (pathOf (names ++ [name])) with
  | some fileId =>
      rw [Option.some_or, coherent.mapped _ _ proper mapped]
  | none =>
      rw [Option.none_or, tree.walk_concat]
      cases walked : tree.walk rootId names with
      | none => rfl
      | some dirId =>
          rw [Option.bind_some, Option.bind_some]
          split
          · rename_i loaded
            obtain ⟨place, -, there, children⟩ := coherent.loaded dirId loaded
            obtain rfl := rooted.walk_injective walked there
            symm
            apply Option.eq_none_iff_forall_ne_some.mpr
            intro fileId child
            rw [children name fileId child] at mapped
            cases mapped
          · rw [coherent.drive]

theorem Coherent.resolution (coherent : Coherent tree rootId visited)
    (rooted : tree.RootedTree rootId) {names : List Str} (proper : ProperNames names) :
    visited.world.resolution settings rootId (pathOf names) = tree.walk rootId names := by
  induction names using List.reverseRecOn with
  | nil => rfl
  | append_singleton names name induction =>
      obtain ⟨namesProper, nameProper⟩ := ProperNames.concat_iff.mp proper
      rw [pathOf_concat, resolution_join (coherent.drive ▸ rooted.toIsTree)
        (isPath_pathOf namesProper) nameProper, induction namesProper,
        coherent.below_eq rooted proper]

/-- The resolution ends, with where the walk leads. -/
theorem Coherent.play_resolvePath_fst (coherent : Coherent tree rootId visited)
    (rooted : tree.RootedTree rootId) {names : List Str} (proper : ProperNames names) :
    (play (serveLogged settings) visited (resolvePath rootId (pathOf names))).1 =
      .ok (tree.walk rootId names) := by
  have isTree : visited.world.drive.IsTree := coherent.drive ▸ rooted.toIsTree
  obtain ⟨rank, ranked⟩ := isTree.ranked
  obtain ⟨later, ran, -⟩ := @runCalm_resolvePath settings rootId visited.world rank _
    (isPath_pathOf proper) isTree.named ranked
  rw [(play_logged visited _).1, ran, coherent.resolution rooted proper]

/-! ## Listings -/

theorem listed_mapChildren (visited : Visited) (path : Str) (items : List Item) :
    (play (serveLogged settings) visited (mapChildren path items)).2.listed = visited.listed := by
  induction items generalizing visited with
  | nil => rfl
  | cons item items induction => exact induction _

theorem listed_loadChildren {dirId : NodeId} (notLoaded : ¬ visited.world.Loaded dirId)
    (path : Str) :
    (play (serveLogged settings) visited (loadChildren dirId path)).2.listed =
      dirId :: visited.listed := by
  have flag : visited.world.cache.isDirectoryChildrenLoaded dirId = false :=
    Bool.eq_false_iff.mpr notLoaded
  unfold loadChildren
  rw [Program.play_perform]
  show (play (serveLogged settings) _
    (if visited.world.cache.isDirectoryChildrenLoaded dirId then _ else _ : Op Unit)).2.listed = _
  rw [flag, if_neg Bool.false_ne_true, Program.play_perform]
  show (play (serveLogged settings) (serveLogged settings visited (.listChildren dirId path)).2
    (mapChildren path (visited.world.drive.listChildren dirId) >>= fun _ =>
      perform (Request.markDirectoryChildrenLoaded dirId))).2.listed = _
  rw [Program.play_bind]
  have mapped := @listed_mapChildren settings
    (serveLogged settings visited (.listChildren dirId path)).2 path
    (visited.world.drive.listChildren dirId)
  split
  · rename_i ran
    rw [ran] at mapped
    exact mapped
  · rename_i ran
    rw [ran] at mapped
    exact mapped

/-- A path is the path of one chain of names. -/
theorem pathOf_injective {names others : List Str} (proper : ProperNames names)
    (othersProper : ProperNames others) (same : pathOf names = pathOf others) :
    names = others := by
  induction names using List.reverseRecOn generalizing others with
  | nil =>
      cases others using List.reverseRecOn with
      | nil => rfl
      | append_singleton others other =>
          obtain ⟨frontProper, lastProper⟩ := ProperNames.concat_iff.mp othersProper
          rw [pathOf_concat] at same
          exact absurd same.symm ((isPath_pathOf frontProper).join_ne_root lastProper)
  | append_singleton names name induction =>
      obtain ⟨namesProper, nameProper⟩ := ProperNames.concat_iff.mp proper
      cases others using List.reverseRecOn with
      | nil =>
          rw [pathOf_concat] at same
          exact absurd same ((isPath_pathOf namesProper).join_ne_root nameProper)
      | append_singleton others other =>
          obtain ⟨frontProper, lastProper⟩ := ProperNames.concat_iff.mp othersProper
          rw [pathOf_concat, pathOf_concat] at same
          obtain ⟨sameFront, rfl⟩ := join_inj (isPath_pathOf namesProper) nameProper
            (isPath_pathOf frontProper) lastProper same
          rw [induction namesProper frontProper sameFront]

theorem mapped_of_lists {later : World} {names : List Str} (proper : ProperNames names)
    {dirId : NodeId} (lists : visited.world.Lists (pathOf names) dirId
      (visited.world.drive.listChildren dirId) later)
    {others : List Str} {name : Str} (othersProper : ProperNames (others ++ [name])) :
    later.mapped (pathOf (others ++ [name])) =
      if others = names then
        (visited.world.drive.child dirId name).or
          (visited.world.mapped (pathOf (others ++ [name])))
      else visited.world.mapped (pathOf (others ++ [name])) := by
  obtain ⟨frontProper, lastProper⟩ := ProperNames.concat_iff.mp othersProper
  rw [pathOf_concat]
  split
  · rename_i same
    rw [same, lists.below lastProper]
    rfl
  · rename_i different
    apply lists.elsewhere
    intro child childProper same
    have sameFront := (join_inj (isPath_pathOf frontProper) lastProper (isPath_pathOf proper)
      childProper same).1
    exact different (pathOf_injective frontProper proper sameFront)

theorem mapped_root_of_lists {later : World} {names : List Str} (proper : ProperNames names)
    {dirId : NodeId} {items : List Item}
    (lists : visited.world.Lists (pathOf names) dirId items later) :
    later.mapped (pathOf []) = visited.world.mapped (pathOf []) :=
  lists.elsewhere fun _ childProper same =>
    (isPath_pathOf proper).join_ne_root childProper same.symm

theorem Coherent.of_lists {later : Visited} (coherent : Coherent tree rootId visited)
    (rooted : tree.RootedTree rootId) {names : List Str} (proper : ProperNames names)
    {dirId : NodeId} (walked : tree.walk rootId names = some dirId)
    (notLoaded : ¬ visited.world.Loaded dirId)
    (lists : visited.world.Lists (pathOf names) dirId
      (visited.world.drive.listChildren dirId) later.world)
    (log : later.listed = dirId :: visited.listed) : Coherent tree rootId later := by
  refine ⟨lists.drive.trans coherent.drive, ?_, ?_, ?_, ?_⟩
  · intro others fileId othersProper found
    cases others using List.reverseRecOn with
    | nil =>
        rw [mapped_root_of_lists proper lists] at found
        exact coherent.mapped _ _ othersProper found
    | append_singleton others name =>
        rw [mapped_of_lists proper lists othersProper] at found
        split at found
        · rename_i same
          subst same
          rcases Option.or_eq_some_iff.mp found with child | ⟨-, before⟩
          · rw [tree.walk_concat, walked, Option.bind_some, ← coherent.drive, child]
          · exact coherent.mapped _ _ othersProper before
        · exact coherent.mapped _ _ othersProper found
  · intro other loaded
    rcases lists.loaded.mp loaded with before | rfl
    · obtain ⟨place, placeProper, there, children⟩ := coherent.loaded other before
      refine ⟨place, placeProper, there, fun name fileId child => ?_⟩
      have nameProper := rooted.named _ (rooted.child_iff.mp child)
      have elsewhere : place ≠ names := by
        rintro rfl
        rw [there, Option.some.injEq] at walked
        exact notLoaded (walked ▸ before)
      rw [mapped_of_lists proper lists (ProperNames.concat_iff.mpr ⟨placeProper, nameProper⟩),
        if_neg elsewhere]
      exact children name fileId child
    · refine ⟨names, proper, walked, fun name fileId child => ?_⟩
      have nameProper := rooted.named _ (rooted.child_iff.mp child)
      rw [mapped_of_lists proper lists (ProperNames.concat_iff.mpr ⟨proper, nameProper⟩),
        if_pos rfl, coherent.drive, child, Option.some_or]
  · intro other member
    rw [log, List.mem_cons] at member
    rcases member with rfl | before
    · exact lists.loaded.mpr (.inr rfl)
    · exact lists.loaded.mpr (.inl (coherent.listed other before))
  · rw [log, List.nodup_cons]
    exact ⟨fun member => notLoaded (coherent.listed dirId member), coherent.once⟩

/-- Loading a directory at its place keeps the cache in agreement with the
tree. -/
theorem Coherent.loadChildren (coherent : Coherent tree rootId visited)
    (rooted : tree.RootedTree rootId) {names : List Str} (proper : ProperNames names)
    {dirId : NodeId} (walked : tree.walk rootId names = some dirId) :
    ∃ later, play (serveLogged settings) visited (Fuse.loadChildren dirId (pathOf names)) =
        (.ok (), later) ∧ Coherent tree rootId later := by
  by_cases loaded : visited.world.Loaded dirId
  · have flag : visited.world.cache.isDirectoryChildrenLoaded dirId = true := loaded
    refine ⟨visited, ?_, coherent⟩
    unfold Fuse.loadChildren
    rw [Program.play_perform]
    show play _ _ (if visited.world.cache.isDirectoryChildrenLoaded dirId then _ else _) = _
    rw [flag, if_pos rfl]
    rfl
  · have isPath := isPath_pathOf proper
    have named : ∀ edge ∈ visited.world.drive.edges, ProperName edge.name :=
      coherent.drive ▸ rooted.named
    obtain ⟨world, ran, lists⟩ := @runCalm_loadChildren settings visited.world _ isPath dirId
      loaded named
    obtain ⟨result, state⟩ := @play_logged settings _ visited
      (Fuse.loadChildren dirId (pathOf names))
    have log := @listed_loadChildren settings visited dirId loaded (pathOf names)
    rw [ran] at result state
    exact ⟨_, Prod.ext result rfl, coherent.of_lists rooted proper walked loaded
      (state.symm ▸ lists) log⟩

theorem Coherent.findBelow (coherent : Coherent tree rootId visited)
    (rooted : tree.RootedTree rootId) {names : List Str} {name : Str}
    (proper : ProperNames (names ++ [name])) {dirId : NodeId}
    (walked : tree.walk rootId names = some dirId) :
    Coherent tree rootId
      (play (serveLogged settings) visited
        (Fuse.findBelow dirId (join (pathOf names) name))).2 := by
  obtain ⟨namesProper, nameProper⟩ := ProperNames.concat_iff.mp proper
  unfold Fuse.findBelow
  rw [Program.play_perform, (isPath_pathOf namesProper).dirname_join nameProper]
  show Coherent tree rootId (play (serveLogged settings) visited
    (if visited.world.cache.isDirectoryChildrenLoaded dirId then _ else _ :
      Op (Option NodeId))).2
  split
  · exact coherent
  · obtain ⟨later, ran, still⟩ := coherent.loadChildren rooted namesProper walked
    rw [Program.play_bind, ran]
    exact still.congr rfl rfl rfl

/-- A resolution keeps the cache in agreement with the tree. -/
theorem Coherent.resolvePath (coherent : Coherent tree rootId visited)
    (rooted : tree.RootedTree rootId) {names : List Str} (proper : ProperNames names) :
    ∃ later, play (serveLogged settings) visited (Fuse.resolvePath rootId (pathOf names)) =
        (.ok (tree.walk rootId names), later) ∧ Coherent tree rootId later := by
  refine ⟨_, Prod.ext (coherent.play_resolvePath_fst rooted proper) rfl, ?_⟩
  induction names using List.reverseRecOn generalizing visited with
  | nil => exact coherent
  | append_singleton names name induction =>
      obtain ⟨namesProper, nameProper⟩ := ProperNames.concat_iff.mp proper
      rw [pathOf_concat, resolvePath_join rootId (isPath_pathOf namesProper) nameProper,
        Program.play_perform]
      let asked := (serveLogged settings visited
        (.resolvePathToNodeId (join (pathOf names) name))).2
      have askedCoherent : Coherent tree rootId asked := coherent.congr rfl rfl rfl
      split
      · exact askedCoherent
      · have found := @Coherent.play_resolvePath_fst tree settings rootId asked askedCoherent
          rooted names namesProper
        have above := induction askedCoherent namesProper
        rw [Program.play_bind]
        split
        · rename_i value middle ran
          rw [ran] at found above
          cases found
          cases walked : tree.walk rootId names with
          | none => exact above
          | some dirId => exact above.findBelow rooted proper walked
        · rename_i error middle ran
          rw [ran] at above
          exact above

theorem Coherent.getattr (coherent : Coherent tree rootId visited)
    (rooted : tree.RootedTree rootId) {names : List Str} (proper : ProperNames names) :
    Coherent tree rootId
      (play (serveLogged settings) visited (Fuse.getattr rootId (pathOf names))).2 := by
  unfold Fuse.getattr
  split
  · exact coherent
  · rw [Program.play_perform]
    let asked := (serveLogged settings visited (.isLocalOnly (pathOf names))).2
    have askedCoherent : Coherent tree rootId asked := coherent.congr rfl rfl rfl
    split
    · exact askedCoherent
    · obtain ⟨later, ran, still⟩ := @Coherent.resolvePath tree settings rootId _ askedCoherent rooted _ proper
      rw [Program.play_bind, ran]
      cases tree.walk rootId names with
      | none => exact still
      | some fileId => exact still

theorem Coherent.readdir (coherent : Coherent tree rootId visited)
    (rooted : tree.RootedTree rootId) {names : List Str} (proper : ProperNames names) :
    Coherent tree rootId
      (play (serveLogged settings) visited (Fuse.readdir rootId (pathOf names))).2 := by
  obtain ⟨resolved, ran, resolvedCoherent⟩ :=
    @Coherent.resolvePath tree settings rootId _ coherent rooted _ proper
  unfold Fuse.readdir
  rw [Program.play_bind, ran]
  cases walked : tree.walk rootId names with
  | none => exact resolvedCoherent
  | some dirId =>
      obtain ⟨loaded, ranLoad, still⟩ :=
        @Coherent.loadChildren tree settings rootId _ resolvedCoherent rooted _ proper _ walked
      show Coherent tree rootId (play _ _ (Fuse.loadChildren dirId _ >>= _)).2
      rw [Program.play_bind, ranLoad]
      have shown : Coherent tree rootId
          (serveLogged settings loaded (.getChildrenPaths (pathOf names))).2 :=
        still.congr rfl rfl rfl
      show Coherent tree rootId (play _ _ (if _ then _ else _ : Op (List Str))).2
      split <;> exact shown

theorem Coherent.look (coherent : Coherent tree rootId visited)
    (rooted : tree.RootedTree rootId) {look : Look} (isPath : IsPath look.path) :
    Coherent tree rootId (play (serveLogged settings) visited (look.program rootId)).2 := by
  obtain ⟨names, proper, same⟩ := isPath_iff.mp isPath
  cases look with
  | resolve path =>
      obtain rfl : path = pathOf names := same
      obtain ⟨later, ran, still⟩ := @Coherent.resolvePath tree settings rootId _ coherent rooted _ proper
      show Coherent tree rootId (play _ _ (Fuse.resolvePath rootId _ >>= _)).2
      rw [Program.play_bind, ran]
      exact still
  | getattr path =>
      obtain rfl : path = pathOf names := same
      exact coherent.getattr rooted proper
  | readdir path =>
      obtain rfl : path = pathOf names := same
      show Coherent tree rootId (play _ _ (if isStatsPath _ then _ else _ : Op Unit)).2
      split
      · exact coherent
      · have still := @Coherent.readdir tree settings rootId _ coherent rooted _ proper
        show Coherent tree rootId (play _ _ (Fuse.readdir rootId _ >>= _)).2
        rw [Program.play_bind]
        generalize play (serveLogged settings) visited (Fuse.readdir rootId (pathOf names)) = ended
          at still
        obtain ⟨result, later⟩ := ended
        cases result <;> exact still

theorem Look.onlyAsks (look : Look) :
    Program.OnlyAsks Request.Looks (look.program rootId) := by
  cases look with
  | resolve path => exact (resolvePath_onlyAsks _).bind fun _ => .done
  | getattr path =>
      show Program.OnlyAsks _ (Fuse.getattr rootId path)
      unfold Fuse.getattr
      split
      · exact .done
      · refine .ask trivial fun isLocal => ?_
        cases isLocal with
        | true => exact .done
        | false =>
            refine (resolvePath_onlyAsks _).bind fun found => ?_
            cases found <;> exact .done
  | readdir path =>
      show Program.OnlyAsks _ (if isStatsPath path then _ else _ : Op Unit)
      split
      · exact .done
      · refine Program.OnlyAsks.bind ((resolvePath_onlyAsks _).bind fun found => ?_)
          fun _ => .done
        cases found with
        | none => exact .done
        | some fileId =>
            refine (loadChildren_onlyAsks _ _).bind fun _ => .ask trivial fun children => ?_
            show Program.OnlyAsks _ (if _ then _ else _ : Op (List Str))
            split <;> exact .done

theorem Coherent.looks {server : Server} {later : Visited}
    (coherent : Coherent tree rootId visited) (rooted : tree.RootedTree rootId)
    (splits : server.Splits tree) (looks : Looks settings server rootId visited later) :
    Coherent tree rootId later := by
  cases looks with
  | call isPath execution =>
      have ran := (executes_paged_iff (coherent.drive.symm ▸ splits) (Look.onlyAsks _)).mp
        execution
      have still := @Coherent.look tree settings rootId _ coherent rooted _ isPath
      rwa [ran] at still
  | wait passed mapped loaded =>
      subst passed
      refine ⟨coherent.drive, fun names fileId proper found => ?_, fun dirId isLoaded => ?_,
        fun dirId member => ?_, coherent.once⟩
      · exact coherent.mapped names fileId proper ((mapped _).symm.trans found)
      · obtain ⟨names, proper, walked, children⟩ := coherent.loaded dirId ((loaded dirId).mp isLoaded)
        exact ⟨names, proper, walked, fun name fileId child =>
          (mapped _).trans (children name fileId child)⟩
      · exact (loaded dirId).mpr (coherent.listed dirId member)

end Coherent

/-- The mount after `__init__`, before any listing. -/
def Visited.start (settings : CacheSettings) (rootId : NodeId) (now : Nat) (tree : DriveTree) :
    Visited :=
  ⟨World.start settings rootId now tree, []⟩

theorem Coherent.start (settings : CacheSettings) (rootId : NodeId) (now : Nat)
    (tree : DriveTree) : Coherent tree rootId (Visited.start settings rootId now tree) := by
  have mapped (path : Str) : (Visited.start settings rootId now tree).world.mapped path =
      if path = ['/'] then some rootId else none := by
    refine (PathCache.resolve_mapPathToNodeId settings _ none _ _ _).trans ?_
    simp [PathCache.resolvePathToNodeId]
  refine ⟨rfl, fun names fileId proper found => ?_, fun dirId loaded => ?_, ?_, List.nodup_nil⟩
  · rw [mapped] at found
    split at found
    · rename_i isRoot
      have noNames : ProperNames [] := by simp [ProperNames]
      obtain rfl := pathOf_injective proper noNames isRoot
      exact found
    · cases found
  · cases loaded
  · intro dirId member
    cases member

/-- Whatever was looked up before, the resolution of a path ends, it leads where
the names lead from the root, and no directory was or is listed twice. -/
theorem resolvePath_followsTree {settings : CacheSettings} {server : Server} {rootId : NodeId}
    {now : Nat} {tree : DriveTree} (rooted : tree.RootedTree rootId)
    (splits : server.Splits tree) {visited : Visited}
    (reached : Relation.ReflTransGen (Looks settings server rootId)
      (Visited.start settings rootId now tree) visited)
    {names : List Str} (proper : ProperNames names) :
    (∃ result later,
      Executes (paged settings server) visited (resolvePath rootId (pathOf names)) result later) ∧
    ∀ result later,
      Executes (paged settings server) visited (resolvePath rootId (pathOf names)) result later →
        later.listed.Nodup ∧ ∃ found, result = .ok found ∧
          ∀ fileId, found = some fileId ↔ Follows tree rootId names fileId := by
  have coherent : Coherent tree rootId visited := by
    induction reached with
    | refl => exact .start settings rootId now tree
    | tail _ looks induction => exact induction.looks rooted splits looks
  obtain ⟨finish, ran, still⟩ := @Coherent.resolvePath tree settings rootId _ coherent rooted _ proper
  have executes {result : Except Errno (Option NodeId)} {later : Visited} :
      Executes (paged settings server) visited (resolvePath rootId (pathOf names)) result later ↔
        play (serveLogged settings) visited (resolvePath rootId (pathOf names)) =
          (result, later) :=
    executes_paged_iff (coherent.drive.symm ▸ splits) (resolvePath_onlyAsks _)
  refine ⟨⟨_, finish, executes.mpr ran⟩, fun result later execution => ?_⟩
  cases ran.symm.trans (executes.mp execution)
  exact ⟨still.once, _, rfl, fun fileId => rooted.walk_iff⟩

/-- A directory `/a` with a file `b`. -/
def sampleNested : DriveTree :=
  ⟨[⟨sampleRoot, ['a'], ⟨['d'], by decide⟩⟩, ⟨⟨['d'], by decide⟩, ['b'], sampleFile⟩]⟩

theorem sampleNested_rootedTree : sampleNested.RootedTree sampleRoot where
  named := by decide
  ranked := ⟨fun fileId => if fileId = sampleRoot then 0 else if fileId = sampleFile then 2 else 1,
    by decide⟩
  ids := by decide
  root := by decide
  names := by decide

/-- A storage that answers with the first file and a token for the others. -/
def twoPages (tree : DriveTree) : Server
  | dirId, none => ⟨(tree.listChildren dirId).take 1, some ⟨['t'], by decide⟩⟩
  | dirId, some _ => ⟨(tree.listChildren dirId).drop 1, none⟩

theorem twoPages_splits (tree : DriveTree) : (twoPages tree).Splits tree := by
  intro dirId
  refine ⟨[(tree.listChildren dirId).take 1, (tree.listChildren dirId).drop 1], ?_, ?_⟩
  · exact .more rfl (.last rfl)
  · simp only [List.flatten_cons, List.flatten_nil, List.append_nil, List.take_append_drop]

theorem resolvePath_followsTree_readdirFirst :
    ∃ visited, Relation.ReflTransGen (Looks defaultSettings (twoPages sampleNested) sampleRoot)
        (Visited.start defaultSettings sampleRoot 0 sampleNested) visited ∧
      visited.listed = [sampleRoot] ∧
      (∃ result later, Executes (paged defaultSettings (twoPages sampleNested)) visited
        (resolvePath sampleRoot (pathOf [['a'], ['b']])) result later) ∧
      ∀ result later, Executes (paged defaultSettings (twoPages sampleNested)) visited
        (resolvePath sampleRoot (pathOf [['a'], ['b']])) result later →
        later.listed.Nodup ∧ ∃ found, result = .ok found ∧
          ∀ fileId, found = some fileId ↔
            Follows sampleNested sampleRoot [['a'], ['b']] fileId := by
  let look : Look := .readdir ['/']
  have isPath : IsPath look.path := .root
  let start := Visited.start defaultSettings sampleRoot 0 sampleNested
  let listed := play (serveLogged defaultSettings) start (look.program sampleRoot)
  have execution : Executes (paged defaultSettings (twoPages sampleNested)) start
      (look.program sampleRoot) listed.1 listed.2 := by
    have splits : (twoPages sampleNested).Splits start.world.drive := twoPages_splits sampleNested
    exact (executes_paged_iff splits (Look.onlyAsks _)).mpr (Eq.refl listed)
  have reached : Relation.ReflTransGen
      (Looks defaultSettings (twoPages sampleNested) sampleRoot) start listed.2 :=
    .single (.call isPath execution)
  have proper : ProperNames [['a'], ['b']] := by
    simp [ProperNames, ProperName]
  exact ⟨_, reached, rfl, resolvePath_followsTree sampleNested_rootedTree (twoPages_splits _)
    reached proper⟩

end FuseDrive.Fuse
