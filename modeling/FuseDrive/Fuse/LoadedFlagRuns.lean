import FuseDrive.Fuse.LoadedFlag

/-!
# Operations under the flag of a loaded directory

Each operation that keeps to `Keeps` preserves the invariant, and so does a run
of them.  A resolution carries, besides the invariant, the paths below its own
that it has looked up in vain: the listings on the way map nothing there.
-/

namespace FuseDrive.Fuse

open Program (Ensures Executes perform)

/-! ## Listings -/

section Triples

variable {rootId : NodeId} {settings : CacheSettings} {operation : Operation}

/-- The invariant, and paths where nothing is mapped. -/
structure World.Framed (rootId : NodeId) (unmapped : Str → Prop) (world : World) : Prop where
  consistent : world.Consistent rootId none
  still : ∀ key, unmapped key → world.mapped key = none

/-- The invariant, at a path that resolved. -/
structure World.Found (rootId : NodeId) (unmapped : Str → Prop) (path : Str)
    (dirId : NodeId) (world : World) : Prop where
  framed : world.Framed rootId unmapped
  held : world.Held rootId path dirId

/-- The loop of a listing, with what it has mapped so far. -/
structure World.Listing (rootId : NodeId) (unmapped : Str → Prop) (parent : Str)
    (dirId : NodeId) (items processed : List Item) (world : World) : Prop where
  found : world.Found rootId unmapped parent dirId
  notLoaded : ¬ world.Loaded dirId
  children : ∀ name, world.known.child dirId name = lastNamed items name
  mapped : ∃ load ∈ world.loading, load.path = parent ∧ ∀ {name fileId},
    lastNamed processed name = some fileId →
      join parent name ∈ load.mapped ∧ world.mapped (join parent name) = some fileId

/-- The world in which an operation keeps to what the flag relies on. -/
abbrev keeping (settings : CacheSettings) (rootId : NodeId) (operation : Operation) :
    Program.Environment World Request Request.Answer :=
  environment settings (Keeps rootId operation) KeepsPassing

theorem stable_of_fades {assertion : World → Prop}
    (faded : ∀ {world later}, assertion world → world.Fades later → assertion later) :
    (keeping settings rootId operation).Stable assertion :=
  fun _ _ holds drifted => faded holds (.of_drift drifted)

theorem World.Framed.fades {unmapped : Str → Prop} {world later : World}
    (framed : world.Framed rootId unmapped) (fades : world.Fades later) :
    later.Framed rootId unmapped where
  consistent := framed.consistent.fades fades
  still key isKey := fades.unmapped (framed.still key isKey)

theorem World.Framed.mono {world : World} {unmapped fewer : Str → Prop}
    (framed : world.Framed rootId unmapped) (subset : ∀ key, fewer key → unmapped key) :
    world.Framed rootId fewer :=
  ⟨framed.consistent, fun key isKey => framed.still key (subset key isKey)⟩

theorem World.Found.fades {unmapped : Str → Prop} {path : Str} {dirId : NodeId}
    {world later : World} (found : world.Found rootId unmapped path dirId)
    (fades : world.Fades later) : later.Found rootId unmapped path dirId :=
  ⟨found.framed.fades fades, found.held.fades fades⟩

theorem World.Listing.fades {unmapped : Str → Prop} {parent : Str} {dirId : NodeId}
    {items processed : List Item} {world later : World}
    (listing : world.Listing rootId unmapped parent dirId items processed)
    (fades : world.Fades later) :
    later.Listing rootId unmapped parent dirId items processed where
  found := listing.found.fades fades
  notLoaded loaded := listing.notLoaded (fades.loaded loaded)
  children := fades.known ▸ listing.children
  mapped := by
    obtain ⟨load, isLoading, samePath, mapped⟩ := listing.mapped
    refine ⟨load, fades.loading ▸ isLoading, samePath, fun {name fileId} found => ?_⟩
    obtain ⟨isMapped, there⟩ := mapped found
    exact ⟨isMapped, fades.still_mapped isLoading isMapped there⟩

theorem World.Listing.map {choice : Choice} {world : World} {unmapped : Str → Prop}
    {parent : Str} {dirId : NodeId} {items processed : List Item} {item : Item}
    (listing : world.Listing rootId unmapped parent dirId items processed)
    (isPath : IsPath parent) (proper : ProperName item.name)
    (processedProper : ∀ other ∈ processed, ProperName other.name)
    (apart : ∀ key, unmapped key → dirname key ≠ parent)
    (keeps : Keeps rootId operation world
      (.mapPathToNodeId (join parent item.name) item.fileId) choice) :
    ((serve settings choice world
      (.mapPathToNodeId (join parent item.name) item.fileId)).2).Listing
        rootId unmapped parent dirId items (processed ++ [item]) where
  found := by
    refine ⟨⟨listing.found.framed.consistent.map isPath proper keeps (by simp) ?_, ?_⟩,
      fun leads => ?_, fun loaded => absurd loaded listing.notLoaded⟩
    · intro other child leads loaded _
      rw [listing.found.held.unique leads] at loaded
      exact absurd loaded listing.notLoaded
    · intro key isKey
      refine (world.cache.resolve_mapPathToNodeId settings choice.victim
        (join parent item.name) key item.fileId).trans ?_
      rw [if_neg]
      · split
        · rfl
        · exact listing.found.framed.still key isKey
      · rintro rfl
        exact apart _ isKey (isPath.dirname_join proper)
    · exact listing.found.held.unique (leads.of_map (isPath.join_ne_self proper).symm)
  notLoaded := listing.notLoaded
  children := listing.children
  mapped := by
    obtain ⟨load, isLoading, samePath, mapped⟩ := listing.mapped
    refine ⟨{ load with mapped := join parent item.name :: load.mapped }, ?_, samePath, ?_⟩
    · exact Option.mem_map_of_mem _ isLoading
    · intro name fileId found
      rw [lastNamed_append, Option.or_eq_some_iff] at found
      rcases found with isItem | ⟨notItem, earlier⟩
      · have same := mem_of_lastNamed isItem
        rw [List.mem_singleton] at same
        subst same
        exact ⟨List.mem_cons_self, mapped_map_self⟩
      · have nameProper := processedProper _ (mem_of_lastNamed earlier)
        have different : join parent name ≠ join parent item.name := by
          intro same
          obtain ⟨-, rfl⟩ := join_inj isPath nameProper isPath proper same
          simp [lastNamed] at notItem
        obtain ⟨isMapped, there⟩ := mapped earlier
        refine ⟨List.mem_cons_of_mem _ isMapped, ?_⟩
        rcases mapped_map different there with kept | victim
        · exact kept
        · exact absurd isMapped ((keeps.1 _ victim).2 load isLoading)

theorem mapChildren_ensures {unmapped : Str → Prop} {parent : Str} {dirId : NodeId}
    {items : List Item} (isPath : IsPath parent)
    (proper : ∀ item ∈ items, ProperName item.name)
    (apart : ∀ key, unmapped key → dirname key ≠ parent) (processed rest : List Item)
    (parts : processed ++ rest = items) :
    Ensures (keeping settings rootId operation)
      (World.Listing rootId unmapped parent dirId items processed) (mapChildren parent rest)
      (fun result world => result = .ok () ∧
        world.Listing rootId unmapped parent dirId items items) := by
  induction rest generalizing processed with
  | nil =>
      rw [List.append_nil] at parts
      subst parts
      exact Ensures.done (stable_of_fades World.Listing.fades) fun listing => ⟨rfl, listing⟩
  | cons item rest induction =>
      refine Ensures.perform (fun _ world =>
        world.Listing rootId unmapped parent dirId items (processed ++ [item]))
        (stable_of_fades World.Listing.fades) ?_ fun _ => induction _ ?_
      · rintro world answer later listing ⟨choice, -, keeps, served⟩
        obtain ⟨-, rfl⟩ := Prod.mk.inj served
        refine listing.map isPath (proper item ?_) (fun other member => proper other ?_) apart
          keeps
        · exact parts ▸ List.mem_append_right processed List.mem_cons_self
        · exact parts ▸ List.mem_append_left _ member
      · rw [List.append_assoc]
        exact parts

theorem World.Listing.fresh {choice : Choice} {world : World} {unmapped : Str → Prop}
    {path : Str} {dirId : NodeId} {items : List Item} {later : World}
    (found : world.Found rootId unmapped path dirId) (notLoaded : ¬ world.Loaded dirId)
    (keeps : Keeps rootId operation world (.listChildren dirId path) choice)
    (served : serve settings choice world (.listChildren dirId path) = (some items, later)) :
    (∀ item ∈ items, ProperName item.name) ∧
      later.Listing rootId unmapped path dirId items [] := by
  simp only [serve] at served
  split at served
  · obtain ⟨impossible, -⟩ := Prod.mk.inj served
    cases impossible
  · obtain ⟨same, rfl⟩ := Prod.mk.inj served
    cases same
    refine ⟨keeps, ⟨⟨?_, found.framed.still⟩, found.held.congr rfl rfl⟩, notLoaded,
      fun name => ?_, ⟨_, rfl, rfl, ?_⟩⟩
    · exact found.framed.consistent.relist rfl rfl rfl notLoaded keeps
    · rw [DriveTree.child_relist, if_pos rfl]
    · intro name fileId impossible
      cases impossible

theorem World.Listing.shown {unmapped : Str → Prop} {path : Str} {dirId : NodeId}
    {items : List Item} {world : World}
    (listing : world.Listing rootId unmapped path dirId items items) :
    world.Shown path dirId := by
  obtain ⟨load, isLoading, samePath, mapped⟩ := listing.mapped
  refine ⟨load, isLoading, samePath, fun {name fileId} child => mapped ?_⟩
  rw [← listing.children]
  exact child

theorem World.Listing.marked {choice : Choice} {world : World} {unmapped : Str → Prop}
    {path : Str} {dirId : NodeId} {items : List Item} (isPath : IsPath path)
    (listing : world.Listing rootId unmapped path dirId items items)
    (keeps : Keeps rootId operation world (.markDirectoryChildrenLoaded dirId) choice) :
    ((serve settings choice world (.markDirectoryChildrenLoaded dirId)).2).Found
        rootId unmapped path dirId ∧
      ((serve settings choice world (.markDirectoryChildrenLoaded dirId)).2).Shown path dirId := by
  have shown := listing.shown
  obtain ⟨load, isLoading, samePath, -⟩ := listing.mapped
  have alone : ∀ {other}, IsPath other → world.Leads rootId other dirId → other = path :=
    fun isPath leads => (keeps load isLoading _ isPath leads).trans samePath
  refine ⟨⟨⟨?_, listing.found.framed.still⟩, listing.found.held.unique, fun _ => ?_⟩, shown⟩
  · exact listing.found.framed.consistent.mark isPath shown alone
  · show world.place dirId dirId = some path
    unfold World.place
    rw [Option.mem_def.mp isLoading, ← samePath]
    exact Function.update_self _ _ _

/-- Listing a directory keeps the invariant and, where the directory was not
loaded, shows all its children. -/
theorem loadChildren_ensures {unmapped : Str → Prop} {path : Str} {dirId : NodeId}
    (isPath : IsPath path) (apart : ∀ key, unmapped key → dirname key ≠ path)
    (fresh : Prop) :
    Ensures (keeping settings rootId operation)
      (fun world => world.Found rootId unmapped path dirId ∧
        (fresh → ¬ world.Loaded dirId))
      (loadChildren dirId path)
      (fun result world => world.Framed rootId unmapped ∧ ∀ value, result = .ok value →
        world.Held rootId path dirId ∧ (fresh → world.Shown path dirId)) := by
  refine Ensures.perform (fun loaded world => world.Found rootId unmapped path dirId ∧
    (loaded = true → ¬ fresh) ∧ (loaded = false → ¬ world.Loaded dirId))
    (stable_of_fades fun holds fades =>
      ⟨holds.1.fades fades, fun isFresh loaded => holds.2 isFresh (fades.loaded loaded)⟩) ?_ ?_
  · rintro world answer later ⟨found, notLoaded⟩ ⟨choice, -, -, served⟩
    obtain ⟨rfl, rfl⟩ := Prod.mk.inj served
    refine ⟨found, fun loaded isFresh => notLoaded isFresh loaded, fun notFlagged loaded => ?_⟩
    exact Bool.false_ne_true (notFlagged.symm.trans loaded)
  · intro loaded
    cases loaded with
    | true =>
        refine Ensures.done (stable_of_fades fun holds fades => ⟨holds.1.fades fades,
          holds.2.1, fun isFalse => absurd isFalse.symm Bool.false_ne_true⟩) ?_
        rintro world ⟨found, notFresh, -⟩
        exact ⟨found.framed, fun _ _ => ⟨found.held, fun isFresh => absurd isFresh (notFresh rfl)⟩⟩
    | false =>
        refine Ensures.perform (fun answer world => match answer with
          | none => world.Framed rootId unmapped
          | some items => (∀ item ∈ items, ProperName item.name) ∧
              world.Listing rootId unmapped path dirId items [])
          (stable_of_fades fun holds fades => ⟨holds.1.fades fades, holds.2.1,
            fun isFalse loaded => holds.2.2 isFalse (fades.loaded loaded)⟩) ?_ ?_
        · rintro world answer later ⟨found, -, notLoaded⟩ ⟨choice, -, keeps, served⟩
          cases answer with
          | none =>
              simp only [serve] at served
              split at served
              · obtain ⟨-, rfl⟩ := Prod.mk.inj served
                exact found.framed
              · obtain ⟨impossible, -⟩ := Prod.mk.inj served
                cases impossible
          | some items => exact World.Listing.fresh found (notLoaded rfl) keeps served
        · intro answer
          cases answer with
          | none =>
              refine Ensures.done (stable_of_fades World.Framed.fades) fun framed => ⟨framed, ?_⟩
              intro value impossible
              cases impossible
          | some items =>
              refine Ensures.assume fun proper => ?_
              refine Ensures.bind _ (mapChildren_ensures isPath proper apart [] items rfl) ?_ ?_
              · intro _
                refine Ensures.last (fun _ world => world.Found rootId unmapped path dirId ∧
                  world.Shown path dirId)
                  (stable_of_fades fun holds fades => ⟨holds.1, holds.2.fades fades⟩) ?_
                  (fun _ => stable_of_fades fun holds fades =>
                    ⟨holds.1.fades fades, holds.2.fades fades⟩) ?_
                · rintro world answer later ⟨-, listing⟩ ⟨choice, -, keeps, served⟩
                  obtain ⟨-, rfl⟩ := Prod.mk.inj served
                  exact listing.marked isPath keeps
                · rintro answer world ⟨found, shown⟩
                  exact ⟨found.framed, fun _ _ => ⟨found.held, fun _ => shown⟩⟩
              · rintro error world ⟨impossible, -⟩
                cases impossible

/-! ## Resolutions -/

/-- What a resolution says about its path. -/
def World.Resolved (rootId : NodeId) (unmapped : Str → Prop) (path : Str)
    (result : Except Errno (Option NodeId)) (world : World) : Prop :=
  world.Framed rootId unmapped ∧
    ∀ fileId, result = .ok (some fileId) → world.Held rootId path fileId

theorem World.Resolved.fades {unmapped : Str → Prop} {path : Str}
    {result : Except Errno (Option NodeId)} {world later : World}
    (resolved : world.Resolved rootId unmapped path result) (fades : world.Fades later) :
    later.Resolved rootId unmapped path result :=
  ⟨resolved.1.fades fades, fun fileId same => (resolved.2 fileId same).fades fades⟩

theorem World.leads_root (world : World) : world.Leads rootId ['/'] rootId := by
  unfold Leads
  rw [if_pos rfl]

/-- A path that leads somewhere is held. -/
theorem World.Consistent.held {world : World} {path : Str} {fileId : NodeId}
    (consistent : world.Consistent rootId none) (isPath : IsPath path)
    (leads : world.Leads rootId path fileId) : world.Held rootId path fileId where
  unique otherLeads := by
    unfold Leads at leads otherLeads
    split at leads
    · rename_i isRoot
      rw [if_pos isRoot] at otherLeads
      exact otherLeads.trans leads.symm
    · rename_i notRoot
      rw [if_neg notRoot, leads] at otherLeads
      exact (Option.some.inj otherLeads).symm
  placed loaded := consistent.single isPath leads loaded

theorem World.Framed.lookup {choice : Choice} {world later : World} {unmapped : Str → Prop}
    {path : Str} {answer : Option NodeId} (framed : world.Framed rootId unmapped)
    (isPath : IsPath path) (notRoot : path ≠ ['/'])
    (served : serve settings choice world (.resolvePathToNodeId path) = (answer, later)) :
    later.Resolved rootId unmapped path (.ok answer) := by
  obtain ⟨found, rfl⟩ := Prod.mk.inj served
  have consistent : World.Consistent rootId none { world with loading := none } :=
    ⟨framed.consistent.named, framed.consistent.placedAtPath, framed.consistent.covered,
      framed.consistent.single⟩
  refine ⟨⟨consistent, framed.still⟩, fun fileId same => ?_⟩
  cases same
  have leads : World.Leads rootId { world with loading := none } path fileId := by
    unfold Leads
    rw [if_neg notRoot]
    exact found
  exact consistent.held isPath leads

/-- What a resolution does below a directory it has found: where it finds
nothing, the directory has no such child. -/
theorem findBelow_ensures {parent name : Str} (isPath : IsPath parent)
    (proper : ProperName name) (unmapped : Str → Prop)
    (longer : ∀ key, unmapped key → (join parent name).length ≤ (dirname key).length)
    (parentId : NodeId) :
    Ensures (keeping settings rootId operation)
      (World.Resolved rootId (fun key => unmapped key ∨ key = join parent name) parent
        (.ok (some parentId)))
      (findBelow parentId (join parent name))
      (fun result world => world.Resolved rootId unmapped (join parent name) result ∧
        (result = .ok none → world.known.child parentId name = none)) := by
  unfold findBelow
  rw [isPath.dirname_join proper]
  refine Ensures.perform (fun loaded world =>
    (world.Found rootId unmapped parent parentId) ∧
      (loaded = true → world.known.child parentId name = none) ∧
      (loaded = false → ¬ world.Loaded parentId))
    (stable_of_fades World.Resolved.fades) ?_ ?_
  · rintro world answer later ⟨framed, held⟩ ⟨choice, -, -, served⟩
    obtain ⟨rfl, rfl⟩ := Prod.mk.inj served
    refine ⟨⟨framed.mono fun _ => .inl, held parentId rfl⟩, fun loaded => ?_,
      fun notFlagged loaded => Bool.false_ne_true (notFlagged.symm.trans loaded)⟩
    cases child : world.known.child parentId name with
    | none => rfl
    | some fileId =>
        have found := framed.consistent.covered loaded ((held parentId rfl).placed loaded) child
          (Option.some_ne_none _).symm
        rw [framed.still _ (.inr rfl)] at found
        cases found
  · intro loaded
    cases loaded with
    | true =>
        refine Ensures.done (stable_of_fades fun holds fades => ⟨holds.1.fades fades,
          fades.known ▸ holds.2.1, fun isFalse => absurd isFalse.symm Bool.false_ne_true⟩) ?_
        refine fun holds => ⟨⟨holds.1.framed, fun fileId same => ?_⟩, fun _ => holds.2.1 rfl⟩
        cases same
    | false =>
        have apart : ∀ key, unmapped key → dirname key ≠ parent := by
          intro key isKey same
          have shorter := isPath.length_lt_join proper
          have atLeast := longer key isKey
          rw [same] at atLeast
          omega
        refine Ensures.bind _ ((loadChildren_ensures isPath apart True).weaken ?_ id) ?_ ?_
        · exact fun holds => ⟨holds.1, fun _ => holds.2.2 rfl⟩
        · intro value
          refine Ensures.last (fun answer world => world.Resolved rootId unmapped
            (join parent name) (.ok answer) ∧
              (answer = none → world.known.child parentId name = none)) (stable_of_fades ?_) ?_
            (fun _ => stable_of_fades fun holds fades =>
              ⟨holds.1.fades fades, fades.known ▸ holds.2⟩) ?_
          · intro world later holds fades
            exact ⟨holds.1.fades fades, fun other same => ⟨((holds.2 other same).1).fades fades,
              fun fresh => ((holds.2 other same).2 fresh).fades fades⟩⟩
          · rintro world answer later ⟨framed, holds⟩ ⟨choice, -, -, served⟩
            refine ⟨framed.lookup (isPath.child proper) (isPath.join_ne_root proper) served,
              fun isNone => ?_⟩
            obtain ⟨-, shown⟩ := holds value rfl
            obtain ⟨load, -, -, mapped⟩ := shown trivial
            obtain ⟨notFound, rfl⟩ := Prod.mk.inj served
            cases child : world.known.child parentId name with
            | none => rfl
            | some fileId =>
                have found := (mapped child).2
                rw [World.mapped, notFound, isNone] at found
                cases found
          · rintro answer world ⟨resolved, unlisted⟩
            exact ⟨resolved, fun same => unlisted (Except.ok.inj same)⟩
        · refine fun holds => ⟨⟨holds.1, fun fileId same => ?_⟩, fun same => ?_⟩
          · cases same
          · cases same

theorem resolvePath_framed {path : Str} (isPath : IsPath path) (unmapped : Str → Prop)
    (longer : ∀ key, unmapped key → path.length ≤ (dirname key).length) :
    Ensures (keeping settings rootId operation) (World.Framed rootId unmapped)
      (resolvePath rootId path) (World.Resolved rootId unmapped path) := by
  induction isPath generalizing unmapped with
  | root =>
      refine Ensures.done (stable_of_fades World.Framed.fades) fun {world} framed => ?_
      refine ⟨framed, fun fileId same => ?_⟩
      cases same
      exact framed.consistent.held .root world.leads_root
  | child isPath proper induction =>
      rename_i parent name
      have longerPath := isPath.length_lt_join proper
      rw [resolvePath_join rootId isPath proper]
      refine Ensures.perform (fun answer world =>
        world.Resolved rootId unmapped (join parent name) (.ok answer) ∧
          (answer = none → world.mapped (join parent name) = none))
        (stable_of_fades World.Framed.fades) ?_ ?_
      · rintro world answer later framed ⟨choice, -, -, served⟩
        refine ⟨framed.lookup (isPath.child proper) (isPath.join_ne_root proper) served, ?_⟩
        rintro rfl
        obtain ⟨notMapped, rfl⟩ := Prod.mk.inj served
        exact notMapped
      · intro answer
        cases answer with
        | some fileId =>
            refine Ensures.done (stable_of_fades fun holds fades => ⟨holds.1.fades fades, ?_⟩)
              And.left
            intro impossible
            cases impossible
        | none =>
            refine Ensures.bind (World.Resolved rootId
              (fun key => unmapped key ∨ key = join parent name) parent)
              ((induction _ ?_).weaken ?_ id) ?_ ?_
            · rintro key (isKey | rfl)
              · exact Nat.le_trans (Nat.le_of_lt longerPath) (longer key isKey)
              · rw [isPath.dirname_join proper]
            · rintro world ⟨⟨framed, -⟩, notMapped⟩
              refine ⟨framed.consistent, ?_⟩
              rintro key (isKey | rfl)
              · exact framed.still key isKey
              · exact notMapped rfl
            · intro parentId
              cases parentId with
              | none =>
                  refine Ensures.done (stable_of_fades World.Resolved.fades) ?_
                  refine fun resolved => ⟨resolved.1.mono fun _ => .inl, fun fileId same => ?_⟩
                  cases same
              | some parentId =>
                  exact (findBelow_ensures isPath proper unmapped longer parentId).weaken id
                    And.left
            · refine fun resolved => ⟨resolved.1.mono fun _ => .inl, fun fileId same => ?_⟩
              cases same

/-- A path does not exist: within the call the resolution of its directory found
nothing because that does not exist, or it found a directory that has no child
of the name. -/
inductive NotThere (environment : Program.Environment World Request Request.Answer)
    (rootId : NodeId) : World → Str → World → Prop where
  | noDirectory {start first second finish : World} {parent name : Str} :
      Relation.ReflTransGen environment.Moves start first →
      Executes environment first (resolvePath rootId parent) (.ok none) second →
      NotThere environment rootId first parent second →
      Relation.ReflTransGen environment.Moves second finish →
      NotThere environment rootId start (join parent name) finish
  | unlisted {start first second finish : World} {parent name : Str} {parentId : NodeId} :
      Relation.ReflTransGen environment.Moves start first →
      Executes environment first (resolvePath rootId parent) (.ok (some parentId)) second →
      Relation.ReflTransGen environment.Moves second finish →
      finish.known.child parentId name = none →
      NotThere environment rootId start (join parent name) finish

theorem World.Framed.drifts {unmapped : Str → Prop} {world later : World}
    (framed : world.Framed rootId unmapped)
    (drifts : Relation.ReflTransGen (keeping settings rootId operation).drifts world later) :
    later.Framed rootId unmapped := by
  induction drifts with
  | refl => exact framed
  | tail _ drifted induction => exact induction.fades (.of_drift drifted)

theorem notThere_of_resolvePath {path : Str} (isPath : IsPath path) {start finish : World}
    (framed : start.Framed rootId fun _ => False)
    (execution : Executes (keeping settings rootId operation) start (resolvePath rootId path)
      (.ok none) finish) :
    NotThere (keeping settings rootId operation) rootId start path finish := by
  induction isPath generalizing start finish with
  | root =>
      have resolved : Ensures (keeping settings rootId operation) (fun _ : World => True)
          (resolvePath rootId ['/']) (fun result _ => result = .ok (some rootId)) :=
        Ensures.done (fun _ _ _ _ => trivial) fun _ => rfl
      cases resolved trivial execution
  | child isPath proper induction =>
      rename_i parent name
      rw [resolvePath_join rootId isPath proper] at execution
      obtain ⟨before, answer, after, drifts, served, rest⟩ :=
        Executes.of_perform execution
      have moved : Relation.ReflTransGen (keeping settings rootId operation).Moves start after :=
        (Relation.ReflTransGen.mono (fun _ _ => .inl) _ _ drifts).tail (.inr ⟨_, _, served⟩)
      obtain ⟨choice, -, -, served⟩ := served
      have resolved := (framed.drifts drifts).lookup (isPath.child proper)
        (isPath.join_ne_root proper) served
      cases answer with
      | some fileId =>
          have ended : Ensures (keeping settings rootId operation) (fun _ : World => True)
              (pure (some fileId) : Op (Option NodeId))
              (fun result _ => result = .ok (some fileId)) :=
            Ensures.done (fun _ _ _ _ => trivial) fun _ => rfl
          cases ended trivial rest
      | none =>
          have unmapped : after.mapped (join parent name) = none := by
            obtain ⟨notMapped, rfl⟩ := Prod.mk.inj served
            exact notMapped
          rcases Executes.of_bind rest with ⟨error, impossible, -⟩ | ⟨found, middle, first, last⟩
          · cases impossible
          · cases found with
            | none =>
                exact .noDirectory moved first (induction resolved.1 first) (Executes.moves last)
            | some parentId =>
                have framedBelow : after.Framed rootId fun key =>
                    False ∨ key = join parent name := by
                  refine ⟨resolved.1.consistent, ?_⟩
                  rintro key (impossible | rfl)
                  · exact impossible.elim
                  · exact unmapped
                have parentFound := resolvePath_framed isPath _ (by
                  rintro key (impossible | rfl)
                  · exact impossible.elim
                  · rw [isPath.dirname_join proper]) framedBelow first
                have below := findBelow_ensures isPath proper (fun _ => False)
                  (fun _ impossible => impossible.elim) parentId parentFound last
                exact .unlisted moved first (Executes.moves last) (below.2 rfl)

/-! ## Operations -/

/-- The invariant, with nothing said about unmapped paths. -/
def World.Sound (rootId : NodeId) (world : World) : Prop :=
  world.Framed rootId fun _ => False

theorem World.Sound.of_consistent {world : World} (consistent : world.Consistent rootId none) :
    world.Sound rootId :=
  ⟨consistent, fun _ impossible => impossible.elim⟩

theorem World.Sound.fades {world later : World} (sound : world.Sound rootId)
    (fades : world.Fades later) : later.Sound rootId :=
  Framed.fades sound fades

theorem World.Sound.congr {world later : World} (sound : world.Sound rootId)
    (cache : later.cache = world.cache) (known : later.known = world.known)
    (placed : later.placed = world.placed) : later.Sound rootId := by
  refine .of_consistent
    (sound.consistent.of_known cache placed (known ▸ sound.consistent.named) ?_)
  intro dirId path name fileId _ _ child _
  exact known ▸ child

theorem resolvePath_ensures {path : Str} (isPath : IsPath path) :
    Ensures (keeping settings rootId operation) (World.Sound rootId) (resolvePath rootId path)
      (World.Resolved rootId (fun _ => False) path) :=
  resolvePath_framed isPath _ fun _ impossible => impossible.elim

theorem Ensures.silent {α : Type} {request : Request} {next : request.Answer → Op α}
    {after : Except Errno α → World → Prop}
    (untouched : ∀ choice world, let later := (serve settings choice world request).2
      (later.cache, later.known, later.placed) = (world.cache, world.known, world.placed))
    (rest : ∀ answer, Ensures (keeping settings rootId operation) (World.Sound rootId)
      (next answer) after) :
    Ensures (keeping settings rootId operation) (World.Sound rootId)
      (perform request >>= next) after := by
  refine Ensures.perform (fun _ => World.Sound rootId) (stable_of_fades World.Sound.fades) ?_ rest
  rintro world answer later sound ⟨choice, -, -, served⟩
  have same : (serve settings choice world request).2 = later := congrArg Prod.snd served
  obtain ⟨cache, histories⟩ := Prod.mk.inj (untouched choice world)
  obtain ⟨known, placed⟩ := Prod.mk.inj histories
  exact same ▸ sound.congr cache known placed

theorem Ensures.sound_raise {α : Type} {error : Errno} {after : Except Errno α → World → Prop}
    (established : ∀ {world}, world.Sound rootId → after (.error error) world) :
    Ensures (keeping settings rootId operation) (World.Sound rootId)
      (Program.raise error : Op α) after :=
  Ensures.done (stable_of_fades World.Sound.fades) established

theorem Ensures.sound_pure {α : Type} {value : α} {after : Except Errno α → World → Prop}
    (established : ∀ {world}, world.Sound rootId → after (.ok value) world) :
    Ensures (keeping settings rootId operation) (World.Sound rootId)
      (pure value : Op α) after :=
  Ensures.done (stable_of_fades World.Sound.fades) established

/-- A name that is new below its directory and not mapped yet. -/
structure World.Created (rootId : NodeId) (parent name : Str) (parentId fileId : NodeId)
    (world : World) : Prop where
  consistent : world.Consistent rootId (some (join parent name))
  held : world.Held rootId parent parentId
  child : world.known.child parentId name = some fileId

theorem World.Created.fades {parent name : Str} {parentId fileId : NodeId}
    {world later : World} (created : world.Created rootId parent name parentId fileId)
    (fades : world.Fades later) : later.Created rootId parent name parentId fileId :=
  ⟨created.consistent.fades fades, created.held.fades fades, fades.known ▸ created.child⟩

theorem World.Created.of_known {parent name : Str} {parentId fileId : NodeId}
    {world later : World} (sound : world.Sound rootId) (held : world.Held rootId parent parentId)
    (proper : ProperName name) (cache : later.cache = world.cache)
    (samePlaced : later.placed = world.placed)
    (known : later.known = world.known.create parentId name fileId) :
    later.Created rootId parent name parentId fileId where
  consistent := sound.consistent.create cache samePlaced known held proper
  held := held.congr cache samePlaced
  child := by
    rw [known, DriveTree.child_create, if_pos ⟨rfl, rfl⟩]

theorem mapNew_ensures {parent name : Str} (isPath : IsPath parent) (proper : ProperName name)
    (parentId fileId : NodeId) :
    Ensures (keeping settings rootId operation)
      (World.Created rootId parent name parentId fileId)
      (perform (Request.mapPathToNodeId (join parent name) fileId) : Op Unit)
      (fun _ => World.Sound rootId) := by
  refine Ensures.last (fun _ => World.Sound rootId) (stable_of_fades World.Created.fades) ?_
    (fun _ => stable_of_fades World.Sound.fades) id
  rintro world answer later created ⟨choice, -, keeps, served⟩
  obtain ⟨-, rfl⟩ := Prod.mk.inj served
  refine .of_consistent (created.consistent.map isPath proper keeps
    (fun path same => (Option.some.inj same).symm) ?_)
  intro dirId child leads _ isChild
  rw [created.held.unique leads, created.child] at isChild
  exact (Option.some.inj isChild).symm

theorem createFile_ensures {parent name : Str} (isPath : IsPath parent)
    (proper : ProperName name) :
    Ensures (keeping settings rootId operation) (World.Sound rootId)
      (createFile rootId (join parent name)) (fun _ => World.Sound rootId) := by
  unfold createFile
  rw [isPath.dirname_join proper, isPath.basename_join proper]
  split
  · exact Ensures.silent (fun _ _ => rfl) fun _ => Ensures.sound_pure id
  · refine Ensures.silent (fun _ _ => rfl) fun exceeded => ?_
    cases exceeded with
    | true => exact Ensures.sound_raise id
    | false =>
        refine Ensures.bind _ (resolvePath_ensures isPath) ?_ And.left
        intro parentId
        cases parentId with
        | none => exact (Ensures.sound_raise id).weaken And.left id
        | some parentId =>
            refine Ensures.perform (World.Created rootId parent name parentId)
              (stable_of_fades World.Resolved.fades) ?_
              fun fileId => mapNew_ensures isPath proper parentId fileId
            rintro world answer later ⟨sound, held⟩ ⟨choice, -, -, served⟩
            obtain ⟨rfl, rfl⟩ := Prod.mk.inj served
            exact .of_known sound (held parentId rfl) proper rfl rfl rfl

theorem mkdir_ensures {parent name : Str} (isPath : IsPath parent) (proper : ProperName name) :
    Ensures (keeping settings rootId operation) (World.Sound rootId)
      (mkdir rootId (join parent name)) (fun _ => World.Sound rootId) := by
  unfold mkdir
  rw [isPath.dirname_join proper, isPath.basename_join proper]
  refine Ensures.silent (fun _ _ => rfl) fun exceeded => ?_
  cases exceeded with
  | true => exact Ensures.sound_raise id
  | false =>
      refine Ensures.bind _ (resolvePath_ensures isPath) ?_ And.left
      intro parentId
      cases parentId with
      | none => exact (Ensures.sound_raise id).weaken And.left id
      | some parentId =>
          refine Ensures.perform (fun answer world => match answer with
            | none => world.Sound rootId
            | some fileId => world.Created rootId parent name parentId fileId)
            (stable_of_fades World.Resolved.fades) ?_ ?_
          · rintro world answer later ⟨sound, held⟩ ⟨choice, -, -, served⟩
            simp only [serve] at served
            split at served
            · obtain ⟨rfl, rfl⟩ := Prod.mk.inj served
              exact sound
            · obtain ⟨rfl, rfl⟩ := Prod.mk.inj served
              exact .of_known sound (held parentId rfl) proper rfl rfl rfl
          · intro answer
            cases answer with
            | none => exact Ensures.sound_raise id
            | some fileId => exact mapNew_ensures isPath proper parentId fileId

/-- A file that is deleted but still cached. -/
structure World.Gone (rootId : NodeId) (path : Str) (fileId : NodeId) (world : World) :
    Prop where
  sound : world.Sound rootId
  unique : ∀ {other}, world.Leads rootId path other → other = fileId
  unlisted : ∀ edge ∈ world.known.edges, edge.fileId ≠ fileId

theorem World.Gone.fades {path : Str} {fileId : NodeId} {world later : World}
    (gone : world.Gone rootId path fileId) (fades : world.Fades later) :
    later.Gone rootId path fileId :=
  ⟨gone.sound.fades fades, fun leads => gone.unique (fades.leads leads),
    fades.known ▸ gone.unlisted⟩

/-- No loaded directory needs the path of a deleted file. -/
theorem World.Gone.invalidate {world : World} {path : Str} {fileId : NodeId}
    (gone : world.Gone rootId path fileId) :
    (world.invalidate path).Sound rootId := by
  refine .of_consistent (gone.sound.consistent.invalidate ?_)
  intro dirId parent name other loaded placed same child
  have isPath := gone.sound.consistent.placedAtPath placed
  have proper : ProperName name :=
    gone.sound.consistent.named _ (world.known.mem_edges_of_child child)
  have mapped := gone.sound.consistent.covered loaded placed child (Option.some_ne_none _).symm
  have leads : world.Leads rootId path other := by
    unfold Leads
    rw [same, if_neg (isPath.join_ne_root proper)]
    exact mapped
  exact gone.unlisted _ (world.known.mem_edges_of_child child) (gone.unique leads)

theorem deleteNode_ensures {path : Str} (isPath : IsPath path) :
    Ensures (keeping settings rootId operation) (World.Sound rootId)
      (deleteNode rootId path) (fun _ => World.Sound rootId) := by
  refine Ensures.bind _ (resolvePath_ensures isPath) ?_ And.left
  intro fileId
  cases fileId with
  | none => exact (Ensures.sound_raise id).weaken And.left id
  | some fileId =>
      refine Ensures.perform (fun answer world => match answer with
        | none => world.Gone rootId path fileId
        | some _ => world.Sound rootId)
        (stable_of_fades World.Resolved.fades) ?_ ?_
      · rintro world answer later ⟨sound, held⟩ ⟨choice, -, noNamesake, served⟩
        simp only [serve] at served
        split at served
        · obtain ⟨rfl, rfl⟩ := Prod.mk.inj served
          exact sound
        · obtain ⟨rfl, rfl⟩ := Prod.mk.inj served
          refine ⟨.of_consistent (sound.consistent.delete rfl rfl rfl noNamesake),
            fun leads => (held fileId rfl).unique (leads.congr rfl), ?_⟩
          intro edge member
          simpa using List.of_mem_filter member
      · intro answer
        cases answer with
        | some errno => exact Ensures.sound_raise id
        | none =>
            refine Ensures.last (fun _ => World.Sound rootId)
              (stable_of_fades World.Gone.fades) ?_
              (fun _ => stable_of_fades World.Sound.fades) id
            rintro world answer later gone ⟨choice, -, -, served⟩
            obtain ⟨-, rfl⟩ := Prod.mk.inj served
            exact gone.invalidate

theorem unlink_ensures {path : Str} (isPath : IsPath path) :
    Ensures (keeping settings rootId operation) (World.Sound rootId)
      (unlink rootId path) (fun _ => World.Sound rootId) := by
  refine Ensures.silent (fun _ _ => rfl) fun isLocal => ?_
  cases isLocal with
  | true => exact Ensures.silent (fun _ _ => rfl) fun _ => Ensures.sound_pure id
  | false =>
      refine Ensures.silent (fun _ _ => rfl) fun exceeded => ?_
      cases exceeded with
      | true => exact Ensures.sound_raise id
      | false => exact deleteNode_ensures isPath

theorem readdir_ensures {path : Str} (isPath : IsPath path) :
    Ensures (keeping settings rootId operation) (World.Sound rootId)
      (readdir rootId path) (fun _ => World.Sound rootId) := by
  refine Ensures.bind _ (resolvePath_ensures isPath) ?_ And.left
  intro fileId
  cases fileId with
  | none => exact (Ensures.sound_raise id).weaken And.left id
  | some fileId =>
      have apart : ∀ key, (fun _ : Str => False) key → dirname key ≠ path :=
        fun _ impossible => impossible.elim
      refine Ensures.bind (fun _ => World.Sound rootId)
        ((loadChildren_ensures isPath apart False).weaken
          (fun holds => ⟨⟨holds.1, holds.2 fileId rfl⟩, False.elim⟩) And.left) ?_ id
      intro _
      refine Ensures.silent (fun _ _ => rfl) fun children => ?_
      show Ensures _ _ (if _ then _ else _) _
      split
      · exact Ensures.sound_pure id
      · exact Ensures.sound_pure id

theorem invalidate_ensures {α : Type} {old new path : Str} {next : Unit → Op α}
    {after : Except Errno α → World → Prop}
    (rest : ∀ answer, Ensures (keeping settings rootId (.rename old new)) (World.Sound rootId)
      (next answer) after) :
    Ensures (keeping settings rootId (.rename old new)) (World.Sound rootId)
      (perform (Request.invalidatePath path) >>= next) after := by
  refine Ensures.perform (fun _ => World.Sound rootId) (stable_of_fades World.Sound.fades) ?_ rest
  rintro world answer later sound ⟨choice, -, spare, served⟩
  obtain ⟨-, rfl⟩ := Prod.mk.inj served
  refine .of_consistent (sound.consistent.invalidate ?_)
  intro dirId parent name fileId loaded placed same child
  have proper : ProperName name :=
    sound.consistent.named _ (world.known.mem_edges_of_child child)
  rw [spare.1 dirId parent name loaded placed proper same] at child
  cases child

theorem renameOnDrive_ensures {old oldName new newName : Str} (oldIsPath : IsPath old)
    (oldProper : ProperName oldName) (newIsPath : IsPath new) (newProper : ProperName newName)
    {first second : Str} :
    Ensures (keeping settings rootId (.rename first second)) (World.Sound rootId)
      (renameOnDrive rootId (join old oldName) (join new newName))
      (fun _ => World.Sound rootId) := by
  unfold renameOnDrive
  rw [oldIsPath.dirname_join oldProper, newIsPath.dirname_join newProper,
    newIsPath.basename_join newProper]
  refine Ensures.silent (fun _ _ => rfl) fun exceeded => ?_
  cases exceeded with
  | true => exact Ensures.sound_raise id
  | false =>
      refine Ensures.bind (fun _ => World.Sound rootId)
        ((resolvePath_ensures (oldIsPath.child oldProper)).weaken id And.left) ?_ id
      intro fileId
      refine Ensures.bind (fun _ => World.Sound rootId)
        ((resolvePath_ensures newIsPath).weaken id And.left) ?_ id
      intro newParentId
      cases fileId with
      | none => exact Ensures.sound_raise id
      | some fileId =>
          cases newParentId with
          | none => exact Ensures.sound_raise id
          | some newParentId =>
              refine Ensures.bind (fun _ => World.Sound rootId)
                ((resolvePath_ensures oldIsPath).weaken id And.left) ?_ id
              intro oldParentId
              refine Ensures.perform (fun _ => World.Sound rootId)
                (stable_of_fades World.Sound.fades) ?_ ?_
              · rintro world answer later sound ⟨choice, -, ⟨notLoaded, noNamesake⟩, served⟩
                simp only [serve] at served
                split at served
                · obtain ⟨-, rfl⟩ := Prod.mk.inj served
                  exact sound
                · obtain ⟨-, rfl⟩ := Prod.mk.inj served
                  exact .of_consistent
                    (sound.consistent.move rfl rfl rfl notLoaded noNamesake newProper)
              · intro updated
                cases updated with
                | false => exact Ensures.sound_raise id
                | true =>
                    exact invalidate_ensures fun _ => invalidate_ensures fun _ =>
                      Ensures.sound_pure id

theorem rename_ensures {old oldName new newName : Str} (oldIsPath : IsPath old)
    (oldProper : ProperName oldName) (newIsPath : IsPath new) (newProper : ProperName newName)
    {first second : Str} :
    Ensures (keeping settings rootId (.rename first second)) (World.Sound rootId)
      (rename rootId (join old oldName) (join new newName)) (fun _ => World.Sound rootId) := by
  refine Ensures.silent (fun _ _ => rfl) fun isLocal => ?_
  cases isLocal with
  | false => exact renameOnDrive_ensures oldIsPath oldProper newIsPath newProper
  | true =>
      show Ensures _ _ (if isTemporaryEditorSwapFile _ then _ else _) _
      split
      · exact Ensures.silent (fun _ _ => rfl) fun _ =>
          Ensures.silent (fun _ _ => rfl) fun _ => Ensures.sound_pure id
      · refine Ensures.bind (fun _ => World.Sound rootId)
          ((resolvePath_ensures (newIsPath.child newProper)).weaken id And.left) ?_ id
        intro newId
        cases newId with
        | none => exact renameOnDrive_ensures oldIsPath oldProper newIsPath newProper
        | some newId =>
            refine Ensures.silent (fun _ _ => rfl) fun copied => ?_
            cases copied with
            | false => exact Ensures.sound_raise id
            | true =>
                refine Ensures.bind (fun _ => World.Sound rootId)
                  (unlink_ensures (oldIsPath.child oldProper)) ?_ id
                intro _
                exact invalidate_ensures fun _ => Ensures.sound_pure id

theorem IsChildPath.exists_join {path : Str} (isChildPath : IsChildPath path) :
    ∃ parent name, IsPath parent ∧ ProperName name ∧ path = join parent name := by
  obtain ⟨isPath, notRoot⟩ := isChildPath
  cases isPath with
  | root => exact absurd rfl notRoot
  | child parent proper => exact ⟨_, _, parent, proper, rfl⟩

/-- Every operation that keeps to what the flag relies on preserves the
invariant. -/
theorem Operation.ensures (operation : Operation) (proper : operation.Proper) :
    Ensures (keeping settings rootId operation) (World.Sound rootId)
      (operation.program rootId) (fun _ => World.Sound rootId) := by
  cases operation with
  | resolve path =>
      exact Ensures.bind (fun _ => World.Sound rootId)
        ((resolvePath_ensures proper).weaken id And.left) (fun _ => Ensures.sound_pure id) id
  | readdir path =>
      exact Ensures.bind (fun _ => World.Sound rootId) (readdir_ensures proper)
        (fun _ => Ensures.sound_pure id) id
  | create path =>
      obtain ⟨parent, name, isPath, properName, rfl⟩ := IsChildPath.exists_join proper
      exact createFile_ensures isPath properName
  | mkdir path =>
      obtain ⟨parent, name, isPath, properName, rfl⟩ := IsChildPath.exists_join proper
      exact mkdir_ensures isPath properName
  | rename old new =>
      obtain ⟨parent, name, isPath, properName, rfl⟩ := IsChildPath.exists_join proper.1
      obtain ⟨newParent, newName, newIsPath, newProper, rfl⟩ :=
        IsChildPath.exists_join proper.2
      exact rename_ensures isPath properName newIsPath newProper
  | unlink path => exact unlink_ensures proper.1
  | rmdir path => exact deleteNode_ensures proper.1

end Triples

/-! ## Runs -/

theorem World.sound_start (settings : CacheSettings) (rootId : NodeId) (now : Nat)
    (drive : DriveTree) : (World.start settings rootId now drive).Sound rootId := by
  refine .of_consistent ⟨?_, ?_, ?_, ?_⟩
  · intro edge member
    cases member
  · intro dirId path placed
    cases placed
  · intro dirId path name fileId loaded
    cases loaded
  · intro path dirId _ _ loaded
    cases loaded

/-- Every run that keeps to what the flag relies on preserves the invariant. -/
theorem World.Sound.of_reached {settings : CacheSettings} {rootId : NodeId}
    {start finish : World} (sound : start.Sound rootId)
    (reached : Relation.ReflTransGen
      (Performs settings rootId (Keeps rootId) KeepsPassing) start finish) :
    finish.Sound rootId := by
  induction reached with
  | refl => exact sound
  | tail _ performed induction =>
      obtain ⟨operation, result, proper, execution⟩ := performed
      exact operation.ensures proper induction execution

/-- A loaded directory has all its known children mapped below the path. -/
def World.ChildrenMapped (world : World) (path : Str) (dirId : NodeId) : Prop :=
  world.Loaded dirId → ∀ name fileId, world.known.child dirId name = some fileId →
    world.mapped (join path name) = some fileId

theorem World.Held.childrenMapped {rootId : NodeId} {world : World} {path : Str}
    {dirId : NodeId} (held : world.Held rootId path dirId) (sound : world.Sound rootId) :
    world.ChildrenMapped path dirId := by
  intro loaded name fileId child
  exact sound.consistent.covered loaded (held.placed loaded) child (Option.some_ne_none _).symm

/-- In a run that keeps to what it relies on the flag never hides a file: below
every path that leads to a loaded directory, or is resolved to one, its children
are mapped, and what a resolution does not find does not exist. -/
theorem loadedFlag_hidesNothing {settings : CacheSettings} {rootId : NodeId} {now : Nat}
    {drive : DriveTree} {finish : World}
    (reached : Relation.ReflTransGen (Performs settings rootId (Keeps rootId) KeepsPassing)
      (World.start settings rootId now drive) finish) :
    (∀ path dirId, IsPath path → finish.Leads rootId path dirId →
      finish.ChildrenMapped path dirId) ∧
    (∀ path dirId after, IsPath path → Executes (keeping settings rootId (.resolve path)) finish
      (resolvePath rootId path) (.ok (some dirId)) after → after.ChildrenMapped path dirId) ∧
    ∀ path after, IsPath path → Executes (keeping settings rootId (.resolve path)) finish
      (resolvePath rootId path) (.ok none) after →
        NotThere (keeping settings rootId (.resolve path)) rootId finish path after := by
  have sound := (World.sound_start settings rootId now drive).of_reached reached
  refine ⟨?_, ?_, ?_⟩
  · intro path dirId isPath leads
    exact (sound.consistent.held isPath leads).childrenMapped sound
  · intro path dirId after isPath execution
    have resolved := resolvePath_ensures isPath sound execution
    exact (resolved.2 dirId rfl).childrenMapped resolved.1
  · intro path after isPath execution
    exact notThere_of_resolvePath isPath sound execution

/-! ## A file that a rename hides -/

/-- The default lifetime and size. -/
def defaultSettings : CacheSettings := ⟨60, 10000, by decide⟩

def sampleRoot : NodeId := ⟨['r'], by decide⟩

def sampleFile : NodeId := ⟨['f'], by decide⟩

/-- The file `/a` is all there is on Drive. -/
def sampleDrive : DriveTree := ⟨[⟨sampleRoot, ['a'], sampleFile⟩]⟩

/-- The mount after `getattr("/a")`. -/
def sampleListed : World :=
  (Program.play (serve defaultSettings calm) (World.start defaultSettings sampleRoot 0 sampleDrive)
    ((Operation.resolve ['/', 'a']).program sampleRoot)).2

/-- The mount after `rename("/a", "/b")`. -/
def sampleRenamed : World :=
  (Program.play (serve defaultSettings calm) sampleListed
    ((Operation.rename ['/', 'a'] ['/', 'b']).program sampleRoot)).2

theorem isPath_single {name : Str} (proper : ProperName name) : IsPath ('/' :: name) :=
  join_root proper ▸ .child .root proper

theorem Performs.of_calm {rootId : NodeId}
    {allows : Operation → World → Request → Choice → Prop} {passes : World → Nat → Prop}
    {operation : Operation} {world : World} (proper : operation.Proper)
    (passed : Program.Meets
      (fun world request => calm.Valid defaultSettings world request ∧
        allows operation world request calm)
      (serve defaultSettings calm) world (operation.program rootId)) :
    Performs defaultSettings rootId allows passes world
      (Program.play (serve defaultSettings calm) world (operation.program rootId)).2 := by
  refine ⟨operation, _, proper, Executes.of_meets ?_ passed⟩
  intro world request fine
  exact ⟨calm, fine.1, fine.2, rfl⟩

theorem loadedFlag_hides_renamed :
    ¬ ∀ (settings : CacheSettings) (rootId : NodeId) (now : Nat) (drive : DriveTree)
      (finish : World),
      Relation.ReflTransGen (Performs settings rootId (fun _ _ _ _ => True) (fun _ _ => True))
        (World.start settings rootId now drive) finish →
          ∀ path dirId, IsPath path → finish.Leads rootId path dirId →
            finish.ChildrenMapped path dirId := by
  intro always
  have isA : IsChildPath ['/', 'a'] := ⟨isPath_single (by decide), by decide⟩
  have isB : IsChildPath ['/', 'b'] := ⟨isPath_single (by decide), by decide⟩
  have listed : Performs defaultSettings sampleRoot (fun _ _ _ _ => True) (fun _ _ => True)
      (World.start defaultSettings sampleRoot 0 sampleDrive) sampleListed :=
    .of_calm isA.1 (by decide)
  have renamed : Performs defaultSettings sampleRoot (fun _ _ _ _ => True) (fun _ _ => True)
      sampleListed sampleRenamed := .of_calm ⟨isA, isB⟩ (by decide)
  have mapped := always _ _ _ _ _ ((Relation.ReflTransGen.single listed).tail renamed)
    ['/'] sampleRoot .root rfl (by decide) ['b'] sampleFile (by decide)
  exact absurd mapped (by decide)

theorem leads_sampleRoot {world : World} {other : Str}
    (cache : world.cache = PathCache.mapPathToNodeId defaultSettings none
      (World.start defaultSettings sampleRoot 0 sampleDrive).cache ['/', 'a'] sampleFile)
    (leads : world.Leads sampleRoot other sampleRoot) : other = ['/'] := by
  by_contra notRoot
  unfold World.Leads World.mapped at leads
  rw [if_neg notRoot, cache, PathCache.resolve_mapPathToNodeId] at leads
  split at leads
  · cases leads
  · rw [if_neg (by simp), World.start, PathCache.resolve_mapPathToNodeId, if_neg notRoot] at leads
    cases leads

theorem loadedFlag_hidesNothing_listed :
    sampleListed.Loaded sampleRoot ∧ sampleListed.ChildrenMapped ['/'] sampleRoot := by
  have isA : IsPath ['/', 'a'] := isPath_single (by decide)
  have listed : Performs defaultSettings sampleRoot (Keeps sampleRoot) KeepsPassing
      (World.start defaultSettings sampleRoot 0 sampleDrive) sampleListed := by
    refine Performs.of_calm isA ?_
    refine ⟨⟨trivial, trivial⟩, ⟨trivial, trivial⟩, ⟨trivial, trivial⟩, ⟨trivial, ?_⟩,
      ⟨by decide, ?_, ?_⟩, ⟨by decide, ?_⟩, ⟨trivial, trivial⟩, trivial⟩
    · show ∀ item ∈ sampleDrive.listChildren sampleRoot, ProperName item.name
      decide
    · intro victim evicted
      cases evicted
    · intro loaded
      cases loaded
    · intro load isLoading other _ leads
      cases isLoading
      exact leads_sampleRoot rfl leads
  exact ⟨by decide, (loadedFlag_hidesNothing (.single listed)).1 ['/'] sampleRoot .root rfl⟩

end FuseDrive.Fuse
