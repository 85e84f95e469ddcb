import FuseDrive.Concurrency.Deadlock
import FuseDrive.Concurrency.FalseAlarm

/-!
# Exclusive scopes only

The file system itself only opens exclusive scopes, of keys that are never
empty.  For these the detection is exact: no cycle of blocked threads is ever
reached, and a request is rejected only if waiting for it would close one.
-/

namespace FuseDrive.Concurrency

open Transition

variable {τ : Type} [DecidableEq τ]

/-- Every scope is exclusive and its key is not empty. -/
def ExclusiveOnly (_ : State τ) : Label τ → Prop
  | .enter _ key isWrite => isWrite = true ∧ key ≠ []
  | _ => True

/-- The thread is blocked in `acquire_write` on a key that the other one
holds. -/
def BlockedBy (state : State τ) (thread other : τ) : Prop :=
  ∃ scope, (state.threads thread).point = .blocked scope ∧ scope.isWrite = true ∧
    ∃ held ∈ (state.threads other).held, held.key = scope.key

/-- A thread whose check has passed calls `acquire_read` or `acquire_write`. -/
def Acquires (state : State τ) : Label τ → Prop
  | .resume thread => ∃ scope, (state.threads thread).point = .marked scope
  | _ => False

/-- If the request waited, then it would be on a cycle of blocked threads as
soon as the threads that have passed their checks wait too. -/
def ClosesCycle (state : State τ) (thread : τ) (scope : Scope) : Prop :=
  ∃ later, Reaches State.step Acquires (state.mark thread scope) later ∧
    Relation.TransGen (BlockedBy later) thread thread

/-! ## What exclusive scopes leave out -/

/-- Every scope that a thread refers to is exclusive and its key is not
empty. -/
def AllExclusive (state : State τ) : Prop :=
  ∀ thread, ∀ scope ∈ (state.threads thread).referring, scope.isWrite = true ∧ scope.key ≠ []

theorem State.referring_of_step {state after : State τ} {label : Label τ}
    (stepped : state.step label = some after) {thread : τ} {scope : Scope}
    (member : scope ∈ (after.threads thread).referring) :
    scope ∈ (state.threads thread).referring ∨
      label = .enter thread scope.key scope.isWrite := by
  by_cases same : thread = label.thread
  · subst same
    have kept : ∀ value : Thread, (after.threads label.thread) = value →
        (∀ entered ∈ value.referring, entered ∈ (state.threads label.thread).referring) →
        scope ∈ (state.threads label.thread).referring ∨
          label = .enter label.thread scope.key scope.isWrite :=
      fun value isValue subset => .inl (subset scope (isValue ▸ member))
    cases State.stepped stepped with
    | joined running found | created running absent =>
        simp only [State.setPoint, State.setThread, Label.thread, Function.update_self,
          Thread.referring, List.mem_cons] at member
        rcases member with rfl | before
        · exact .inr rfl
        · exact .inl (by simpa [Thread.referring, Label.thread, running] using before)
    | left inside =>
        refine kept _ (Function.update_self ..) ?_
        simp [Thread.referring, Label.thread, inside]
    | rejected located raised =>
        refine kept _ (Function.update_self ..) ?_
        simp [Thread.referring, Label.thread, located]
    | marked located passed =>
        refine kept _ (Function.update_self ..) ?_
        simp [Thread.referring, Label.thread, located]
    | entered marked admits =>
        refine kept _ (Function.update_self ..) ?_
        simp [Thread.referring, Label.thread, State.setObject, marked]
    | queued marked refuses =>
        refine kept _ (Function.update_self ..) ?_
        simp [Thread.referring, Label.thread, State.setObject, marked]
    | admitted blocked admits =>
        refine kept _ (Function.update_self ..) ?_
        simp [Thread.referring, Label.thread, State.setObject, blocked]
    | registered acquired =>
        refine kept _ (Function.update_self ..) ?_
        simp [Thread.referring, Label.thread, acquired]
    | released unregistered =>
        refine kept _ (Function.update_self ..) ?_
        simp [Thread.referring, Label.thread, State.setObject, unregistered]
    | unmarked released =>
        refine kept _ (Function.update_self ..) ?_
        simp [Thread.referring, Label.thread, released]
    | dropped last releases =>
        obtain ⟨_, _, threads, _⟩ := State.releaseRef_spec releases
        refine kept _ (Function.update_self ..) ?_
        rcases last with rejected | unmarked
        · simp only [Thread.referring, Label.thread, threads, rejected]
          exact fun _ => List.mem_cons_of_mem _
        · simp only [Thread.referring, Label.thread, threads, unmarked]
          exact fun _ => List.mem_cons_of_mem _
  · rw [State.threads_of_step stepped same] at member
    exact .inl member

theorem AllExclusive.step {state after : State τ} {label : Label τ} (exclusive : AllExclusive state)
    (allowed : ExclusiveOnly state label) (stepped : state.step label = some after) :
    AllExclusive after := by
  intro thread scope member
  rcases State.referring_of_step stepped member with before | rfl
  · exact exclusive thread scope before
  · exact allowed

omit [DecidableEq τ] in
theorem Thread.referring_of_mark {thread : Thread} {scope : Scope}
    (mark : thread.mark = some scope) : scope ∈ thread.referring := by
  obtain ⟨scopes, point⟩ := thread
  cases point <;> cases mark <;> simp [Thread.referring]

omit [DecidableEq τ] in
theorem Thread.mark_of_request {thread : Thread} {scope : Scope}
    (request : thread.request = some scope) : thread.mark = some scope := by
  obtain ⟨scopes, point⟩ := thread
  cases point <;> cases request <;> rfl

theorem AllExclusive.crossing {state : State τ} (exclusive : AllExclusive state)
    (label : Label τ) : Crossing state label := by
  cases label with
  | enter | leave => trivial
  | resume thread =>
      simp only [Crossing]
      split
      · rename_i scope located
        refine ⟨fun isRead => ?_, fun owner _ asked isMark isRead => ?_⟩
        · have isWrite := (exclusive thread scope (by simp [Thread.referring, located])).1
          rw [isRead] at isWrite
          cases isWrite
        · have isWrite := (exclusive owner asked (Thread.referring_of_mark isMark)).1
          rw [isRead] at isWrite
          cases isWrite
      · trivial

theorem AllExclusive.guarded {state : State τ} (exclusive : AllExclusive state)
    (recorded : Recorded state) (label : Label τ) : Guarded state label := by
  cases label with
  | enter | leave => trivial
  | resume thread =>
      simp only [Guarded]
      split
      · intro owner _ waits
        obtain ⟨asked, isMark, isEmpty⟩ := recorded.waits_iff.mp waits
        exact (exclusive owner asked (Thread.referring_of_mark isMark)).2 isEmpty
      · rename_i scope marked
        intro reenters
        have isWrite := (exclusive thread scope (by simp [Thread.referring, marked])).1
        rw [reenters.1] at isWrite
        cases isWrite
      · trivial

/-! ## The cycle that a request would close -/

theorem Stuck.settles {state : State τ} {members : Set τ} (stuck : Stuck state members)
    (consistent : Consistent state) (threads : List τ) :
    ∃ later, Reaches State.step Acquires state later ∧ Stuck later members ∧ Consistent later ∧
      (∀ thread ∈ members, Waits (state.threads thread) (later.threads thread)) ∧
      ∀ thread ∈ threads, thread ∈ members →
        ∃ scope, (later.threads thread).point = .blocked scope := by
  induction threads with
  | nil => exact ⟨state, .refl, stuck, consistent, fun _ _ => .refl _, by simp⟩
  | cons first threads induction =>
      obtain ⟨later, reached, stuck, consistent, waits, blocked⟩ := induction
      by_cases marked : first ∈ members ∧ ∃ scope, (later.threads first).point = .marked scope
      · obtain ⟨member, scope, isMarked⟩ := marked
        have enabled : ∃ next, later.step (.resume first) = some next := by
          simp only [State.step, State.resume, isMarked]
          split
          · exact ⟨_, rfl⟩
          · exact ⟨_, rfl⟩
        obtain ⟨next, stepped⟩ := enabled
        have kept := fun thread (isMember : thread ∈ members) =>
          stuck.waits consistent stepped isMember
        refine ⟨next, reached.tail ⟨.resume first, ⟨scope, isMarked⟩, stepped⟩, stuck.step consistent stepped,
          consistent.step stepped,
          fun thread isMember => (waits thread isMember).trans (kept thread isMember), ?_⟩
        intro thread listed isMember
        rcases List.mem_cons.mp listed with rfl | later
        · obtain ⟨asked, _, begins⟩ :=
            stuck.begins consistent (show (Label.resume thread).thread ∈ members from member) stepped
          exact ⟨asked, congrArg Thread.point begins⟩
        · obtain ⟨asked, isBlocked⟩ := blocked thread later isMember
          exact ⟨asked, (kept thread isMember).blocked asked isBlocked⟩
      · refine ⟨later, reached, stuck, consistent, waits, ?_⟩
        intro thread listed isMember
        rcases List.mem_cons.mp listed with rfl | also
        · have asks := stuck.asks isMember
          generalize isThread : later.threads thread = value at asks marked
          obtain ⟨scopes, point⟩ := value
          cases point <;> cases asks
          · exact absurd ⟨isMember, _, rfl⟩ marked
          · exact ⟨_, rfl⟩
        · exact blocked thread also isMember

omit [DecidableEq τ] in
theorem Thread.scope_of_blocked {thread : Thread} {scope asked : Scope}
    (blocked : thread.point = .blocked scope) (request : thread.request = some asked) :
    thread.point = .blocked asked := by
  simp only [Thread.request, blocked, Option.some.injEq] at request
  rw [← request, blocked]

omit [DecidableEq τ] in
/-- Once they wait, a member that waits for another one is blocked by it. -/
theorem AllExclusive.blockedBy {state later : State τ} {members : Set τ} {thread other : τ}
    (exclusive : AllExclusive state) (stuck : Stuck state members)
    (waits : ∀ thread ∈ members, Waits (state.threads thread) (later.threads thread))
    (blocked : ∃ scope, (later.threads thread).point = .blocked scope)
    (member : thread ∈ members) (isMember : other ∈ members)
    (waitsFor : WaitsFor state thread other) : BlockedBy later thread other := by
  obtain ⟨asked, request, obstructs⟩ := waitsFor
  obtain ⟨scope, isBlocked⟩ := blocked
  have point := Thread.scope_of_blocked isBlocked ((waits thread member).request.trans request)
  have isWrite := (exclusive thread asked (Thread.referring_of_request request)).1
  have kept : ∀ held ∈ (state.threads other).held, held ∈ (later.threads other).held := by
    obtain ⟨_, asks⟩ := Option.isSome_iff_exists.mp (stuck.asks isMember)
    rw [Thread.held_of_request asks,
      Thread.held_of_request ((waits other isMember).request.trans asks),
      (waits other isMember).scopes]
    exact fun _ => id
  refine ⟨asked, point, isWrite, ?_⟩
  cases obstructs with
  | writing held same _ => exact ⟨_, kept _ held, same⟩
  | reading held same _ => exact ⟨_, kept _ held, same⟩
  | queued _ _ _ isRead =>
      rw [isWrite] at isRead
      cases isRead

/-- A request that the check rejects would close a cycle of blocked threads. -/
theorem AllExclusive.closesCycle {state : State τ} {thread : τ} {scope : Scope}
    (exclusive : AllExclusive state) (consistent : Consistent state) (recorded : Recorded state)
    (located : (state.threads thread).point = .located scope)
    (raised : state.raises thread scope = true) : ClosesCycle state thread scope := by
  have cycle := waitsForItself_of_raises consistent recorded located (exclusive.crossing _) raised
  obtain ⟨stuck, member⟩ := Stuck.of_cycle cycle
  have marked : AllExclusive (state.mark thread scope) := by
    intro other asked isReferring
    by_cases same : other = thread
    · subst same
      exact exclusive other asked (by simpa [Thread.referring, located] using isReferring)
    · rw [mark_threads_of_ne same] at isReferring
      exact exclusive other asked isReferring
  obtain ⟨later, reached, _, _, waits, blocked⟩ :=
    stuck.settles (consistent.mark located) (state.waiting.insert thread scope.key).keys
  have isKey : ∀ other, ((state.mark thread scope).threads other).request.isSome →
      other ∈ (state.waiting.insert thread scope.key).keys := by
    intro other asks
    refine AList.mem_keys.mp ((AList.mem_insert _).mpr ?_)
    by_cases same : other = thread
    · exact .inl same
    · rw [mark_threads_of_ne same] at asks
      obtain ⟨asked, request⟩ := Option.isSome_iff_exists.mp asks
      have isWaiting : state.waiting.lookup other = some asked.key :=
        recorded.waits_iff.mpr ⟨asked, Thread.mark_of_request request, rfl⟩
      exact .inr (AList.lookup_isSome.mp (by simp [isWaiting]))
  refine ⟨later, reached, ?_⟩
  -- along the cycle each thread waits for a member, so that each is blocked by the next
  have along : ∀ other, Relation.TransGen (WaitsFor (state.mark thread scope)) thread other →
      Relation.TransGen (WaitsFor (state.mark thread scope)) other thread →
      Relation.TransGen (BlockedBy later) thread other := by
    intro other path back
    induction path with
    | @single other waitsFor =>
        exact .single (marked.blockedBy stuck waits (blocked thread (isKey _ (stuck.asks member))
          member) member ⟨.single waitsFor, back⟩ waitsFor)
    | @tail middle other path waitsFor induction =>
        have between : Relation.TransGen (WaitsFor (state.mark thread scope)) middle thread :=
          .head waitsFor back
        have isMiddle := (⟨path, between⟩ : _ ∧ _)
        exact (induction between).tail (marked.blockedBy stuck waits
          (blocked middle (isKey _ (stuck.asks isMiddle)) isMiddle) isMiddle
          ⟨path.tail waitsFor, back⟩ waitsFor)
  exact along thread cycle cycle

/-! ## Exactness -/

omit [DecidableEq τ] in
theorem Deadlocked.of_cycle {state : State τ} {thread : τ}
    (cycle : Relation.TransGen (BlockedBy state) thread thread) :
    ∃ members, Deadlocked state members := by
  refine ⟨{other | Relation.TransGen (BlockedBy state) thread other ∧
    Relation.TransGen (BlockedBy state) other thread}, ⟨thread, cycle, cycle⟩, ?_⟩
  rintro party ⟨before, behind⟩
  obtain ⟨next, blocks, rest⟩ := Relation.TransGen.head'_iff.mp behind
  have onward : Relation.TransGen (BlockedBy state) next thread := by
    rcases Relation.reflTransGen_iff_eq_or_transGen.mp rest with rfl | path
    · exact cycle
    · exact path
  have path := before.tail blocks
  obtain ⟨scope, blocked, isWrite, held, isHeld, same⟩ := blocks
  exact ⟨scope, blocked, next, ⟨path, onward⟩, .reading isHeld same isWrite⟩

/-- What holds on runs of exclusive scopes. -/
structure Exactly (state : State τ) : Prop where
  unentangled : Unentangled state
  exclusive : AllExclusive state

/-- Detection is exact for exclusive scopes. -/
theorem exactDetection_of_reaches {state : State τ}
    (reached : Reaches State.step ExclusiveOnly {} state) :
    Acyclic (BlockedBy state) ∧
      ∀ thread scope, (state.threads thread).point = .located scope →
        state.raises thread scope = true → ClosesCycle state thread scope := by
  have initial : Exactly ({} : State τ) := ⟨.initial, fun _ _ member => by cases member⟩
  obtain ⟨unentangled, exclusive⟩ : Exactly state := by
    refine reached.invariant (fun before allowed stepped => ?_) initial
    have guarded := before.exclusive.guarded before.unentangled.recorded
    exact ⟨before.unentangled.step (guarded _) stepped, before.exclusive.step allowed stepped⟩
  refine ⟨fun thread cycle => ?_, fun thread scope located raised => ?_⟩
  · obtain ⟨members, deadlocked⟩ := Deadlocked.of_cycle cycle
    exact unentangled.not_deadlocked members deadlocked
  · exact exclusive.closesCycle unentangled.consistent unentangled.recorded located raised

/-- Two threads that take two keys in opposite orders; the second is blocked
when the first is about to be checked. -/
def oppositeOrders : List (Label Nat) :=
  .exclusiveLock 0 ['A'] :: List.replicate 3 (.resume 0) ++
    .exclusiveLock 1 ['B'] :: List.replicate 3 (.resume 1) ++
    .exclusiveLock 1 ['A'] :: List.replicate 1 (.resume 1) ++ [.exclusiveLock 0 ['B']]

theorem exactDetection_of_reaches_oppositeOrders :
    ∃ state, run State.step ({} : State Nat) oppositeOrders = some state ∧
      Acyclic (BlockedBy state) ∧ state.raises 0 ⟨['B'], true, 1⟩ = true ∧
      ClosesCycle state 0 ⟨['B'], true, 1⟩ := by
  obtain ⟨state, executed⟩ := Option.isSome_iff_exists.mp
    (show (run State.step ({} : State Nat) oppositeOrders).isSome from rfl)
  have checked : (run State.step ({} : State Nat) oppositeOrders).map
      (fun state => ((state.threads 0).point, state.raises 0 ⟨['B'], true, 1⟩)) =
        some (.located ⟨['B'], true, 1⟩, true) := rfl
  simp only [executed, Option.map_some, Option.some.injEq, Prod.mk.injEq] at checked
  have along : AllowedAlong State.step ExclusiveOnly ({} : State Nat) oppositeOrders := by
    refine .of_forall fun label member _ => ?_
    cases label with
    | enter thread key isWrite =>
        simp [oppositeOrders, Label.exclusiveLock] at member
        rcases member with ⟨rfl, rfl, rfl⟩ | ⟨rfl, rfl, rfl⟩ | ⟨rfl, rfl, rfl⟩ | ⟨rfl, rfl, rfl⟩
        all_goals exact ⟨rfl, by simp⟩
    | leave | resume => trivial
  have exact := exactDetection_of_reaches (Reaches.of_run along executed)
  exact ⟨state, executed, exact.1, checked.2, exact.2 0 _ checked.1 checked.2⟩

end FuseDrive.Concurrency
