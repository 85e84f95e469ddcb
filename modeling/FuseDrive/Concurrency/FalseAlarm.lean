import FuseDrive.Concurrency.WaitGraph

/-!
# False alarms

The search goes from a waiting thread to every owner of the key it waits for.
A thread that asks to write waits for all of them, but a reader waits for
another reader only behind a queued writer, and a thread that has been admitted
waits for nobody.  When the search crosses no such edge, a request that it
rejects could never have been granted.
-/

namespace FuseDrive.Concurrency

open Transition

variable {τ : Type} [DecidableEq τ]

/-! ## What the check goes through -/

/-- A scope holds the key exclusively or a writer has queued for it. -/
def Contended (state : State τ) (key : Str) : Prop :=
  ∃ thread, Obstructs state key false thread

/-- From a shared request the search goes on to another owner only if the
request really waits for the key. -/
def Crossing (state : State τ) : Label τ → Prop
  | .resume thread =>
      match (state.threads thread).point with
      | .located scope =>
          (scope.isWrite = false → (∃ owner, owner ≠ thread ∧
            Owns state.allocations scope.key owner) → Contended state scope.key) ∧
          ∀ owner, Met state.allocations state.waiting thread scope.key owner →
            ∀ asked, (state.threads owner).mark = some asked → asked.isWrite = false →
              asked.key ≠ [] → (∃ other, other ≠ owner ∧ Owns state.allocations asked.key other) →
              (state.threads owner).request = some asked ∧ Contended state asked.key
      | _ => True
  | _ => True

/-! ## The request that was made anyway -/

/-- If the request were made, the thread would wait, directly or through other
threads, for a scope of its own. -/
def WaitsForItself (state : State τ) (thread : τ) (scope : Scope) : Prop :=
  Relation.TransGen (WaitsFor (state.mark thread scope)) thread thread

/-- If the request were made, it would be waiting ever after. -/
def NeverGranted (state : State τ) (thread : τ) (scope : Scope) : Prop :=
  ∀ later, Reaches State.step (fun _ _ => True) (state.mark thread scope) later →
    (later.threads thread).request = some scope

section Marked

variable {state : State τ} {thread : τ} {scope : Scope}

@[simp] theorem mark_threads_self :
    (state.mark thread scope).threads thread =
      { state.threads thread with point := .marked scope } :=
  Function.update_self ..

theorem mark_threads_of_ne {other : τ} (distinct : other ≠ thread) :
    (state.mark thread scope).threads other = state.threads other :=
  Function.update_of_ne distinct _ _

theorem Obstructs.mark {key : Str} {isWrite : Bool} {other : τ}
    (obstructs : Obstructs state key isWrite other)
    (located : (state.threads thread).point = .located scope) :
    Obstructs (state.mark thread scope) key isWrite other := by
  by_cases same : other = thread
  · subst same
    refine obstructs.congr ?_ ?_
    · simp [Thread.held, located]
    · intro asked blocked
      rw [located] at blocked
      cases blocked
  · refine obstructs.congr ?_ ?_ <;> rw [mark_threads_of_ne same]
    · exact fun _ => id
    · exact fun _ => id

theorem Consistent.mark (consistent : Consistent state)
    (located : (state.threads thread).point = .located scope) :
    Consistent (state.mark thread scope) := by
  refine consistent.idles scope rfl rfl rfl rfl rfl ?_ ?_ ?_ ?_ <;>
    simp [located, Thread.referring, Thread.held, Thread.queued]

/-- A shared request for a contended key waits for every other owner: an
exclusive one is the only one, and a queued writer waits for all. -/
theorem Contended.waitsFor {asks owner : τ} {asked : Scope} (consistent : Consistent state)
    (request : (state.threads asks).request = some asked) (isRead : asked.isWrite = false)
    (contended : Contended state asked.key) (inside : (state.threads owner).Inside asked.key) :
    Relation.TransGen (WaitsFor state) asks owner := by
  obtain ⟨entered, held, same⟩ := inside.held
  obtain ⟨holder, obstructs⟩ := contended
  cases obstructs with
  | @writing exclusive isHeld isKey isWrite =>
      have alone := consistent.exclusion holder exclusive isHeld isWrite owner
      have positive : 0 < (state.threads owner).held.countP
          fun entered => entered.key = exclusive.key :=
        List.countP_pos_iff.mpr ⟨entered, held, by simp [same, isKey]⟩
      have isHolder : owner = holder := by
        by_contra distinct
        rw [alone, if_neg distinct] at positive
        exact Nat.lt_irrefl 0 positive
      subst isHolder
      exact .single ⟨asked, request, .writing isHeld isKey isWrite⟩
  | reading _ _ request => cases request
  | @queued writer blocked isKey isWrite _ =>
      refine .tail (b := holder) (.single ⟨asked, request, ?_⟩) ⟨writer, ?_, ?_⟩
      · exact .queued blocked isKey isWrite isRead
      · simp [Thread.request, blocked]
      · exact .reading held (same.trans isKey.symm) isWrite

/-- An edge that the search crosses is one or two threads waiting. -/
theorem waitsFor_of_crosses {asks owner : τ} {asked : Scope} (consistent : Consistent state)
    (request : (state.threads asks).request = some asked)
    (crossing : asked.isWrite = false → Contended state asked.key)
    (inside : (state.threads owner).Inside asked.key) :
    Relation.TransGen (WaitsFor state) asks owner := by
  cases isWrite : asked.isWrite with
  | false => exact (crossing isWrite).waitsFor consistent request isWrite inside
  | true =>
      obtain ⟨entered, held, same⟩ := inside.held
      exact .single ⟨asked, request, .reading held same isWrite⟩

/-- A marked thread in whose way another owner stands has not been admitted to
write. -/
theorem Consistent.request_of_mark {asks owner : τ} {asked : Scope} (consistent : Consistent state)
    (mark : (state.threads asks).mark = some asked) (isWrite : asked.isWrite = true)
    (distinct : owner ≠ asks) (inside : (state.threads owner).Inside asked.key) :
    (state.threads asks).request = some asked := by
  generalize isThread : state.threads asks = waiting at mark
  obtain ⟨scopes, point⟩ := waiting
  cases point <;> cases mark
  case marked => rfl
  case blocked => rfl
  case acquired =>
    have alone := consistent.exclusion asks asked (by simp [isThread, Thread.held]) isWrite owner
    rw [if_neg distinct] at alone
    obtain ⟨entered, held, same⟩ := inside.held
    have none := List.countP_eq_zero.mp alone entered held
    simp [same] at none

theorem Thread.Inside.mark {other : τ} {key : Str}
    (inside : (state.threads other).Inside key) :
    ((state.mark thread scope).threads other).Inside key := by
  by_cases same : other = thread
  · subst same
    simpa [Thread.Inside] using inside
  · rwa [mark_threads_of_ne same]

theorem Contended.mark {key : Str} (contended : Contended state key)
    (located : (state.threads thread).point = .located scope) :
    Contended (state.mark thread scope) key :=
  contended.imp fun _ obstructs => obstructs.mark located

section Search

variable (consistent : Consistent state) (recorded : Recorded state)
  (located : (state.threads thread).point = .located scope)
  (crossing : Crossing state (.resume thread))

include consistent recorded located crossing

theorem waitsFor_of_target {owner : τ} (owns : Owns state.allocations scope.key owner)
    (distinct : scope.isWrite = false → owner ≠ thread) :
    Relation.TransGen (WaitsFor (state.mark thread scope)) thread owner := by
  simp only [Crossing, located] at crossing
  have request : ((state.mark thread scope).threads thread).request = some scope := by
    simp [Thread.request]
  refine waitsFor_of_crosses (consistent.mark located) request ?_ (recorded.owns_iff.mp owns).mark
  exact fun isRead => (crossing.1 isRead ⟨owner, distinct isRead, owns⟩).mark located

theorem Met.waitsFor_next {owner other : τ} {lock : Str}
    (met : Met state.allocations state.waiting thread scope.key owner)
    (waits : state.waiting.lookup owner = some lock) (nonempty : lock ≠ [])
    (owns : Owns state.allocations lock other) (distinct : other ≠ owner) :
    Relation.TransGen (WaitsFor (state.mark thread scope)) owner other := by
  simp only [Crossing, located] at crossing
  obtain ⟨asked, isMark, rfl⟩ := recorded.waits_iff.mp waits
  have inside := recorded.owns_iff.mp owns
  have crosses : (state.threads owner).request = some asked ∧
      (asked.isWrite = false → Contended state asked.key) := by
    cases isWrite : asked.isWrite with
    | true => exact ⟨consistent.request_of_mark isMark isWrite distinct inside, by simp⟩
    | false =>
        obtain ⟨request, contended⟩ :=
          crossing.2 owner met asked isMark isWrite nonempty ⟨other, distinct, owns⟩
        exact ⟨request, fun _ => contended⟩
  have request : ((state.mark thread scope).threads owner).request = some asked := by
    rw [mark_threads_of_ne met.ne]
    exact crosses.1
  exact waitsFor_of_crosses (consistent.mark located) request
    (fun isRead => (crosses.2 isRead).mark located) inside.mark

/-- Whoever the search meets, the request would wait for. -/
theorem Met.waitsFor {owner : τ}
    (met : Met state.allocations state.waiting thread scope.key owner) :
    Relation.TransGen (WaitsFor (state.mark thread scope)) thread owner := by
  induction met with
  | owner owns distinct =>
      exact waitsFor_of_target consistent recorded located crossing owns fun _ => distinct
  | @next owner other lock met waits nonempty owns distinct induction =>
      by_cases same : other = owner
      · exact same ▸ induction
      · exact induction.trans
          (met.waitsFor_next consistent recorded located crossing waits nonempty owns same)

/-- A request that the check rejects would wait for its own thread. -/
theorem waitsForItself_of_raises (raised : state.raises thread scope = true) :
    WaitsForItself state thread scope := by
  obtain ⟨lock, meets, owns, notExempt⟩ := detectCycle_iff.mp raised
  rcases meets with rfl | ⟨owner, met, waits, nonempty⟩
  · exact waitsFor_of_target consistent recorded located crossing owns
      fun isRead => absurd ⟨rfl, isRead⟩ notExempt
  · exact (met.waitsFor consistent recorded located crossing).trans
      (met.waitsFor_next consistent recorded located crossing waits nonempty owns met.ne.symm)

end Search

end Marked

/-- A request that would wait for its own thread is never granted. -/
theorem WaitsForItself.neverGranted {state : State τ} {thread : τ} {scope : Scope}
    (waits : WaitsForItself state thread scope) (consistent : Consistent state)
    (located : (state.threads thread).point = .located scope) :
    NeverGranted state thread scope := by
  intro later reached
  have stuck := Stuck.of_cycle waits
  have kept := (stuck.1.forever (consistent.mark located) reached).2 thread stuck.2
  rw [kept.request]
  simp [Thread.request]

/-- In every run, a check that crosses no edge on which nobody waits rejects a
request only if it could never have been granted. -/
theorem neverGranted_of_reaches {state : State τ} {thread : τ} {scope : Scope}
    (reached : Reaches State.step (fun _ _ => True) {} state)
    (located : (state.threads thread).point = .located scope)
    (raised : state.raises thread scope = true) (crossing : Crossing state (.resume thread)) :
    WaitsForItself state thread scope ∧ NeverGranted state thread scope := by
  have recorded : Recorded state :=
    reached.invariant (fun recorded _ stepped => recorded.step stepped) .initial
  have consistent := Consistent.of_reaches reached
  have waits := waitsForItself_of_raises consistent recorded located crossing raised
  exact ⟨waits, waits.neverGranted consistent located⟩

/-- A condition on two threads that can be computed and implies the other one:
only writers are marked, and a reader asks for free or exclusive keys. -/
def PlainlyCrossing (state : State Bool) : Label Bool → Bool
  | .resume thread =>
      match (state.threads thread).point with
      | .located scope =>
          (scope.isWrite || (ownersOf state.allocations scope.key).entries.isEmpty ||
            [false, true].any fun holder => (state.threads holder).held.any fun held =>
              held.key = scope.key && held.isWrite) &&
          [false, true].all fun waiter => (state.threads waiter).mark.all Scope.isWrite
      | _ => true
  | _ => true

theorem PlainlyCrossing.crossing {state : State Bool} {label : Label Bool}
    (plain : PlainlyCrossing state label = true) : Crossing state label := by
  cases label with
  | enter | leave => trivial
  | resume thread =>
      simp only [PlainlyCrossing, Crossing] at plain ⊢
      split
      · rename_i scope located
        simp only [located, Bool.and_eq_true, Bool.or_eq_true] at plain
        refine ⟨fun isRead owned => ?_, ?_⟩
        · rcases plain.1 with (isWrite | isEmpty) | holds
          · rw [isRead] at isWrite
            cases isWrite
          · obtain ⟨owner, _, owns⟩ := owned
            obtain ⟨_, _, member⟩ := owns_iff_mem.mp owns
            rw [List.isEmpty_iff.mp isEmpty] at member
            cases member
          · obtain ⟨holder, _, holds⟩ := List.any_eq_true.mp holds
            obtain ⟨held, member, exclusive⟩ := List.any_eq_true.mp holds
            simp only [Bool.and_eq_true, decide_eq_true_eq] at exclusive
            exact ⟨holder, .writing member exclusive.1 exclusive.2⟩
        · intro owner _ asked isMark isRead
          have isWrite := List.all_eq_true.mp plain.2 owner (by cases owner <;> simp)
          rw [isMark] at isWrite
          simp [isRead] at isWrite
      · trivial

/-- Two threads read one key; then one reads a second key, and the other, which
writes a third key, waits to write the second. -/
def readerAndWriter : List (Label Bool) :=
  .sharedLock false ['C'] :: List.replicate 3 (.resume false) ++
    .sharedLock true ['C'] :: List.replicate 3 (.resume true) ++
    .sharedLock false ['A'] :: List.replicate 3 (.resume false) ++
    .exclusiveLock true ['B'] :: List.replicate 3 (.resume true) ++
    .exclusiveLock true ['A'] :: List.replicate 2 (.resume true) ++ [.sharedLock false ['B']]

theorem neverGranted_of_reaches_readerAndWriter :
    ∃ state, run State.step ({} : State Bool) readerAndWriter = some state ∧
      state.raises false ⟨['B'], false, 2⟩ = true ∧
      WaitsForItself state false ⟨['B'], false, 2⟩ ∧ NeverGranted state false ⟨['B'], false, 2⟩ := by
  obtain ⟨state, executed⟩ := Option.isSome_iff_exists.mp
    (show (run State.step ({} : State Bool) readerAndWriter).isSome from rfl)
  have reader : (run State.step ({} : State Bool) readerAndWriter).map (fun state =>
      ((state.threads false).point, PlainlyCrossing state (.resume false),
        state.raises false ⟨['B'], false, 2⟩)) =
      some (.located ⟨['B'], false, 2⟩, true, true) := rfl
  simp only [executed, Option.map_some, Option.some.injEq, Prod.mk.injEq] at reader
  obtain ⟨located, plain, raised⟩ := reader
  exact ⟨state, executed, raised, neverGranted_of_reaches (Reaches.of_free_run executed) located
    raised (PlainlyCrossing.crossing plain)⟩

/-- The second key is only read, so the rejected request would be granted. -/
theorem neverGranted_fails_on_readers :
    ¬ ∀ (state : State Bool) (thread : Bool) (scope : Scope),
      Reaches State.step (fun _ _ => True) {} state →
      (state.threads thread).point = .located scope → state.raises thread scope = true →
      WaitsForItself state thread scope ∧ NeverGranted state thread scope := by
  intro holds
  let labels : List (Label Bool) := .sharedLock false ['A'] :: List.replicate 3 (.resume false) ++
    .sharedLock true ['B'] :: List.replicate 3 (.resume true) ++
    .exclusiveLock true ['A'] :: List.replicate 2 (.resume true) ++ [.sharedLock false ['B']]
  obtain ⟨state, executed⟩ := Option.isSome_iff_exists.mp
    (show (run State.step ({} : State Bool) labels).isSome from rfl)
  have reader : (run State.step ({} : State Bool) labels).map (fun state =>
      ((state.threads false).point, state.raises false ⟨['B'], false, 1⟩,
        ((state.mark false ⟨['B'], false, 1⟩).step (.resume false)).map
          fun later => (later.threads false).request)) =
      some (.located ⟨['B'], false, 1⟩, true, some none) := rfl
  simp only [executed, Option.map_some, Option.some.injEq, Prod.mk.injEq,
    Option.map_eq_some_iff] at reader
  obtain ⟨located, raised, later, stepped, granted⟩ := reader
  have never := (holds state false _ (Reaches.of_free_run executed) located raised).2 later
    (.single ⟨_, trivial, stepped⟩)
  rw [granted] at never
  cases never

end FuseDrive.Concurrency
