import FuseDrive.Concurrency.WaitGraph

/-!
# What the lock manager leaves behind

`active_locks` is counted in critical sections of the metrics, up after a lock
is acquired and down after its owner is unregistered.  The gauge, the
references and the waiting marks are exact and gone when all scopes have
ended.  The owners of a key are a dictionary that is never deleted: the keys
of `_allocations` are all those whose scopes were ever entered.
-/

namespace FuseDrive.Concurrency

open Transition

/-! ## The counted manager -/

/-- The manager with its gauge.  `counted` says of a thread between acquiring
and registering, or between unregistering and releasing, that the gauge
counts its scope; `entered` is the history of the keys whose scopes were
entered. -/
structure Metered (τ : Type) where
  manager : State τ := {}
  activeLocks : Int := 0
  counted : τ → Bool := fun _ => false
  entered : List Str := []

/-- A critical section of the manager, or one of the metrics. -/
inductive MeterLabel (τ : Type) where
  | manager (label : Label τ)
  | count (thread : τ)

/-- The call is between the lock and the table of its owners. -/
def Thread.isCounting (thread : Thread) : Bool :=
  match thread.point with
  | .acquired _ | .unregistered _ => true
  | _ => false

namespace Metered

variable {τ : Type}

/-- The thread has counted what it has to before its next section. -/
def isReady (state : Metered τ) : Label τ → Bool
  | .resume thread =>
      match (state.manager.threads thread).point with
      | .acquired _ => state.counted thread
      | .unregistered _ => !state.counted thread
      | _ => true
  | _ => true

/-- The key that a section enters. -/
def enters (state : Metered τ) : Label τ → Option Str
  | .resume thread =>
      match (state.manager.threads thread).point with
      | .acquired scope => some scope.key
      | _ => none
  | _ => none

variable [DecidableEq τ]

/-- Who is counted between two sections of a call after a section. -/
def countedAfter (state : Metered τ) (label : Label τ) : τ → Bool :=
  match label with
  | .leave thread => Function.update state.counted thread true
  | .resume thread =>
      match (state.manager.threads thread).point with
      | .acquired _ => Function.update state.counted thread false
      | _ => state.counted
  | .enter _ _ _ => state.counted

def step (state : Metered τ) : MeterLabel τ → Option (Metered τ)
  | .manager label =>
      if state.isReady label then
        (state.manager.step label).map fun manager => { state with
          manager
          counted := state.countedAfter label
          entered := (state.enters label).toList ++ state.entered }
      else none
  | .count thread =>
      match (state.manager.threads thread).point, state.counted thread with
      | .acquired _, false => some { state with
          activeLocks := state.activeLocks + 1
          counted := Function.update state.counted thread true }
      | .unregistered _, true => some { state with
          activeLocks := state.activeLocks - 1
          counted := Function.update state.counted thread false }
      | _, _ => none

end Metered

/-! ## The property -/

variable {τ : Type}

/-- All scopes have ended. -/
def State.Ended (state : State τ) : Prop :=
  ∀ thread, state.threads thread = {}

/-- The gauge is the number of scopes whose bodies threads are in, up to one
for each thread that is counting. -/
def Metered.GaugeExact (state : Metered τ) : Prop :=
  ∃ extra : τ → Nat,
    (∀ thread, extra thread ≤ 1 ∧
      (0 < extra thread → (state.manager.threads thread).isCounting = true)) ∧
    ∃ total : Nat, state.activeLocks = total ∧
      Tally (fun thread => (state.manager.threads thread).scopes.length + extra thread) total

/-- The reference count of a key is the number of its scopes that were
requested and have not finished. -/
def RefsExact (state : State τ) : Prop :=
  ∀ key, Tally
    (fun thread => (state.threads thread).referring.countP fun scope => scope.key = key)
    ((state.refs.lookup key).getD 0)

/-- The gauge and the references are exact, and nothing is left when all
scopes have ended. -/
structure Metered.ResidueFree (state : Metered τ) : Prop where
  gauge : state.GaugeExact
  refs : RefsExact state.manager
  rest : state.manager.Ended → state.manager.locks = ∅ ∧ state.manager.refs = ∅ ∧
    state.manager.waiting = ∅ ∧ state.manager.allocations = ∅ ∧ state.activeLocks = 0

/-! ## What a section does to the bodies and the tables -/

variable [DecidableEq τ]

theorem State.threads_setThread (state : State τ) (thread : τ) (value : Thread) :
    (state.setThread thread value).threads = Function.update state.threads thread value := rfl

theorem State.setPoint_self (state : State τ) (thread : τ) (point : Point) :
    (state.setPoint thread point).threads thread =
      { state.threads thread with point } := by
  rw [State.setPoint, State.threads_setThread, Function.update_self]

theorem Recorded.isAllocated {state : State τ} (recorded : Recorded state)
    {thread : τ} {scope : Scope} (member : scope ∈ (state.threads thread).scopes) :
    (state.allocations.lookup scope.key).isSome := by
  have owned := (recorded thread).owned scope.key
  have positive : 0 < (state.threads thread).scopes.countP fun other => other.key = scope.key :=
    List.countP_pos_iff.mpr ⟨scope, member, decide_eq_true rfl⟩
  rw [← owned, ownersOf] at positive
  match lookup : state.allocations.lookup scope.key with
  | some owners => rfl
  | none =>
      rw [lookup] at positive
      exact absurd positive (Nat.lt_irrefl 0)

namespace Metered

/-- The scopes of a thread that the gauge counts. -/
def share (thread : Thread) (isCounted : Bool) : Nat :=
  thread.scopes.length + if isCounted then 1 else 0

/-- The gauge counts a call only between the lock and the table. -/
def Reset (state : Metered τ) : Prop :=
  ∀ thread, state.counted thread = true → (state.manager.threads thread).isCounting = true

omit [DecidableEq τ] in
theorem Reset.not_counted {state : Metered τ} (reset : state.Reset) {thread : τ}
    (elsewhere : (state.manager.threads thread).isCounting = false) :
    state.counted thread = false := by
  cases isCounted : state.counted thread with
  | false => rfl
  | true =>
      have counting := reset thread isCounted
      rw [elsewhere] at counting
      cases counting

/-- A section of the manager moves the scope of its thread between the bodies
and the calls that are counted. -/
structure Advanced (before after : Thread) (was isCounted : Bool) : Prop where
  share : share after isCounted = share before was
  reset : isCounted = true → after.isCounting = true

theorem Advanced.aside {before after : Thread} {was isCounted : Bool}
    (scopes : after.scopes = before.scopes) (wasNot : was = false) (isNot : isCounted = false) :
    Advanced before after was isCounted := by
  constructor
  · rw [Metered.share, Metered.share, scopes, wasNot, isNot]
  · rw [isNot]
    exact nofun

omit [DecidableEq τ] in
/-- A thread that continues a call outside the lock was not counted. -/
theorem Reset.elsewhere {state : Metered τ} (reset : state.Reset) {thread : τ} {point : Point}
    (isPoint : (state.manager.threads thread).point = point)
    (notCounting : ({ point } : Thread).isCounting = false) :
    state.counted thread = false := by
  apply reset.not_counted
  rw [Thread.isCounting, isPoint]
  exact notCounting

theorem countedAfter_resume {state : Metered τ} {thread : τ}
    (notAcquired : ∀ scope, (state.manager.threads thread).point ≠ .acquired scope) :
    state.countedAfter (.resume thread) = state.counted := by
  rw [countedAfter]
  split
  · rename_i scope isPoint
    exact absurd isPoint (notAcquired scope)
  · rfl

theorem advanced_of_stepped {state : Metered τ} {label : Label τ} {after : State τ}
    (reset : state.Reset) (ready : state.isReady label = true)
    (stepped : State.Stepped state.manager label after) :
    Advanced (state.manager.threads label.thread) (after.threads label.thread)
      (state.counted label.thread) (state.countedAfter label label.thread) := by
  -- Most sections change the point of a thread that is not counted.
  have moved {thread : τ} {base : State τ} {point next : Point}
      (isPoint : (state.manager.threads thread).point = point)
      (notCounted : state.counted thread = false)
      (notAcquired : ∀ scope, point ≠ .acquired scope)
      (threads : base.threads = state.manager.threads) :
      Advanced (state.manager.threads thread) ((base.setPoint thread next).threads thread)
        (state.counted thread) (state.countedAfter (.resume thread) thread) := by
    apply Advanced.aside
    · rw [State.setPoint_self, threads]
    · exact notCounted
    · rw [countedAfter_resume (isPoint ▸ notAcquired)]
      exact notCounted
  cases stepped with
  | joined running found =>
      have notCounted := reset.elsewhere running rfl
      apply Advanced.aside
      · rw [Label.thread, State.setPoint_self]
      · exact notCounted
      · exact notCounted
  | created running absent =>
      have notCounted := reset.elsewhere running rfl
      apply Advanced.aside
      · rw [Label.thread, State.setPoint_self]
      · exact notCounted
      · exact notCounted
  | @left thread scope scopes inside =>
      have running : (state.manager.threads thread).point = .running := by rw [inside]
      have notCounted := reset.elsewhere running rfl
      rw [Label.thread, State.threads_setThread, Function.update_self, inside, notCounted]
      have isCounted : state.countedAfter (.leave thread) thread = true := by
        rw [countedAfter, Function.update_self]
      rw [isCounted]
      exact ⟨rfl, fun _ => rfl⟩
  | rejected located _ => exact moved located (reset.elsewhere located rfl) (by simp) rfl
  | marked located _ => exact moved located (reset.elsewhere located rfl) (by simp) rfl
  | entered marked _ => exact moved marked (reset.elsewhere marked rfl) (by simp) rfl
  | queued marked _ => exact moved marked (reset.elsewhere marked rfl) (by simp) rfl
  | admitted blocked _ => exact moved blocked (reset.elsewhere blocked rfl) (by simp) rfl
  | @registered thread scope acquired =>
      have isCounted : state.counted thread = true := by
        rw [isReady, acquired] at ready
        exact ready
      have isNot : state.countedAfter (.resume thread) thread = false := by
        rw [countedAfter, acquired]
        dsimp only
        rw [Function.update_self]
      rw [Label.thread, State.threads_setThread, Function.update_self, isCounted, isNot]
      exact ⟨rfl, fun isTrue => absurd isTrue Bool.false_ne_true⟩
  | released unregistered =>
      rw [isReady, unregistered] at ready
      exact moved unregistered (Bool.not_inj ready) (by simp) rfl
  | unmarked released => exact moved released (reset.elsewhere released rfl) (by simp) rfl
  | dropped last releases =>
      obtain ⟨_, _, threads, _⟩ := State.releaseRef_spec releases
      obtain rejected | unmarked := last
      · exact moved rejected (reset.elsewhere rejected rfl) (by simp) threads
      · exact moved unmarked (reset.elsewhere unmarked rfl) (by simp) threads

theorem countedAfter_of_ne {state : Metered τ} {label : Label τ} {other : τ}
    (distinct : other ≠ label.thread) : state.countedAfter label other = state.counted other := by
  cases label with
  | enter thread key isWrite => rfl
  | leave thread => exact Function.update_of_ne distinct _ _
  | resume thread =>
      by_cases acquired : ∃ scope, (state.manager.threads thread).point = .acquired scope
      · obtain ⟨scope, isPoint⟩ := acquired
        rw [countedAfter, isPoint]
        exact Function.update_of_ne distinct _ _
      · rw [countedAfter_resume fun scope isPoint => acquired ⟨scope, isPoint⟩]

omit [DecidableEq τ] in
/-- Only a section in which the gauge counts the scope enters a key. -/
theorem enters_eq_none {state : Metered τ} {thread : τ} {point : Point}
    (isPoint : (state.manager.threads thread).point = point)
    (notAcquired : ∀ scope, point ≠ .acquired scope) : state.enters (.resume thread) = none := by
  rw [enters]
  split
  · rename_i scope acquired
    rw [isPoint] at acquired
    exact absurd acquired (notAcquired scope)
  · rfl

/-- The keys with a table of owners are those that were entered. -/
theorem allocated_of_stepped {state : Metered τ} {label : Label τ} {after : State τ}
    (recorded : Recorded state.manager)
    (stepped : State.Stepped state.manager label after) (key : Str) :
    (after.allocations.lookup key).isSome ↔
      state.enters label = some key ∨ (state.manager.allocations.lookup key).isSome := by
  have unchanged (label : Label τ) (entersNothing : state.enters label = none)
      (same : after.allocations = state.manager.allocations) :
      (after.allocations.lookup key).isSome ↔
        state.enters label = some key ∨ (state.manager.allocations.lookup key).isSome := by
    rw [entersNothing, same]
    exact (or_iff_right (by simp)).symm
  cases stepped with
  | joined running found => exact unchanged _ rfl rfl
  | created running absent => exact unchanged _ rfl rfl
  | @left thread scope scopes inside =>
      have member : scope ∈ (state.manager.threads thread).scopes := by
        rw [inside]
        exact List.mem_cons_self
      have isAllocated := recorded.isAllocated member
      have entersNothing : state.enters (.leave thread) = none := rfl
      rw [State.setThread, State.deallocate, Dict.lookup_insert_eq, entersNothing,
        or_iff_right (by simp)]
      split
      · rename_i same
        rw [same]
        exact iff_of_true rfl isAllocated
      · exact Iff.rfl
  | rejected located _ => exact unchanged _ (enters_eq_none located (by simp)) rfl
  | marked located _ => exact unchanged _ (enters_eq_none located (by simp)) rfl
  | entered marked _ => exact unchanged _ (enters_eq_none marked (by simp)) rfl
  | queued marked _ => exact unchanged _ (enters_eq_none marked (by simp)) rfl
  | admitted blocked _ => exact unchanged _ (enters_eq_none blocked (by simp)) rfl
  | @registered thread scope acquired =>
      have isEntered : state.enters (.resume thread) = some scope.key := by
        rw [enters, acquired]
      rw [State.setThread, State.allocate, Dict.lookup_insert_eq, isEntered]
      split
      · rename_i same
        exact iff_of_true rfl (Or.inl (congrArg some same.symm))
      · rename_i different
        rw [or_iff_right fun same => different (Option.some.inj same).symm]
  | released unregistered => exact unchanged _ (enters_eq_none unregistered (by simp)) rfl
  | unmarked released => exact unchanged _ (enters_eq_none released (by simp)) rfl
  | dropped last releases =>
      obtain ⟨_, _, _, _, _, allocations, _⟩ := State.releaseRef_spec releases
      obtain rejected | unmarked := last
      · exact unchanged _ (enters_eq_none rejected (by simp)) allocations
      · exact unchanged _ (enters_eq_none unmarked (by simp)) allocations

/-! ## What every section preserves -/

omit [DecidableEq τ] in
/-- A key with a reference count is referred to. -/
def RefsPositive (state : State τ) : Prop :=
  ∀ key count, state.refs.lookup key = some count → 0 < count

theorem refsPositive_of_stepped {state after : State τ} {label : Label τ}
    (positive : RefsPositive state) (stepped : State.Stepped state label after) :
    RefsPositive after := by
  intro key count counted
  cases stepped with
  | @joined thread other isWrite lock running found =>
      rw [State.setPoint, State.setThread, Dict.lookup_insert_eq] at counted
      split at counted
      · cases counted
        exact Nat.zero_lt_succ _
      · exact positive key count counted
  | @created thread other isWrite running absent =>
      rw [State.setPoint, State.setThread, Dict.lookup_insert_eq] at counted
      split at counted
      · cases counted
        exact Nat.zero_lt_one
      · exact positive key count counted
  | dropped last releases =>
      obtain ⟨references, _, _, _, _, _, _, _, refs⟩ := State.releaseRef_spec releases
      rw [State.setPoint, State.setThread, refs] at counted
      split at counted
      · split at counted
        · cases counted
        · cases counted
          omega
      · exact positive key count counted
  | _ => exact positive key count counted

/-- The gauge counts every scope that a thread is in or counts already. -/
structure Accurate (state : Metered τ) : Prop where
  consistent : Consistent state.manager
  recorded : Recorded state.manager
  reset : state.Reset
  gauge : ∃ total : Nat, state.activeLocks = total ∧
    Tally (fun thread => share (state.manager.threads thread) (state.counted thread)) total
  positive : RefsPositive state.manager
  allocated : ∀ key, (state.manager.allocations.lookup key).isSome ↔ key ∈ state.entered

theorem Accurate.initial : Accurate ({} : Metered τ) where
  consistent := Consistent.initial
  recorded := Recorded.initial
  reset := nofun
  gauge := ⟨0, rfl, Tally.zero⟩
  positive := nofun
  allocated _ := iff_of_false nofun nofun

theorem Accurate.operate {state : Metered τ} {label : Label τ} {after : State τ}
    (accurate : Accurate state) (ready : state.isReady label = true)
    (stepped : state.manager.step label = some after) :
    Accurate { state with
      manager := after
      counted := state.countedAfter label
      entered := (state.enters label).toList ++ state.entered } := by
  have effect := State.stepped stepped
  have advanced := advanced_of_stepped accurate.reset ready effect
  constructor
  · exact accurate.consistent.step stepped
  · exact accurate.recorded.step stepped
  · intro thread isCounted
    by_cases same : thread = label.thread
    · subst same
      exact advanced.reset isCounted
    · have others := State.threads_of_step stepped same
      change state.countedAfter label thread = true at isCounted
      rw [countedAfter_of_ne same] at isCounted
      change (after.threads thread).isCounting = true
      rw [others]
      exact accurate.reset thread isCounted
  · obtain ⟨total, isTotal, tally⟩ := accurate.gauge
    refine ⟨total, isTotal, tally.congr ?_⟩
    intro thread
    by_cases same : thread = label.thread
    · subst same
      exact advanced.share
    · change share (after.threads thread) (state.countedAfter label thread) = _
      rw [State.threads_of_step stepped same, countedAfter_of_ne same]
  · exact refsPositive_of_stepped accurate.positive effect
  · intro key
    change (after.allocations.lookup key).isSome ↔ key ∈ (state.enters label).toList ++ _
    rw [allocated_of_stepped accurate.recorded effect key, accurate.allocated key,
      List.mem_append, Option.mem_toList]

/-- The share of a thread changes with what the gauge counts of it. -/
theorem Accurate.count {state : Metered τ} {thread : τ} {activeLocks : Int} {isCounted : Bool}
    (accurate : Accurate state)
    (counting : (state.manager.threads thread).isCounting = true)
    (gauge : ∃ total : Nat, activeLocks = total ∧ Tally (fun other =>
      share (state.manager.threads other)
        (Function.update state.counted thread isCounted other)) total) :
    Accurate { state with
      activeLocks
      counted := Function.update state.counted thread isCounted } := by
  refine ⟨accurate.consistent, accurate.recorded, ?_, gauge, accurate.positive,
    accurate.allocated⟩
  intro other isCounted
  by_cases same : other = thread
  · rw [same]
    exact counting
  · change Function.update state.counted thread _ other = true at isCounted
    rw [Function.update_of_ne same] at isCounted
    exact accurate.reset other isCounted

theorem Accurate.step {state after : Metered τ} {label : MeterLabel τ}
    (accurate : Accurate state) (stepped : state.step label = some after) : Accurate after := by
  cases label with
  | manager label =>
      simp only [Metered.step] at stepped
      split at stepped
      · rename_i ready
        obtain ⟨manager, operated, rfl⟩ := Option.map_eq_some_iff.mp stepped
        exact accurate.operate ready operated
      · cases stepped
  | count thread =>
      obtain ⟨total, isTotal, tally⟩ := accurate.gauge
      have others (isCounted : Bool) (other : τ) (distinct : other ≠ thread) :
          share (state.manager.threads other)
              (Function.update state.counted thread isCounted other) =
            share (state.manager.threads other) (state.counted other) := by
        rw [Function.update_of_ne distinct]
      simp only [Metered.step] at stepped
      split at stepped
      · rename_i scope acquired notCounted
        cases stepped
        apply accurate.count
        · rw [Thread.isCounting, acquired]
        · refine ⟨total + 1, ?_, tally.change thread (others true) ?_⟩
          · rw [isTotal]
            rfl
          · rw [Function.update_self, notCounted]
            simp only [share, if_true, Bool.false_eq_true, if_false]
            omega
      · rename_i scope unregistered isCounted
        cases stepped
        have positive := tally.le thread
        rw [isCounted] at positive
        simp only [share, if_true] at positive
        apply accurate.count
        · rw [Thread.isCounting, unregistered]
        · refine ⟨total - 1, ?_, tally.change thread (others false) ?_⟩
          · rw [isTotal]
            omega
          · rw [Function.update_self, isCounted]
            simp only [share, if_true, Bool.false_eq_true, if_false]
            omega
      · cases stepped

theorem accurate_of_reaches {allowed : Metered τ → MeterLabel τ → Prop} {state : Metered τ}
    (reached : Reaches Metered.step allowed {} state) : Accurate state :=
  reached.invariant (fun accurate _ stepped => accurate.step stepped) Accurate.initial

/-! ## What is left when all scopes have ended -/

theorem Accurate.gaugeExact {state : Metered τ} (accurate : Accurate state) :
    state.GaugeExact := by
  obtain ⟨total, isTotal, tally⟩ := accurate.gauge
  refine ⟨fun thread => if state.counted thread then 1 else 0, ?_, total, isTotal, tally⟩
  intro thread
  dsimp only
  split
  · rename_i isCounted
    exact ⟨Nat.le_refl 1, fun _ => accurate.reset thread isCounted⟩
  · exact ⟨Nat.zero_le 1, fun positive => absurd positive (Nat.lt_irrefl 0)⟩

/-- When all scopes have ended only the tables of owners are left. -/
theorem Accurate.ended {state : Metered τ} (accurate : Accurate state)
    (ended : state.manager.Ended) :
    state.manager.locks = ∅ ∧ state.manager.refs = ∅ ∧ state.manager.waiting = ∅ ∧
      state.activeLocks = 0 := by
  have refs (key : Str) : state.manager.refs.lookup key = none := by
    have total := (accurate.consistent.referred key).eq_zero fun thread => by
      rw [ended thread]
      rfl
    match counted : state.manager.refs.lookup key with
    | none => rfl
    | some count =>
        have positive := accurate.positive key count counted
        rw [counted] at total
        exact absurd total positive.ne'
  refine ⟨Dict.eq_empty_of_lookup fun key => ?_, Dict.eq_empty_of_lookup refs,
    Dict.eq_empty_of_lookup fun thread => ?_, ?_⟩
  · exact (accurate.consistent.present key).mpr (refs key)
  · rw [(accurate.recorded thread).marked, ended thread]
    rfl
  · obtain ⟨total, isTotal, tally⟩ := accurate.gauge
    have isZero := tally.eq_zero fun thread => by
      have elsewhere : (state.manager.threads thread).isCounting = false := by
        rw [ended thread]
        rfl
      have notCounted := accurate.reset.not_counted elsewhere
      rw [notCounted, ended thread]
      rfl
    rw [isTotal, isZero]
    rfl

theorem Accurate.allocations_eq_empty_iff {state : Metered τ} (accurate : Accurate state) :
    state.manager.allocations = ∅ ↔ state.entered = [] := by
  constructor
  · intro empty
    rw [List.eq_nil_iff_forall_not_mem]
    intro key member
    have isSome := (accurate.allocated key).mpr member
    rw [empty] at isSome
    cases isSome
  · intro nothing
    apply Dict.eq_empty_of_lookup
    intro key
    rw [← Option.not_isSome_iff_eq_none, accurate.allocated key, nothing]
    exact List.not_mem_nil

/-- In every interleaving the gauge and the references are exact, and nothing
is left of the ended scopes exactly if none of them was ever entered: the
tables of owners stay. -/
theorem residueFree_iff {state : Metered τ}
    (reached : Reaches Metered.step (fun _ _ => True) {} state) :
    state.ResidueFree ↔ (state.manager.Ended → state.entered = []) := by
  have accurate := accurate_of_reaches reached
  constructor
  · intro free ended
    obtain ⟨_, _, _, allocations, _⟩ := free.rest ended
    exact accurate.allocations_eq_empty_iff.mp allocations
  · intro condition
    constructor
    · exact accurate.gaugeExact
    · exact accurate.consistent.referred
    · intro ended
      obtain ⟨locks, refs, waiting, gauge⟩ := accurate.ended ended
      have allocations := accurate.allocations_eq_empty_iff.mpr (condition ended)
      exact ⟨locks, refs, waiting, allocations, gauge⟩

/-- A thread asks for a scope and gets into its body. -/
def scopeEntered {τ : Type} (thread : τ) (key : Str) (isWrite : Bool) : List (MeterLabel τ) :=
  .manager (.enter thread key isWrite) :: .manager (.resume thread) ::
    .manager (.resume thread) :: .count thread :: [.manager (.resume thread)]

/-- Two threads read `A`, and the first writes `B` inside.  The second waits to
write `B`, and the first is refused to write `A`, for which the second waits. -/
def nestedScopes : List (MeterLabel Bool) :=
  scopeEntered false ['A'] false ++ scopeEntered false ['B'] true ++
    scopeEntered true ['A'] false ++
    .manager (.enter true ['B'] true) :: List.replicate 2 (.manager (.resume true)) ++
    .manager (.enter false ['A'] true) :: [.manager (.resume false)]

/-- With three bodies running, a writer waiting and a request refused, the
state is as it should be. -/
theorem residueFree_iff_nestedScopes :
    ∃ state, run Metered.step ({} : Metered Bool) nestedScopes = some state ∧
      state.activeLocks = 3 ∧
      (state.manager.threads false).point = .rejected ⟨['A'], true, 0⟩ ∧
      (state.manager.threads true).point = .blocked ⟨['B'], true, 1⟩ ∧
      state.ResidueFree := by
  obtain ⟨state, executed⟩ := Option.isSome_iff_exists.mp
    (show (run Metered.step ({} : Metered Bool) nestedScopes).isSome from rfl)
  have gauge : state.activeLocks = 3 :=
    look_of_run executed (fun state => state.activeLocks) rfl
  have refused : (state.manager.threads false).point = .rejected ⟨['A'], true, 0⟩ :=
    look_of_run executed (fun state => (state.manager.threads false).point) rfl
  have waits : (state.manager.threads true).point = .blocked ⟨['B'], true, 1⟩ :=
    look_of_run executed (fun state => (state.manager.threads true).point) rfl
  refine ⟨state, executed, gauge, refused, waits, ?_⟩
  apply (residueFree_iff (Reaches.of_free_run executed)).mpr
  intro ended
  rw [ended true] at waits
  cases waits

/-- One thread enters a shared scope and ends it. -/
def oneScopeEnded : List (MeterLabel Unit) :=
  scopeEntered () ['A'] false ++
    .manager (.leave ()) :: .count () :: List.replicate 3 (.manager (.resume ()))

/-- After one scope has ended its key is still in the table of owners. -/
theorem residue_of_oneScope :
    ∃ state, run Metered.step ({} : Metered Unit) oneScopeEnded = some state ∧
      ¬ state.ResidueFree := by
  obtain ⟨state, executed⟩ := Option.isSome_iff_exists.mp
    (show (run Metered.step ({} : Metered Unit) oneScopeEnded).isSome from rfl)
  have keys : state.manager.allocations.keys = [['A']] :=
    look_of_run executed (fun state => state.manager.allocations.keys) rfl
  have thread : state.manager.threads () = {} :=
    look_of_run executed (fun state => state.manager.threads ()) rfl
  refine ⟨state, executed, fun free => ?_⟩
  obtain ⟨_, _, _, allocations, _⟩ := free.rest fun _ => thread
  rw [allocations] at keys
  cases keys

end Metered

end FuseDrive.Concurrency
