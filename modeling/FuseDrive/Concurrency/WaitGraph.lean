import FuseDrive.Acyclic
import FuseDrive.Concurrency.CycleSearch
import FuseDrive.Concurrency.Exclusion

/-!
# Who waits for whom

The tables of owners and waiting marks record, with the delays of the separate
critical sections, the scopes whose bodies the threads are in and the calls
that have passed the check.  Beside them stands what really keeps a call out of
a lock: a scope that holds it, or a queued writer before a reader.
-/

namespace FuseDrive.Concurrency

open Transition

variable {τ : Type} [DecidableEq τ]

/-! ## What the tables record -/

/-- The call for which the thread is marked as waiting. -/
def Thread.mark (thread : Thread) : Option Scope :=
  match thread.point with
  | .marked scope | .blocked scope | .acquired scope => some scope
  | _ => none

/-- The thread is in the body of a scope of the key. -/
def Thread.Inside (thread : Thread) (key : Str) : Prop :=
  ∃ scope ∈ thread.scopes, scope.key = key

omit [DecidableEq τ] in
theorem Thread.Inside.held {thread : Thread} {key : Str} (inside : thread.Inside key) :
    ∃ scope ∈ thread.held, scope.key = key := by
  obtain ⟨scope, member, same⟩ := inside
  refine ⟨scope, ?_, same⟩
  obtain ⟨scopes, point⟩ := thread
  cases point <;> simp only [Thread.held, List.mem_cons] <;> first | exact member | exact .inr member

/-- The tables agree with one thread. -/
structure Record (state : State τ) (thread : τ) : Prop where
  owned : ∀ key, ((ownersOf state.allocations key).lookup thread).getD 0 =
    (state.threads thread).scopes.countP fun scope => scope.key = key
  marked : state.waiting.lookup thread = (state.threads thread).mark.map Scope.key
  fresh : ∀ scope, (state.threads thread).mark = some scope → scope.isWrite = true →
    ¬ (state.threads thread).Inside scope.key

def Recorded (state : State τ) : Prop :=
  ∀ thread, Record state thread

theorem Recorded.initial : Recorded ({} : State τ) :=
  fun _ => ⟨fun _ => rfl, rfl, fun _ marked => by cases marked⟩

theorem Recorded.owns_iff {state : State τ} (recorded : Recorded state) {key : Str} {thread : τ} :
    Owns state.allocations key thread ↔ (state.threads thread).Inside key := by
  rw [Owns, (recorded thread).owned, List.countP_pos_iff]
  simp [Thread.Inside]

theorem Recorded.waits_iff {state : State τ} (recorded : Recorded state) {key : Str} {thread : τ} :
    state.waiting.lookup thread = some key ↔
      ∃ scope, (state.threads thread).mark = some scope ∧ scope.key = key := by
  rw [(recorded thread).marked, Option.map_eq_some_iff]

theorem Record.congr {state after : State τ} {thread : τ} (record : Record state thread)
    (threads : after.threads thread = state.threads thread)
    (allocations : ∀ key, (ownersOf after.allocations key).lookup thread =
      (ownersOf state.allocations key).lookup thread)
    (waiting : after.waiting.lookup thread = state.waiting.lookup thread) :
    Record after thread where
  owned key := by rw [allocations, threads, record.owned]
  marked := by rw [waiting, threads, record.marked]
  fresh := by
    rw [threads]
    exact record.fresh

theorem Recorded.updates {state after : State τ} {thread : τ} {value : Thread}
    (recorded : Recorded state) (allocations : after.allocations = state.allocations)
    (waiting : after.waiting = state.waiting)
    (threads : after.threads = Function.update state.threads thread value)
    (scopes : value.scopes = (state.threads thread).scopes)
    (mark : value.mark = (state.threads thread).mark) : Recorded after := by
  intro other
  by_cases same : other = thread
  · subst same
    have isValue : after.threads other = value := by rw [threads, Function.update_self]
    have record := recorded other
    refine ⟨fun key => ?_, ?_, ?_⟩
    · rw [allocations, isValue, scopes, record.owned]
    · rw [waiting, isValue, mark, record.marked]
    · simp only [isValue, Thread.Inside, mark, scopes]
      exact record.fresh
  · refine (recorded other).congr ?_ (fun key => by rw [allocations]) (by rw [waiting])
    rw [threads, Function.update_of_ne same]

omit [DecidableEq τ] in
theorem ownersOf_insert (allocations : Dict Str (Dict τ Nat)) (key other : Str)
    (owners : Dict τ Nat) :
    ownersOf (allocations.insert key owners) other =
      if other = key then owners else ownersOf allocations other := by
  unfold ownersOf
  rw [Dict.lookup_insert_eq]
  split <;> rfl

theorem Recorded.marked {state : State τ} {thread : τ} {scope : Scope} (recorded : Recorded state)
    (located : (state.threads thread).point = .located scope)
    (passed : state.raises thread scope = false) : Recorded (state.mark thread scope) := by
  intro other
  by_cases same : other = thread
  · subst same
    have value : (state.mark other scope).threads other =
        { state.threads other with point := .marked scope } := Function.update_self ..
    refine ⟨fun key => ?_, ?_, ?_⟩
    · rw [value]
      exact (recorded other).owned key
    · rw [value]
      exact AList.lookup_insert _
    · rw [value]
      rintro asked isMark isWrite inside
      cases isMark
      have raises : state.raises other scope = true :=
        detectCycle_iff.mpr ⟨scope.key, .inl rfl, recorded.owns_iff.mpr inside, by simp [isWrite]⟩
      rw [passed] at raises
      cases raises
  · exact (recorded other).congr (Function.update_of_ne same _ _) (fun _ => rfl)
      (AList.lookup_insert_ne same)

theorem Recorded.registered {state : State τ} {thread : τ} {scope : Scope}
    (recorded : Recorded state) :
    Recorded (({ state with waiting := state.waiting.erase thread }.allocate scope.key
      thread).setThread thread
        { scopes := scope :: (state.threads thread).scopes, point := .running }) := by
  generalize isAfter : State.setThread _ thread _ = after
  have allocations : ∀ key other, (ownersOf after.allocations key).lookup other =
      if key = scope.key ∧ other = thread then
        some (((ownersOf state.allocations key).lookup thread).getD 0 + 1)
      else (ownersOf state.allocations key).lookup other := by
    intro key other
    rw [← isAfter]
    simp only [State.setThread, State.allocate, ownersOf_insert]
    by_cases same : key = scope.key
    · subst same
      rw [if_pos rfl, Dict.lookup_insert_eq]
      simp
    · simp [same]
  intro other
  by_cases same : other = thread
  · subst same
    have value : after.threads other =
        { scopes := scope :: (state.threads other).scopes, point := .running } := by
      rw [← isAfter]
      exact Function.update_self ..
    refine ⟨fun key => ?_, ?_, ?_⟩
    · rw [allocations, value, List.countP_cons, ← (recorded other).owned]
      by_cases isKey : key = scope.key
      · simp [isKey]
      · simp [isKey, Ne.symm isKey]
    · rw [value, ← isAfter]
      exact AList.lookup_erase _ _
    · rw [value]
      intro asked isMark
      cases isMark
  · refine (recorded other).congr ?_ (fun key => ?_) ?_
    · rw [← isAfter]
      exact Function.update_of_ne same _ _
    · rw [allocations, if_neg (fun both => same both.2)]
    · rw [← isAfter]
      exact AList.lookup_erase_ne same

theorem Recorded.left {state : State τ} {thread : τ} {scope : Scope} {scopes : List Scope}
    (recorded : Recorded state)
    (inside : state.threads thread = { scopes := scope :: scopes, point := .running }) :
    Recorded ((state.deallocate scope.key thread).setThread thread
      { scopes, point := .unregistered scope }) := by
  have owned := (recorded thread).owned scope.key
  rw [inside, List.countP_cons] at owned
  simp only [decide_true, if_true] at owned
  have marked := (recorded thread).marked
  rw [inside] at marked
  generalize isAfter : State.setThread _ thread _ = after
  have owners : ∀ key, ownersOf after.allocations key = if key = scope.key then
      if scopes.countP (fun entered => entered.key = scope.key) = 0 then
        (ownersOf state.allocations scope.key).erase thread
      else (ownersOf state.allocations scope.key).insert thread
        (scopes.countP fun entered => entered.key = scope.key)
      else ownersOf state.allocations key := by
    intro key
    rw [← isAfter]
    simp only [State.setThread, State.deallocate, ownersOf_insert, owned, Nat.add_sub_cancel]
  intro other
  by_cases same : other = thread
  · subst same
    have value : after.threads other = { scopes, point := .unregistered scope } := by
      rw [← isAfter]
      exact Function.update_self ..
    refine ⟨fun key => ?_, ?_, ?_⟩
    · rw [owners, value]
      by_cases isKey : key = scope.key
      · subst isKey
        rw [if_pos rfl]
        split
        · rw [AList.lookup_erase, Option.getD_none]
          exact Eq.symm ‹_›
        · rw [AList.lookup_insert, Option.getD_some]
      · rw [if_neg isKey, (recorded other).owned, inside, List.countP_cons]
        simp [Ne.symm isKey]
    · rw [value, ← isAfter]
      exact marked
    · rw [value]
      intro asked isMark
      cases isMark
  · refine (recorded other).congr ?_ (fun key => ?_) ?_
    · rw [← isAfter]
      exact Function.update_of_ne same _ _
    · rw [owners]
      split
      · rename_i isKey
        subst isKey
        split
        · exact AList.lookup_erase_ne same
        · exact AList.lookup_insert_ne same
      · rfl
    · rw [← isAfter]
      rfl

theorem Recorded.unmarked {state : State τ} {thread : τ} {scope : Scope}
    (recorded : Recorded state) (released : (state.threads thread).point = .released scope) :
    Recorded ({ state with waiting := state.waiting.erase thread }.setPoint thread
      (.unmarked scope)) := by
  intro other
  by_cases same : other = thread
  · subst same
    have value : (({ state with waiting := state.waiting.erase other }.setPoint other
        (.unmarked scope)).threads other) =
          { state.threads other with point := .unmarked scope } := Function.update_self ..
    refine ⟨fun key => ?_, ?_, ?_⟩
    · rw [value]
      exact (recorded other).owned key
    · rw [value]
      exact AList.lookup_erase _ _
    · rw [value]
      intro asked isMark
      cases isMark
  · exact (recorded other).congr (Function.update_of_ne same _ _) (fun _ => rfl)
      (AList.lookup_erase_ne same)

theorem Recorded.step {state after : State τ} {label : Label τ} (recorded : Recorded state)
    (stepped : state.step label = some after) : Recorded after := by
  cases State.stepped stepped with
  | joined running found =>
      refine recorded.updates rfl rfl rfl rfl ?_
      simp [Thread.mark, running]
  | created running absent =>
      refine recorded.updates rfl rfl rfl rfl ?_
      simp [Thread.mark, running]
  | left inside => exact recorded.left inside
  | rejected located raised =>
      refine recorded.updates rfl rfl rfl rfl ?_
      simp [Thread.mark, located]
  | marked located passed => exact recorded.marked located passed
  | entered marked admits =>
      refine recorded.updates rfl rfl rfl rfl ?_
      simp [Thread.mark, marked]
  | queued marked refuses =>
      refine recorded.updates rfl rfl rfl rfl ?_
      simp [Thread.mark, marked]
  | admitted blocked admits =>
      refine recorded.updates rfl rfl rfl rfl ?_
      simp [Thread.mark, blocked]
  | registered acquired => exact recorded.registered
  | released unregistered =>
      refine recorded.updates rfl rfl rfl rfl ?_
      simp [Thread.mark, unregistered]
  | unmarked released => exact recorded.unmarked released
  | dropped last releases =>
      obtain ⟨count, _, threads, _, _, allocations, waiting, _, _⟩ := State.releaseRef_spec releases
      refine recorded.updates allocations waiting (congrArg (Function.update · _ _) threads) ?_ ?_
      · rw [threads]
      · rcases last with rejected | unmarked
        · simp [Thread.mark, rejected]
        · simp [Thread.mark, unmarked]

/-! ## What keeps a call out -/

/-- The thread keeps a request for the key out of the lock: by a scope that
holds it, or before a reader by its own queued write request. -/
inductive Obstructs (state : State τ) (key : Str) (isWrite : Bool) (thread : τ) : Prop where
  | writing {scope : Scope} (held : scope ∈ (state.threads thread).held) (same : scope.key = key)
      (exclusive : scope.isWrite = true)
  | reading {scope : Scope} (held : scope ∈ (state.threads thread).held) (same : scope.key = key)
      (request : isWrite = true)
  | queued {scope : Scope} (blocked : (state.threads thread).point = .blocked scope)
      (same : scope.key = key) (exclusive : scope.isWrite = true) (request : isWrite = false)

/-- The thread has asked for a lock that the other one keeps it out of. -/
def WaitsFor (state : State τ) (thread other : τ) : Prop :=
  ∃ scope, (state.threads thread).request = some scope ∧
    Obstructs state scope.key scope.isWrite other

/-- Every member has asked for a lock that a member keeps it out of. -/
def Stuck (state : State τ) (members : Set τ) : Prop :=
  ∀ thread ∈ members, ∃ other ∈ members, WaitsFor state thread other

/-- Threads that are all blocked in `acquire_read` or `acquire_write` and wait
for each other. -/
def Deadlocked (state : State τ) (members : Set τ) : Prop :=
  members.Nonempty ∧ ∀ thread ∈ members, ∃ scope,
    (state.threads thread).point = .blocked scope ∧
      ∃ other ∈ members, Obstructs state scope.key scope.isWrite other

omit [DecidableEq τ] in
theorem Obstructs.congr {state after : State τ} {key : Str} {isWrite : Bool} {thread : τ}
    (obstructs : Obstructs state key isWrite thread)
    (held : ∀ scope ∈ (state.threads thread).held, scope ∈ (after.threads thread).held)
    (blocked : ∀ scope, (state.threads thread).point = .blocked scope →
      (after.threads thread).point = .blocked scope) : Obstructs after key isWrite thread := by
  cases obstructs with
  | writing isHeld same exclusive => exact .writing (held _ isHeld) same exclusive
  | reading isHeld same request => exact .reading (held _ isHeld) same request
  | queued isBlocked same exclusive request =>
      exact .queued (blocked _ isBlocked) same exclusive request

omit [DecidableEq τ] in
theorem Consistent.refuses {state : State τ} (consistent : Consistent state) {key : Str}
    {isWrite : Bool} {lock : Nat} {thread : τ} (obstructs : Obstructs state key isWrite thread)
    (found : state.locks.lookup key = some lock) :
    (state.objects lock).admits isWrite = false ∧
      ((state.objects lock).request isWrite).admits isWrite = false := by
  have readers := (consistent.readers key lock found).le thread
  have writers := (consistent.writers key lock found).le thread
  have requests := (consistent.requests key lock found).le thread
  cases obstructs with
  | @writing scope held same exclusive =>
      have positive : 0 < (state.threads thread).writeShare key :=
        List.countP_pos_iff.mpr ⟨scope, held, by simp [same, exclusive]⟩
      cases isWrite <;>
        simp [RWLock.admits, RWLock.admitsRead, RWLock.admitsWrite, RWLock.request] <;> omega
  | @reading scope held same request =>
      have positive : 0 < (state.threads thread).held.countP fun scope => scope.key = key :=
        List.countP_pos_iff.mpr ⟨scope, held, by simp [same]⟩
      rw [← Thread.heldShares_eq] at positive
      subst request
      simp [RWLock.admits, RWLock.admitsWrite, RWLock.request]
      omega
  | @queued scope blocked same exclusive request =>
      have positive : 0 < (state.threads thread).queuedShare key :=
        List.countP_pos_iff.mpr ⟨scope, by simp [Thread.queued, blocked, exclusive], by simp [same]⟩
      subst request
      simp [RWLock.admits, RWLock.admitsRead, RWLock.request]
      omega

/-! ## Stuck threads stay stuck -/

/-- The thread whose critical section the label is. -/
def Label.thread : Label τ → τ
  | .enter thread _ _ | .leave thread | .resume thread => thread

theorem State.threads_of_step {state after : State τ} {label : Label τ}
    (stepped : state.step label = some after) {other : τ} (distinct : other ≠ label.thread) :
    after.threads other = state.threads other := by
  cases State.stepped stepped with
  | dropped last releases =>
      obtain ⟨_, _, threads, _⟩ := State.releaseRef_spec releases
      rw [← threads]
      exact Function.update_of_ne distinct _ _
  | _ => exact Function.update_of_ne distinct _ _

omit [DecidableEq τ] in
theorem Thread.referring_of_request {thread : Thread} {scope : Scope}
    (request : thread.request = some scope) : scope ∈ thread.referring := by
  obtain ⟨scopes, point⟩ := thread
  cases point <;> cases request <;> simp [Thread.referring]

omit [DecidableEq τ] in
theorem Thread.held_of_request {thread : Thread} {scope : Scope}
    (request : thread.request = some scope) : thread.held = thread.scopes := by
  obtain ⟨scopes, point⟩ := thread
  cases point <;> cases request <;> rfl

theorem Stuck.begins {state after : State τ} {label : Label τ} {members : Set τ}
    (stuck : Stuck state members) (consistent : Consistent state)
    (member : label.thread ∈ members) (stepped : state.step label = some after) :
    ∃ scope, (state.threads label.thread).point = .marked scope ∧
      after.threads label.thread =
        { state.threads label.thread with point := .blocked scope } := by
  obtain ⟨other, _, scope, request, obstructs⟩ := stuck _ member
  have registered := consistent.pointing _ scope (Thread.referring_of_request request)
  have refuses := consistent.refuses obstructs registered
  cases State.stepped stepped with
  | joined running _ | created running _ => simp [Thread.request, Label.thread, running] at request
  | left inside => simp [Thread.request, Label.thread, inside] at request
  | rejected located _ | marked located _ =>
      simp [Thread.request, Label.thread, located] at request
  | entered marked admits =>
      simp only [Thread.request, Label.thread, marked, Option.some.injEq] at request
      subst request
      rw [refuses.2] at admits
      cases admits
  | @queued thread asked marked _ => exact ⟨asked, marked, Function.update_self ..⟩
  | admitted blocked admits =>
      simp only [Thread.request, Label.thread, blocked, Option.some.injEq] at request
      subst request
      rw [refuses.1] at admits
      cases admits
  | registered acquired => simp [Thread.request, Label.thread, acquired] at request
  | released unregistered => simp [Thread.request, Label.thread, unregistered] at request
  | unmarked released => simp [Thread.request, Label.thread, released] at request
  | dropped last _ =>
      rcases last with rejected | unmarked
      · simp [Thread.request, Label.thread, rejected] at request
      · simp [Thread.request, Label.thread, unmarked] at request

/-- A thread goes on waiting for the same scope inside the same scopes. -/
structure Waits (before after : Thread) : Prop where
  request : after.request = before.request
  scopes : after.scopes = before.scopes
  blocked : ∀ scope, before.point = .blocked scope → after.point = .blocked scope

theorem Waits.refl (thread : Thread) : Waits thread thread :=
  ⟨rfl, rfl, fun _ => id⟩

theorem Waits.trans {first second third : Thread} (left : Waits first second)
    (right : Waits second third) : Waits first third :=
  ⟨right.request.trans left.request, right.scopes.trans left.scopes,
    fun scope blocked => right.blocked scope (left.blocked scope blocked)⟩

theorem Stuck.waits {state after : State τ} {label : Label τ} {members : Set τ}
    (stuck : Stuck state members) (consistent : Consistent state)
    (stepped : state.step label = some after) {thread : τ} (member : thread ∈ members) :
    Waits (state.threads thread) (after.threads thread) := by
  by_cases same : thread = label.thread
  · subst same
    obtain ⟨scope, marked, begins⟩ := stuck.begins consistent member stepped
    rw [begins]
    refine ⟨?_, rfl, fun asked blocked => ?_⟩
    · simp [Thread.request, marked]
    · rw [marked] at blocked
      cases blocked
  · rw [State.threads_of_step stepped same]
    exact .refl _

omit [DecidableEq τ] in
theorem WaitsFor.waits {state after : State τ} {thread other : τ}
    (waitsFor : WaitsFor state thread other)
    (first : Waits (state.threads thread) (after.threads thread))
    (second : Waits (state.threads other) (after.threads other))
    (asks : (state.threads other).request.isSome) : WaitsFor after thread other := by
  obtain ⟨scope, request, obstructs⟩ := waitsFor
  obtain ⟨asked, isAsked⟩ := Option.isSome_iff_exists.mp asks
  refine ⟨scope, by rw [first.request, request], obstructs.congr ?_ second.blocked⟩
  rw [Thread.held_of_request isAsked, Thread.held_of_request (second.request.trans isAsked),
    second.scopes]
  exact fun _ => id

omit [DecidableEq τ] in
theorem Stuck.asks {state : State τ} {members : Set τ} (stuck : Stuck state members) {thread : τ}
    (member : thread ∈ members) : (state.threads thread).request.isSome := by
  obtain ⟨_, _, scope, request, _⟩ := stuck thread member
  rw [request]
  rfl

omit [DecidableEq τ] in
/-- The threads on the cycles through one thread are stuck. -/
theorem Stuck.of_cycle {state : State τ} {thread : τ}
    (cycle : Relation.TransGen (WaitsFor state) thread thread) :
    Stuck state {other | Relation.TransGen (WaitsFor state) thread other ∧
        Relation.TransGen (WaitsFor state) other thread} ∧
      thread ∈ {other | Relation.TransGen (WaitsFor state) thread other ∧
        Relation.TransGen (WaitsFor state) other thread} := by
  refine ⟨?_, cycle, cycle⟩
  rintro party ⟨before, behind⟩
  obtain ⟨next, waitsFor, rest⟩ := Relation.TransGen.head'_iff.mp behind
  refine ⟨next, ⟨before.tail waitsFor, ?_⟩, waitsFor⟩
  rcases Relation.reflTransGen_iff_eq_or_transGen.mp rest with rfl | path
  · exact cycle
  · exact path

/-- Threads that wait for each other do so forever. -/
theorem Stuck.step {state after : State τ} {label : Label τ} {members : Set τ}
    (stuck : Stuck state members) (consistent : Consistent state)
    (stepped : state.step label = some after) : Stuck after members := by
  intro thread member
  obtain ⟨other, isMember, waitsFor⟩ := stuck thread member
  exact ⟨other, isMember, waitsFor.waits (stuck.waits consistent stepped member)
    (stuck.waits consistent stepped isMember) (stuck.asks isMember)⟩

/-- No member of a stuck set is ever admitted. -/
theorem Stuck.forever {allowed : State τ → Label τ → Prop} {state after : State τ}
    {members : Set τ} (stuck : Stuck state members) (consistent : Consistent state)
    (reached : Reaches State.step allowed state after) :
    Stuck after members ∧
      ∀ thread ∈ members, Waits (state.threads thread) (after.threads thread) := by
  have kept : Consistent after ∧ Stuck after members ∧
      ∀ thread ∈ members, Waits (state.threads thread) (after.threads thread) := by
    induction reached with
    | refl => exact ⟨consistent, stuck, fun _ _ => .refl _⟩
    | tail _ last induction =>
        obtain ⟨label, _, stepped⟩ := last
        obtain ⟨consistent, stuck, waits⟩ := induction
        exact ⟨consistent.step stepped, stuck.step consistent stepped, fun thread member =>
          (waits thread member).trans (stuck.waits consistent stepped member)⟩
  exact kept.2

end FuseDrive.Concurrency
