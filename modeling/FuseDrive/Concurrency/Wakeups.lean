import FuseDrive.Concurrency.LockCondition
import FuseDrive.Concurrency.Scripts

/-!
# Threads that sleep

For the lock manager a thread in `acquire_read` or `acquire_write` goes on as
soon as its lock admits it.  In the program it sleeps on the condition of that
lock until a release notifies it, looks at the counters, and may find that it has
to sleep again.  What the manager takes for granted holds because the lock
announces its releases: nobody sleeps whom the lock admits.
-/

namespace FuseDrive.Concurrency

open Transition

/-! ## The calls of a scope -/

namespace Scope

/-- The method of its `RWLock` that a scope begins with. -/
def acquire (scope : Scope) : Method :=
  if scope.isWrite then .acquireWrite else .acquireRead

/-- The method of its `RWLock` that a scope ends with. -/
def release (scope : Scope) : Method :=
  if scope.isWrite then .releaseWrite else .releaseRead

theorem acquire_opening (scope : Scope) (lock : RWLock) :
    scope.acquire.opening lock = lock.request scope.isWrite := by
  unfold acquire
  cases scope.isWrite <;> rfl

theorem acquire_admits (scope : Scope) (lock : RWLock) :
    scope.acquire.admits lock = lock.admits scope.isWrite := by
  unfold acquire
  cases scope.isWrite <;> rfl

theorem acquire_closing (scope : Scope) (lock : RWLock) :
    scope.acquire.closing lock = lock.admitted scope.isWrite := by
  unfold acquire
  cases scope.isWrite <;> rfl

theorem acquire_notifies (scope : Scope) (lock : RWLock) :
    scope.acquire.notifies lock = false := by
  unfold acquire
  cases scope.isWrite <;> rfl

theorem release_closing (scope : Scope) (lock : RWLock) :
    scope.release.closing lock = lock.release scope.isWrite := by
  unfold release
  cases scope.isWrite <;> rfl

theorem release_admits (scope : Scope) (lock : RWLock) : scope.release.admits lock = true := by
  unfold release
  cases scope.isWrite <;> rfl

theorem refuses_request (scope other : Scope) {lock : RWLock}
    (refuses : lock.admits other.isWrite = false) :
    (lock.request scope.isWrite).admits other.isWrite = false := by
  rw [← acquire_admits] at refuses
  rw [← acquire_opening, ← acquire_admits]
  exact LockState.announces.opening scope.acquire other.acquire lock refuses

theorem refuses_admitted (scope other : Scope) {lock : RWLock}
    (admits : lock.admits scope.isWrite = true) (refuses : lock.admits other.isWrite = false) :
    (lock.admitted scope.isWrite).admits other.isWrite = false := by
  rw [← acquire_admits] at admits refuses
  rw [← acquire_closing, ← acquire_admits]
  exact LockState.announces.closing scope.acquire other.acquire lock admits
    (scope.acquire_notifies _) refuses

theorem refuses_release (scope other : Scope) {lock : RWLock}
    (silent : scope.release.notifies (lock.release scope.isWrite) = false)
    (refuses : lock.admits other.isWrite = false) :
    (lock.release scope.isWrite).admits other.isWrite = false := by
  rw [← acquire_admits] at refuses
  rw [← release_closing] at silent ⊢
  rw [← acquire_admits]
  exact LockState.announces.closing scope.release other.acquire lock (scope.release_admits lock)
    silent refuses

end Scope

/-! ## Sleeping and waking -/

/-- Threads that follow scripts, and which of them sleep on the condition of
their lock. -/
structure Wakeful (τ : Type) where
  scripted : Scripted τ
  asleep : τ → Bool := fun _ => false

namespace Wakeful

variable {τ : Type}

def point (state : Wakeful τ) (thread : τ) : Point :=
  (state.scripted.manager.threads thread).point

def lock (state : Wakeful τ) (scope : Scope) : RWLock :=
  state.scripted.manager.objects scope.lock

/-- The end of the scope calls `notify_all` on the condition of its lock. -/
def notifies (state : Wakeful τ) (scope : Scope) : Bool :=
  scope.release.notifies ((state.lock scope).release scope.isWrite)

/-- `notify_all`. -/
def wake (state : Wakeful τ) (lock : Nat) : τ → Bool := fun thread =>
  match state.point thread with
  | .blocked scope => state.asleep thread && scope.lock ≠ lock
  | _ => state.asleep thread

variable [DecidableEq τ]

/-- `wait`. -/
def sleep (state : Wakeful τ) (thread : τ) : τ → Bool :=
  Function.update state.asleep thread true

/-- The next step of one thread. -/
def step (state : Wakeful τ) (thread : τ) : Option (Wakeful τ) :=
  match state.point thread with
  | .marked scope =>
      (state.scripted.step thread).map fun scripted =>
        if ((state.lock scope).request scope.isWrite).admits scope.isWrite then
          { state with scripted }
        else { scripted, asleep := state.sleep thread }
  | .blocked scope =>
      if state.asleep thread then none
      else if (state.lock scope).admits scope.isWrite then
        (state.scripted.step thread).map fun scripted => { state with scripted }
      else some { state with asleep := state.sleep thread }
  | .unregistered scope =>
      (state.scripted.step thread).map fun scripted =>
        if state.notifies scope then { scripted, asleep := state.wake scope.lock }
        else { state with scripted }
  | _ => (state.scripted.step thread).map fun scripted => { state with scripted }

/-- The steps one by one. -/
inductive Stepped (state : Wakeful τ) (thread : τ) : Wakeful τ → Prop where
  | slept {scope scripted} (marked : state.point thread = .marked scope)
      (refuses : ((state.lock scope).request scope.isWrite).admits scope.isWrite = false)
      (taken : state.scripted.step thread = some scripted) :
      Stepped state thread { scripted, asleep := state.sleep thread }
  /-- Woken in vain. -/
  | again {scope} (blocked : state.point thread = .blocked scope)
      (awake : state.asleep thread = false)
      (refuses : (state.lock scope).admits scope.isWrite = false) :
      Stepped state thread { state with asleep := state.sleep thread }
  | notified {scope scripted} (unregistered : state.point thread = .unregistered scope)
      (taken : state.scripted.step thread = some scripted) :
      Stepped state thread { scripted, asleep := state.wake scope.lock }
  | quiet {scripted} (awake : ∀ scope, state.point thread = .blocked scope →
        state.asleep thread = false)
      (silent : ∀ scope, state.point thread = .unregistered scope → state.notifies scope = false)
      (taken : state.scripted.step thread = some scripted) :
      Stepped state thread { state with scripted }

theorem stepped {state after : Wakeful τ} {thread : τ} (taken : state.step thread = some after) :
    Stepped state thread after := by
  unfold step at taken
  split at taken
  · rename_i scope marked
    obtain ⟨scripted, goes, rfl⟩ := Option.map_eq_some_iff.mp taken
    split
    · exact .quiet (by simp [marked]) (by simp [marked]) goes
    · exact .slept marked (Bool.eq_false_iff.mpr ‹_›) goes
  · rename_i scope blocked
    split at taken
    · cases taken
    rename_i awake
    rw [Bool.not_eq_true] at awake
    split at taken
    · obtain ⟨scripted, goes, rfl⟩ := Option.map_eq_some_iff.mp taken
      exact .quiet (fun _ _ => awake) (by simp [blocked]) goes
    · cases taken
      exact .again blocked awake (Bool.eq_false_iff.mpr ‹_›)
  · rename_i scope unregistered
    obtain ⟨scripted, goes, rfl⟩ := Option.map_eq_some_iff.mp taken
    split
    · exact .notified unregistered goes
    · rename_i silent
      refine .quiet (by simp [unregistered]) ?_ goes
      intro other same
      rw [unregistered, Point.unregistered.injEq] at same
      exact same ▸ Bool.eq_false_iff.mpr silent
  · rename_i notMarked notBlocked notUnregistered
    obtain ⟨scripted, goes, rfl⟩ := Option.map_eq_some_iff.mp taken
    exact .quiet (fun scope blocked => absurd blocked (notBlocked scope))
      (fun scope unregistered => absurd unregistered (notUnregistered scope)) goes

end Wakeful

/-! ## Nobody sleeps whom the lock admits -/

section Awake

variable {τ : Type} [DecidableEq τ]

/-- A step keeps a thread out that waits for another step's notification. -/
theorem State.refuses_of_step {state after : State τ} {label : Label τ} {sleeper : τ}
    {scope : Scope} (consistent : Consistent state) (taken : state.step label = some after)
    (blocked : (state.threads sleeper).point = .blocked scope) (distinct : sleeper ≠ label.thread)
    (refuses : (state.objects scope.lock).admits scope.isWrite = false)
    (unnotified : ∀ ending, (state.threads label.thread).point = .unregistered ending →
      scope.lock = ending.lock → ending.release.notifies
        ((state.objects ending.lock).release ending.isWrite) = false) :
    (after.objects scope.lock).admits scope.isWrite = false := by
  have replaced {index : Nat} {object : RWLock}
      (same : scope.lock = index → object.admits scope.isWrite = false) :
      (Function.update state.objects index object scope.lock).admits scope.isWrite = false := by
    by_cases isIndex : scope.lock = index
    · subst isIndex
      rw [Function.update_self]
      exact same rfl
    · rw [Function.update_of_ne isIndex]
      exact refuses
  cases State.stepped taken with
  | created running absent =>
      refine replaced fun isNew => ?_
      have found := consistent.pointing sleeper scope (by simp [Thread.referring, blocked])
      exact absurd (consistent.fresh _ _ found) (by omega)
  | @entered thread entering marked admits =>
      refine replaced fun same => entering.refuses_admitted scope admits ?_
      exact entering.refuses_request scope (same ▸ refuses)
  | @queued thread entering marked refused =>
      exact replaced fun same => entering.refuses_request scope (same ▸ refuses)
  | @admitted thread entering waited admits =>
      exact replaced fun same => entering.refuses_admitted scope admits (same ▸ refuses)
  | @released thread ending unregistered =>
      exact replaced fun same =>
        ending.refuses_release scope (unnotified ending unregistered same) (same ▸ refuses)
  | dropped last releases =>
      obtain ⟨_, _, _, objects, _⟩ := State.releaseRef_spec releases
      rw [← objects] at refuses
      exact refuses
  | joined | left | rejected | marked | registered | unmarked => exact refuses

/-- A call that its lock does not admit begins to wait. -/
theorem State.waits_of_resume {state after : State τ} {thread : τ} {scope : Scope}
    (marked : (state.threads thread).point = .marked scope)
    (refuses : ((state.objects scope.lock).request scope.isWrite).admits scope.isWrite = false)
    (taken : state.step (.resume thread) = some after) :
    (after.threads thread).point = .blocked scope ∧
      after.objects scope.lock = (state.objects scope.lock).request scope.isWrite := by
  simp only [State.step, State.resume, marked, refuses, Bool.false_eq_true, if_false,
    Option.some.injEq] at taken
  subst taken
  constructor
  · simp [State.setPoint, State.setThread]
  · exact Function.update_self ..

/-- A step of a script is a step of the manager, or leaves it alone. -/
theorem Scripted.Stepped.manager {state after : Scripted τ} {thread : τ}
    (stepped : Scripted.Stepped state thread after) :
    (∃ label : Label τ, label.thread = thread ∧
      state.manager.step label = some after.manager) ∨
    after.manager = state.manager ∧ (state.manager.threads thread).point = .running := by
  cases stepped with
  | entered running acts taken | left running acts taken => exact Or.inl ⟨_, rfl, taken⟩
  | denied rejected taken | resumed passed taken => exact Or.inl ⟨.resume thread, rfl, taken⟩
  | stayed running acts => exact Or.inr ⟨rfl, running⟩

namespace Wakeful

theorem sleep_other (state : Wakeful τ) {thread other : τ} (distinct : other ≠ thread) :
    state.sleep thread other = state.asleep other :=
  Function.update_of_ne distinct _ _

omit [DecidableEq τ] in
theorem of_wake {state : Wakeful τ} {lock : Nat} {thread : τ}
    (asleep : state.wake lock thread = true) :
    state.asleep thread = true ∧ ∀ scope, state.point thread = .blocked scope →
      scope.lock ≠ lock := by
  unfold wake at asleep
  split at asleep
  · rename_i waiting blocked
    obtain ⟨before, elsewhere⟩ := Bool.and_eq_true_iff.mp asleep
    refine ⟨before, fun scope isBlocked => ?_⟩
    rw [blocked, Point.blocked.injEq] at isBlocked
    exact isBlocked ▸ of_decide_eq_true elsewhere
  · rename_i notBlocked
    exact ⟨asleep, fun scope blocked => absurd blocked (notBlocked scope)⟩

/-- Who sleeps is blocked, and its lock does not admit it. -/
structure Attentive (state : Wakeful τ) : Prop where
  consistent : Consistent state.scripted.manager
  refused : ∀ thread, state.asleep thread = true →
    ∃ scope, state.point thread = .blocked scope ∧
      (state.lock scope).admits scope.isWrite = false

omit [DecidableEq τ] in
theorem Attentive.start (scripts : τ → Script) :
    Attentive { scripted := Scripted.start scripts } where
  consistent := .initial
  refused _ asleep := by cases asleep

omit [DecidableEq τ] in
theorem Attentive.awake {state : Wakeful τ} (attentive : state.Attentive) {thread : τ}
    (elsewhere : ∀ scope, state.point thread ≠ .blocked scope) : state.asleep thread = false := by
  rw [← Bool.not_eq_true]
  intro asleep
  obtain ⟨scope, blocked, -⟩ := attentive.refused thread asleep
  exact elsewhere scope blocked

theorem Attentive.goes_consistent {state : Wakeful τ} {thread : τ} {scripted : Scripted τ}
    (attentive : state.Attentive) (taken : state.scripted.step thread = some scripted) :
    Consistent scripted.manager := by
  rcases (Scripted.stepped taken).manager with ⟨label, _, goes⟩ | ⟨same, _⟩
  · exact attentive.consistent.step goes
  · rw [same]
    exact attentive.consistent

theorem Attentive.sleeps {state : Wakeful τ} {thread sleeper : τ} {scripted : Scripted τ}
    (attentive : state.Attentive) (taken : state.scripted.step thread = some scripted)
    (asleep : state.asleep sleeper = true) (distinct : sleeper ≠ thread)
    (unnotified : ∀ scope ending, state.point sleeper = .blocked scope →
      state.point thread = .unregistered ending → scope.lock = ending.lock →
        state.notifies ending = false) :
    ∃ scope, (scripted.manager.threads sleeper).point = .blocked scope ∧
      (scripted.manager.objects scope.lock).admits scope.isWrite = false := by
  obtain ⟨scope, blocked, refuses⟩ := attentive.refused sleeper asleep
  rcases (Scripted.stepped taken).manager with ⟨label, isThread, goes⟩ | ⟨same, _⟩
  · subst isThread
    refine ⟨scope, ?_, ?_⟩
    · rw [State.threads_of_step goes distinct]
      exact blocked
    · exact State.refuses_of_step attentive.consistent goes blocked distinct refuses
        fun ending unregistered => unnotified scope ending blocked unregistered
  · rw [same]
    exact ⟨scope, blocked, refuses⟩

theorem Attentive.step {state after : Wakeful τ} {thread : τ} (attentive : state.Attentive)
    (stepped : Stepped state thread after) : after.Attentive := by
  cases stepped with
  | @slept scope scripted marked refuses taken =>
      refine ⟨attentive.goes_consistent taken, fun sleeper asleep => ?_⟩
      by_cases same : sleeper = thread
      · subst same
        cases Scripted.stepped taken with
        | entered running | left running | stayed running =>
            rw [point, running] at marked
            cases marked
        | denied rejected =>
            rw [point, rejected] at marked
            cases marked
        | resumed passed goes =>
            obtain ⟨blocked, object⟩ := State.waits_of_resume marked refuses goes
            exact ⟨scope, blocked, (congrArg (RWLock.admits · _) object).trans refuses⟩
      · change state.sleep thread sleeper = true at asleep
        rw [sleep_other state same] at asleep
        refine attentive.sleeps taken asleep same ?_
        intro _ ending _ unregistered
        rw [marked] at unregistered
        cases unregistered
  | again blocked awake refuses =>
      refine ⟨attentive.consistent, fun sleeper asleep => ?_⟩
      by_cases same : sleeper = thread
      · subst same
        exact ⟨_, blocked, refuses⟩
      · change state.sleep thread sleeper = true at asleep
        rw [sleep_other state same] at asleep
        exact attentive.refused sleeper asleep
  | @notified ending scripted unregistered taken =>
      refine ⟨attentive.goes_consistent taken, fun sleeper woken => ?_⟩
      obtain ⟨asleep, elsewhere⟩ := of_wake woken
      have distinct : sleeper ≠ thread := by
        rintro rfl
        rw [attentive.awake (by simp [unregistered])] at asleep
        cases asleep
      refine attentive.sleeps taken asleep distinct ?_
      intro scope other blocked isEnding same
      rw [unregistered, Point.unregistered.injEq] at isEnding
      subst isEnding
      exact absurd same (elsewhere scope blocked)
  | quiet awake silent taken =>
      refine ⟨attentive.goes_consistent taken, fun sleeper asleep => ?_⟩
      have distinct : sleeper ≠ thread := by
        rintro rfl
        obtain ⟨scope, blocked, -⟩ := attentive.refused sleeper asleep
        rw [awake scope blocked] at asleep
        cases asleep
      exact attentive.sleeps taken asleep distinct fun _ ending _ unregistered _ =>
        silent ending unregistered

theorem attentive_of_reaches {scripts : τ → Script} {state : Wakeful τ}
    (reached : Reaches step (fun _ _ => True) { scripted := Scripted.start scripts } state) :
    state.Attentive :=
  reached.invariant (fun attentive _ taken => attentive.step (stepped taken)) (.start scripts)

/-- A step of the script is possible as soon as the manager allows it. -/
theorem Attentive.matches {state : Wakeful τ} (attentive : state.Attentive) {thread : τ}
    {scripted : Scripted τ} (taken : state.scripted.step thread = some scripted) :
    ∃ next, Wakeful.step state thread = some next ∧ next.scripted = scripted := by
  cases isPoint : state.point thread with
  | marked scope =>
      simp only [Wakeful.step, isPoint, taken, Option.map_some]
      refine ⟨_, rfl, ?_⟩
      split <;> rfl
  | unregistered scope =>
      simp only [Wakeful.step, isPoint, taken, Option.map_some]
      refine ⟨_, rfl, ?_⟩
      split <;> rfl
  | blocked scope =>
      have admits : (state.lock scope).admits scope.isWrite = true := by
        rw [← Bool.not_eq_false]
        intro refuses
        have point : (state.scripted.manager.threads thread).point = .blocked scope := isPoint
        have object : (state.scripted.manager.objects scope.lock).admits scope.isWrite = false :=
          refuses
        simp [Scripted.step, point, State.step, State.resume, object] at taken
      have awake : state.asleep thread = false := by
        rw [← Bool.not_eq_true]
        intro asleep
        obtain ⟨asked, blocked, refuses⟩ := attentive.refused thread asleep
        rw [isPoint, Point.blocked.injEq] at blocked
        rw [← blocked, admits] at refuses
        cases refuses
      simp only [Wakeful.step, isPoint, awake, admits, taken, Bool.false_eq_true, if_false, if_true,
        Option.map_some]
      exact ⟨_, rfl, rfl⟩
  | running | located scope | rejected scope | acquired scope | released scope | unmarked scope =>
      simp only [Wakeful.step, isPoint, taken, Option.map_some]
      exact ⟨_, rfl, rfl⟩

/-- Where nobody has a step nobody has one in the manager. -/
theorem Attentive.settled {state : Wakeful τ} (attentive : state.Attentive)
    (settled : Settled Wakeful.step (fun _ _ => True) (fun _ => True) state) :
    Settled Scripted.step (fun _ _ => True) (fun _ => True) state.scripted := by
  intro thread _ _
  rw [Option.eq_none_iff_forall_ne_some]
  intro scripted taken
  obtain ⟨next, goes, -⟩ := attentive.matches taken
  rw [settled thread trivial trivial] at goes
  cases goes

theorem view_of_stepped {state after : Wakeful τ} {thread : τ}
    (stepped : Stepped state thread after) :
    after.scripted = state.scripted ∨ state.scripted.step thread = some after.scripted := by
  cases stepped with
  | again => exact Or.inl rfl
  | slept _ _ taken | notified _ taken | quiet _ _ taken => exact Or.inr taken

theorem view_of_reaches {scripts : τ → Script} {state : Wakeful τ}
    (reached : Reaches step (fun _ _ => True) { scripted := Scripted.start scripts } state) :
    Reaches Scripted.step (fun _ _ => True) (Scripted.start scripts) state.scripted := by
  refine (Reaches.viewed scripted (fun _ _ _ => trivial) ?_ trivial reached).2
  intro before thread after _ _ taken
  rcases view_of_stepped (stepped taken) with same | goes
  · exact Or.inl same
  · exact Or.inr ⟨thread, trivial, goes⟩

end Wakeful

end Awake

/-- The conditions of the locks cannot be told from locks that admit whom their
counters admit.  Every run of threads that sleep and are notified is a run of the
lock manager, and whatever a thread could do in the manager it can do with its
next step. -/
theorem conditions_refine {τ : Type} [DecidableEq τ] {scripts : τ → Script} {state : Wakeful τ}
    (reached : Reaches Wakeful.step (fun _ _ => True) { scripted := Scripted.start scripts }
      state) :
    Reaches Scripted.step (fun _ _ => True) (Scripted.start scripts) state.scripted ∧
      ∀ thread scripted, state.scripted.step thread = some scripted →
        ∃ next, state.step thread = some next ∧ next.scripted = scripted :=
  ⟨Wakeful.view_of_reaches reached,
    fun _ _ taken => (Wakeful.attentive_of_reaches reached).matches taken⟩

/-- Before the request of the other thread is rejected the first one sleeps. -/
theorem conditions_refine_triggerDeadlock :
    ∃ state, run Wakeful.step { scripted := Scripted.start triggerDeadlock }
        (deadlockTriggered.take 13) = some state ∧ state.asleep 0 = true ∧
      Reaches Scripted.step (fun _ _ => True) (Scripted.start triggerDeadlock) state.scripted ∧
      ∀ thread scripted, state.scripted.step thread = some scripted →
        ∃ next, state.step thread = some next ∧ next.scripted = scripted := by
  obtain ⟨state, executed⟩ := Option.isSome_iff_exists.mp
    (show (run Wakeful.step { scripted := Scripted.start triggerDeadlock }
      (deadlockTriggered.take 13)).isSome from rfl)
  exact ⟨state, executed, look_of_run executed (·.asleep 0) rfl,
    conditions_refine (Reaches.of_free_run executed)⟩

/-! ## Waking in vain comes to an end -/

section Stirring

variable {τ : Type} [DecidableEq τ]

namespace Wakeful

/-- The thread was notified and has to look at its lock. -/
def stirs (state : Wakeful τ) (thread : τ) : Nat :=
  match state.asleep thread, state.point thread with
  | false, .blocked _ => 1
  | _, _ => 0

omit [DecidableEq τ] in
theorem stirs_le (state : Wakeful τ) (thread : τ) :
    state.stirs thread ≤ state.scripted.left thread := by
  unfold stirs
  split
  · rename_i scope awake blocked
    have rank : (state.scripted.manager.threads thread).point.rank = 2 := by
      rw [point] at blocked
      rw [blocked]
      rfl
    rw [Scripted.left, rank]
    omega
  · exact Nat.zero_le _

/-- A step of a script may wake everybody else; a look in vain wakes nobody. -/
def Stirring (most : Nat) (state : Wakeful τ) (total : Nat) : Prop :=
  ∃ left stirring, Tally state.scripted.left left ∧ Tally state.stirs stirring ∧ left ≤ most ∧
    total = left * (most + 1) + stirring

theorem Stirring.step {most total : Nat} {state after : Wakeful τ} {thread : τ}
    (measured : Stirring most state total) (stepped : Stepped state thread after) :
    ∃ less, less < total ∧ Stirring most after less := by
  obtain ⟨left, stirring, isLeft, isStirring, within, rfl⟩ := measured
  have goes {scripted : Scripted τ} (taken : state.scripted.step thread = some scripted)
      (same : after.scripted = scripted) :
      ∃ less, less < left * (most + 1) + stirring ∧ Stirring most after less := by
    subst same
    obtain ⟨lower, paid, isLower⟩ := Scripted.Remains.step isLeft (Scripted.stepped taken)
    obtain ⟨stirred, few, isStirred⟩ := Tally.of_le isLower after.stirs_le
    refine ⟨lower * (most + 1) + stirred, ?_, lower, stirred, isLower, isStirred, by omega, rfl⟩
    have scaled := Nat.mul_le_mul_right (most + 1) (show lower + 1 ≤ left from paid)
    rw [Nat.succ_mul] at scaled
    omega
  cases stepped with
  | slept marked refuses taken => exact goes taken rfl
  | notified unregistered taken => exact goes taken rfl
  | quiet awake silent taken => exact goes taken rfl
  | @again scope blocked awake refuses =>
      have stirs : state.stirs thread = 1 := by
        simp only [Wakeful.stirs, blocked, awake]
      have rests : Wakeful.stirs { state with asleep := state.sleep thread } thread = 0 := by
        have isAsleep : state.sleep thread thread = true := Function.update_self ..
        simp only [Wakeful.stirs, isAsleep]
      have positive := Tally.le isStirring thread
      refine ⟨left * (most + 1) + (stirring - 1), by omega, left, stirring - 1, isLeft,
        isStirring.change thread ?_ (by omega), within, rfl⟩
      intro other distinct
      have sameSleep := sleep_other state distinct
      simp only [Wakeful.stirs, sameSleep]
      rfl

omit [DecidableEq τ] in
theorem Stirring.start {scripts : τ → Script} {total : Nat}
    (costs : Tally (fun thread => (scripts thread).cost) total) :
    Stirring total { scripted := Scripted.start scripts } (total * (total + 1)) :=
  ⟨total, 0, costs.congr fun _ => rfl, Tally.zero.congr fun _ => rfl, Nat.le_refl total, rfl⟩

end Wakeful

end Stirring

/-- Disciplined scripts come to their end on real conditions too.  However often
threads are woken in vain, a run has a bounded number of steps, and it only stops
where every thread has finished. -/
theorem sleepers_end {τ : Type} [DecidableEq τ] {scripts : τ → Script} {total count : Nat}
    {finish : Wakeful τ} (disciplined : ∀ thread, (scripts thread).Disciplined [])
    (costs : Tally (fun thread => (scripts thread).cost) total)
    (worked : Worked Wakeful.step (fun _ _ => True) (fun _ => True)
      { scripted := Scripted.start scripts } count finish) :
    count ≤ total * (total + 1) ∧
      (Settled Wakeful.step (fun _ _ => True) (fun _ => True) finish ↔
        ∀ thread, finish.scripted.Finished thread) := by
  constructor
  · obtain ⟨rest, within, -⟩ := worked.bounded (Wakeful.Stirring.start costs)
      (fun stirring _ _ taken => stirring.step (Wakeful.stepped taken))
      (fun _ _ idle _ => absurd trivial idle)
    omega
  · have sound : finish.scripted.Sound :=
      Reaches.invariant (fun sound _ taken => sound.step (Scripted.stepped taken))
        (Wakeful.view_of_reaches worked.reaches) (Scripted.Sound.start disciplined)
    constructor
    · intro settled
      exact sound.settled_iff.mp ((Wakeful.attentive_of_reaches worked.reaches).settled settled)
    · intro finished thread _ _
      have stopped := sound.settled_iff.mpr finished thread trivial trivial
      have running : finish.point thread = .running := by
        rw [Wakeful.point, (finished thread).1]
      simp only [Wakeful.step, running, stopped, Option.map_none]

theorem sleepers_end_triggerDeadlock :
    ∃ count finish, Worked Wakeful.step (fun _ _ => True) (fun _ => True)
        { scripted := Scripted.start triggerDeadlock } count finish ∧
      finish.scripted.controls 0 = {} ∧ finish.scripted.controls 1 = {} ∧
      count ≤ 40 * (40 + 1) ∧
      (Settled Wakeful.step (fun _ _ => True) (fun _ => True) finish ↔
        ∀ thread, finish.scripted.Finished thread) := by
  obtain ⟨finish, executed⟩ := Option.isSome_iff_exists.mp
    (show (run Wakeful.step { scripted := Scripted.start triggerDeadlock }
      deadlockTriggered).isSome from rfl)
  obtain ⟨count, worked⟩ : ∃ count, Worked Wakeful.step (fun _ _ => True) (fun _ => True)
      { scripted := Scripted.start triggerDeadlock } count finish :=
    Worked.of_reaches (Reaches.of_free_run executed)
  exact ⟨count, finish, worked, look_of_run executed (·.scripted.controls 0) rfl,
    look_of_run executed (·.scripted.controls 1) rfl,
    sleepers_end triggerDeadlock_disciplined triggerDeadlock_cost worked⟩

end FuseDrive.Concurrency
