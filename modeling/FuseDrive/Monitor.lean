import FuseDrive.Transition
import Mathlib.Logic.Function.Basic

/-!
# Monitors

A monitor is data behind the lock of a condition.  A call takes the lock, does
its opening, waits on the condition while the data does not admit it, does its
closing and gives the lock back; before that it may notify everybody who waits.
Waiting gives the lock back too.  A thread that was notified takes the lock again
and looks at the data once more, which may have changed by then.

Nobody else gets the lock while a thread has it, so one step is all that a thread
does from taking the lock to giving it back.

A monitor announces if a call that makes the data admit others ends with a
notification.  Then nobody sleeps whom the data admits.
-/

namespace FuseDrive

/-- A monitor over data `σ` with calls `κ`.  Whether a call notifies depends on
the data it leaves, and `own` is what a thread keeps of the calls that have
returned to it. -/
structure Monitor (σ κ ρ : Type) where
  opening : κ → σ → σ
  admits : κ → σ → Bool
  closing : κ → σ → σ
  notifies : κ → σ → Bool
  own : κ → ρ → ρ

namespace Monitor

/-- Where a thread is. -/
inductive Point (κ : Type) where
  | outside
  /-- About to take the lock for the first time. -/
  | calling (call : κ)
  /-- In `wait`, and not notified since it began to wait. -/
  | waiting (call : κ)
  /-- Notified, and about to take the lock again. -/
  | notified (call : κ)
deriving DecidableEq

namespace Point

variable {κ : Type}

/-- The call that the thread is in. -/
def call : Point κ → Option κ
  | outside => none
  | calling call | waiting call | notified call => some call

/-- `notify_all`, for one thread. -/
def wake : Point κ → Point κ
  | waiting call => notified call
  | point => point

theorem wake_ne_waiting (point : Point κ) (call : κ) : point.wake ≠ .waiting call := by
  cases point <;> simp [wake]

@[simp] theorem call_wake (point : Point κ) : point.wake.call = point.call := by
  cases point <;> rfl

end Point

structure State (σ κ ρ τ : Type) where
  data : σ
  points : τ → Point κ
  own : τ → ρ

/-- A thread begins a call, or takes the lock. -/
inductive Label (κ τ : Type) where
  | call (thread : τ) (call : κ)
  | run (thread : τ)

variable {σ κ ρ τ : Type} [DecidableEq τ]

def State.setPoint (state : State σ κ ρ τ) (thread : τ) (point : Point κ) : State σ κ ρ τ :=
  { state with points := Function.update state.points thread point }

variable (monitor : Monitor σ κ ρ)

/-- A thread that has the lock for the first time does its opening; then it is
where a notified thread is. -/
def enter (state : State σ κ ρ τ) (thread : τ) (call : κ) : State σ κ ρ τ :=
  { state with data := monitor.opening call state.data }.setPoint thread (.notified call)

/-- The call returns. -/
def pass (state : State σ κ ρ τ) (thread : τ) (call : κ) : State σ κ ρ τ :=
  let data := monitor.closing call state.data
  { data
    points := fun other =>
      if other = thread then .outside
      else if monitor.notifies call data then (state.points other).wake
      else state.points other
    own := Function.update state.own thread (monitor.own call (state.own thread)) }

/-- A thread that has the lock looks at the data. -/
def look (state : State σ κ ρ τ) (thread : τ) (call : κ) : State σ κ ρ τ :=
  if monitor.admits call state.data then monitor.pass state thread call
  else state.setPoint thread (.waiting call)

/-- The transition system. -/
def step (state : State σ κ ρ τ) : Label κ τ → Option (State σ κ ρ τ)
  | .call thread call =>
      match state.points thread with
      | .outside => some (state.setPoint thread (.calling call))
      | _ => none
  | .run thread =>
      match state.points thread with
      | .calling call => some (monitor.look (monitor.enter state thread call) thread call)
      | .notified call => some (monitor.look state thread call)
      | .outside | .waiting _ => none

/-! ## What a step does -/

/-- A thread has taken the lock for a call. -/
inductive Entered (state : State σ κ ρ τ) (thread : τ) (call : κ) : State σ κ ρ τ → Prop where
  | first (calling : state.points thread = .calling call) :
      Entered state thread call (monitor.enter state thread call)
  | again (notified : state.points thread = .notified call) : Entered state thread call state

inductive Stepped (state : State σ κ ρ τ) : Label κ τ → State σ κ ρ τ → Prop where
  | called {thread call} (outside : state.points thread = .outside) :
      Stepped state (.call thread call) (state.setPoint thread (.calling call))
  | passed {thread call entered} (enters : monitor.Entered state thread call entered)
      (admits : monitor.admits call entered.data = true) :
      Stepped state (.run thread) (monitor.pass entered thread call)
  | waited {thread call entered} (enters : monitor.Entered state thread call entered)
      (refuses : monitor.admits call entered.data = false) :
      Stepped state (.run thread) (entered.setPoint thread (.waiting call))

variable {monitor}

theorem Entered.stepped {state entered : State σ κ ρ τ} {thread : τ} {call : κ}
    (enters : monitor.Entered state thread call entered) :
    monitor.Stepped state (.run thread) (monitor.look entered thread call) := by
  unfold look
  split
  · exact .passed enters ‹_›
  · exact .waited enters (Bool.eq_false_iff.mpr ‹_›)

theorem stepped_of_step {state next : State σ κ ρ τ} {label : Label κ τ}
    (taken : monitor.step state label = some next) : monitor.Stepped state label next := by
  cases label <;> simp only [step] at taken
  case call thread call =>
    split at taken <;> cases taken
    exact .called ‹_›
  case run thread =>
    split at taken <;> cases taken
    · exact Entered.stepped (.first ‹_›)
    · exact Entered.stepped (.again ‹_›)

theorem Entered.notified {state entered : State σ κ ρ τ} {thread : τ} {call : κ}
    (enters : monitor.Entered state thread call entered) :
    entered.points thread = .notified call := by
  cases enters with
  | first calling => exact Function.update_self ..
  | again notified => exact notified

theorem Entered.own {state entered : State σ κ ρ τ} {thread : τ} {call : κ}
    (enters : monitor.Entered state thread call entered) : entered.own = state.own := by
  cases enters with
  | first calling => rfl
  | again notified => rfl

/-! ## Invariants -/

/-- The parts of a call preserve the invariant. -/
structure Preserves (monitor : Monitor σ κ ρ)
    (allowed : State σ κ ρ τ → Label κ τ → Prop) (invariant : State σ κ ρ τ → Prop) : Prop where
  call : ∀ {state thread call}, invariant state → state.points thread = .outside →
    allowed state (.call thread call) → invariant (state.setPoint thread (.calling call))
  enter : ∀ {state thread call}, invariant state → state.points thread = .calling call →
    invariant (monitor.enter state thread call)
  pass : ∀ {state thread call}, invariant state → state.points thread = .notified call →
    monitor.admits call state.data = true → invariant (monitor.pass state thread call)
  wait : ∀ {state thread call}, invariant state → state.points thread = .notified call →
    monitor.admits call state.data = false → invariant (state.setPoint thread (.waiting call))

section Preserves

variable {allowed : State σ κ ρ τ → Label κ τ → Prop} {invariant : State σ κ ρ τ → Prop}

theorem Preserves.entered (preserves : Preserves monitor allowed invariant)
    {state entered : State σ κ ρ τ} {thread : τ} {call : κ} (holds : invariant state)
    (enters : monitor.Entered state thread call entered) : invariant entered := by
  cases enters with
  | first calling => exact preserves.enter holds calling
  | again notified => exact holds

theorem Preserves.step (preserves : Preserves monitor allowed invariant)
    {state next : State σ κ ρ τ} {label : Label κ τ} (holds : invariant state)
    (isAllowed : allowed state label) (taken : monitor.step state label = some next) :
    invariant next := by
  cases stepped_of_step taken with
  | called outside => exact preserves.call holds outside isAllowed
  | passed enters admits =>
      exact preserves.pass (preserves.entered holds enters) enters.notified admits
  | waited enters refuses =>
      exact preserves.wait (preserves.entered holds enters) enters.notified refuses

theorem Preserves.reaches (preserves : Preserves monitor allowed invariant)
    {start finish : State σ κ ρ τ}
    (reached : Transition.Reaches monitor.step allowed start finish) (initial : invariant start) :
    invariant finish :=
  reached.invariant preserves.step initial

end Preserves

/-! ## Wake-ups -/

/-- The data admits none of those who wait and have not been notified. -/
def Awake (monitor : Monitor σ κ ρ) (state : State σ κ ρ τ) : Prop :=
  ∀ thread call, state.points thread = .waiting call → monitor.admits call state.data = false

/-- A call that makes the data admit others notifies them. -/
structure Announces (monitor : Monitor σ κ ρ) : Prop where
  opening : ∀ call other data, monitor.admits other data = false →
    monitor.admits other (monitor.opening call data) = false
  closing : ∀ call other data, monitor.admits call data = true →
    monitor.notifies call (monitor.closing call data) = false →
    monitor.admits other data = false → monitor.admits other (monitor.closing call data) = false

theorem State.setPoint_waiting {state : State σ κ ρ τ} {thread other : τ} {point : Point κ}
    {call : κ} (waiting : (state.setPoint thread point).points other = .waiting call) :
    state.points other = .waiting call ∨ point = .waiting call := by
  change Function.update state.points thread point other = _ at waiting
  rw [Function.update_apply] at waiting
  split at waiting
  · exact .inr waiting
  · exact .inl waiting

/-- In a monitor that announces no wake-up is lost. -/
theorem Announces.preserves (announces : Announces monitor)
    {allowed : State σ κ ρ τ → Label κ τ → Prop} :
    Preserves monitor allowed (Awake monitor) where
  call := by
    intro state thread call awake _ _ other asleep waiting
    rcases State.setPoint_waiting waiting with before | same
    · exact awake other asleep before
    · cases same
  enter := by
    intro state thread call awake _ other asleep waiting
    rcases State.setPoint_waiting waiting with before | same
    · exact announces.opening call asleep _ (awake other asleep before)
    · cases same
  pass := by
    intro state thread call awake _ admits other asleep waiting
    simp only [pass] at waiting ⊢
    split at waiting
    · cases waiting
    · split at waiting
      · exact absurd waiting (Point.wake_ne_waiting _ _)
      · rename_i silent
        exact announces.closing call asleep _ admits (Bool.eq_false_iff.mpr silent)
          (awake other asleep waiting)
  wait := by
    intro state thread call awake _ refuses other asleep waiting
    rcases State.setPoint_waiting waiting with before | same
    · exact awake other asleep before
    · cases same
      exact refuses

end Monitor

end FuseDrive
