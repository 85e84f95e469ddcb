import FuseDrive.Concurrency.ExclusiveScopes
import FuseDrive.Concurrency.Residue
import FuseDrive.Workload

/-!
# Scripts of nested scopes

A thread uses the manager through `with` statements, one after another and one
inside another, and catches `DeadlockError` where it has a `try`.  An exception
ends the scopes on its way out.  Threads that name their keys and ask for no
shared scope of a key inside whose scope they are come to their end together,
since a deadlock costs one of them its request.
-/

namespace FuseDrive.Concurrency

open Transition

/-! ## Scripts -/

/-- What a thread does with the manager. -/
inductive Script where
  | done
  /-- `with self.lock_manager.exclusive_lock(key)` or `shared_lock(key)`. -/
  | scope (key : Str) (isWrite : Bool) (body next : Script)
  /-- `try` with `except DeadlockError: pass`. -/
  | attempt (body next : Script)
  /-- Some other exception is raised. -/
  | fail
deriving DecidableEq

/-- The statement a script is inside of, with what follows it. -/
inductive Frame where
  | body (next : Script)
  | attempt (next : Script)
deriving DecidableEq

/-- A thread goes on with a script or has an exception on its way out. -/
inductive Mode where
  | normal (script : Script)
  | deadlocked
  | failed
deriving DecidableEq

structure Control where
  mode : Mode := .normal .done
  frames : List Frame := []
deriving DecidableEq

/-- What a thread in no call of the manager does next. -/
inductive Action where
  | enter (key : Str) (isWrite : Bool)
  | leave
  | stay
deriving DecidableEq

namespace Control

/-- The next action, with the control that follows if the manager lets the
thread in. -/
def act : Control → Option (Action × Control)
  | ⟨.normal (.scope key isWrite body next), frames⟩ =>
      some (.enter key isWrite, ⟨.normal body, .body next :: frames⟩)
  | ⟨.normal (.attempt body next), frames⟩ =>
      some (.stay, ⟨.normal body, .attempt next :: frames⟩)
  | ⟨.normal .fail, frames⟩ => some (.stay, ⟨.failed, frames⟩)
  | ⟨.normal .done, .body next :: frames⟩ => some (.leave, ⟨.normal next, frames⟩)
  | ⟨.deadlocked, .body _ :: frames⟩ => some (.leave, ⟨.deadlocked, frames⟩)
  | ⟨.failed, .body _ :: frames⟩ => some (.leave, ⟨.failed, frames⟩)
  | ⟨.normal .done, .attempt next :: frames⟩ => some (.stay, ⟨.normal next, frames⟩)
  | ⟨.deadlocked, .attempt next :: frames⟩ => some (.stay, ⟨.normal next, frames⟩)
  | ⟨.failed, .attempt _ :: frames⟩ => some (.stay, ⟨.failed, frames⟩)
  | ⟨_, []⟩ => none

/-- `DeadlockError` leaves the `with` statement whose scope was not entered. -/
def deny (control : Control) : Control :=
  ⟨.deadlocked, control.frames.tail⟩

/-- The actions one by one. -/
inductive Acts : Control → Action → Control → Prop where
  | enter {key isWrite body next frames} :
      Acts ⟨.normal (.scope key isWrite body next), frames⟩ (.enter key isWrite)
        ⟨.normal body, .body next :: frames⟩
  | attempt {body next frames} :
      Acts ⟨.normal (.attempt body next), frames⟩ .stay ⟨.normal body, .attempt next :: frames⟩
  | fail {frames} : Acts ⟨.normal .fail, frames⟩ .stay ⟨.failed, frames⟩
  | leave {next frames} :
      Acts ⟨.normal .done, .body next :: frames⟩ .leave ⟨.normal next, frames⟩
  | unwind {mode next frames} (raising : ∀ script, mode ≠ .normal script) :
      Acts ⟨mode, .body next :: frames⟩ .leave ⟨mode, frames⟩
  | succeed {next frames} :
      Acts ⟨.normal .done, .attempt next :: frames⟩ .stay ⟨.normal next, frames⟩
  | catches {next frames} :
      Acts ⟨.deadlocked, .attempt next :: frames⟩ .stay ⟨.normal next, frames⟩
  | pass {next frames} : Acts ⟨.failed, .attempt next :: frames⟩ .stay ⟨.failed, frames⟩

theorem acts {control after : Control} {action : Action}
    (isAct : control.act = some (action, after)) : Acts control action after := by
  unfold act at isAct
  split at isAct
  · cases isAct
    exact .enter
  · cases isAct
    exact .attempt
  · cases isAct
    exact .fail
  · cases isAct
    exact .leave
  · cases isAct
    exact .unwind nofun
  · cases isAct
    exact .unwind nofun
  · cases isAct
    exact .succeed
  · cases isAct
    exact .catches
  · cases isAct
    exact .pass
  · cases isAct

/-- The script has ended, normally or with an exception. -/
def Ended (control : Control) : Prop :=
  control.frames = [] ∧ ∀ script, control.mode = .normal script → script = .done

theorem act_eq_none_iff {control : Control} : control.act = none ↔ control.Ended := by
  obtain ⟨mode, frames⟩ := control
  cases mode with
  | normal script =>
      cases script <;> rcases frames with _ | ⟨_ | _, _⟩ <;> simp [act, Ended]
  | deadlocked | failed => rcases frames with _ | ⟨_ | _, _⟩ <;> simp [act, Ended]

end Control

/-! ## Threads that follow scripts -/

/-- The manager and what each thread has still to do. -/
structure Scripted (τ : Type) where
  manager : State τ := {}
  controls : τ → Control

namespace Scripted

variable {τ : Type}

/-- Every thread is before the first statement of its script. -/
def start (scripts : τ → Script) : Scripted τ where
  controls thread := { mode := .normal (scripts thread) }

variable [DecidableEq τ]

def advance (state : Scripted τ) (thread : τ) (manager : State τ) (control : Control) :
    Scripted τ where
  manager
  controls := Function.update state.controls thread control

/-- The next step of one thread. -/
def step (state : Scripted τ) (thread : τ) : Option (Scripted τ) :=
  match (state.manager.threads thread).point with
  | .running =>
      match (state.controls thread).act with
      | some (.enter key isWrite, control) =>
          (state.manager.step (.enter thread key isWrite)).map (state.advance thread · control)
      | some (.leave, control) =>
          (state.manager.step (.leave thread)).map (state.advance thread · control)
      | some (.stay, control) => some (state.advance thread state.manager control)
      | none => none
  | .rejected _ =>
      -- the exception that the check raised comes out of the call
      (state.manager.step (.resume thread)).map
        (state.advance thread · (state.controls thread).deny)
  | _ =>
      (state.manager.step (.resume thread)).map (state.advance thread · (state.controls thread))

/-- The steps one by one. -/
inductive Stepped (state : Scripted τ) (thread : τ) : Scripted τ → Prop where
  | entered {key isWrite control manager}
      (running : (state.manager.threads thread).point = .running)
      (acts : Control.Acts (state.controls thread) (.enter key isWrite) control)
      (taken : state.manager.step (.enter thread key isWrite) = some manager) :
      Stepped state thread (state.advance thread manager control)
  | left {control manager}
      (running : (state.manager.threads thread).point = .running)
      (acts : Control.Acts (state.controls thread) .leave control)
      (taken : state.manager.step (.leave thread) = some manager) :
      Stepped state thread (state.advance thread manager control)
  | stayed {control}
      (running : (state.manager.threads thread).point = .running)
      (acts : Control.Acts (state.controls thread) .stay control) :
      Stepped state thread (state.advance thread state.manager control)
  | denied {scope manager}
      (rejected : (state.manager.threads thread).point = .rejected scope)
      (taken : state.manager.step (.resume thread) = some manager) :
      Stepped state thread (state.advance thread manager (state.controls thread).deny)
  | resumed {manager}
      (passed : ∀ scope, (state.manager.threads thread).point ≠ .rejected scope)
      (taken : state.manager.step (.resume thread) = some manager) :
      Stepped state thread (state.advance thread manager (state.controls thread))

theorem stepped {state after : Scripted τ} {thread : τ}
    (taken : state.step thread = some after) : Stepped state thread after := by
  unfold step at taken
  split at taken
  · rename_i running
    split at taken
    · rename_i isAct
      obtain ⟨manager, entered, rfl⟩ := Option.map_eq_some_iff.mp taken
      exact .entered running (Control.acts isAct) entered
    · rename_i isAct
      obtain ⟨manager, left, rfl⟩ := Option.map_eq_some_iff.mp taken
      exact .left running (Control.acts isAct) left
    · rename_i isAct
      cases taken
      exact .stayed running (Control.acts isAct)
    · cases taken
  · rename_i rejected
    obtain ⟨manager, resumed, rfl⟩ := Option.map_eq_some_iff.mp taken
    exact .denied rejected resumed
  · rename_i passed
    obtain ⟨manager, resumed, rfl⟩ := Option.map_eq_some_iff.mp taken
    exact .resumed passed resumed

end Scripted

/-! ## The work of a thread -/

/-- The steps that a call has still to take, at most. -/
def Point.rank : Point → Nat
  | .located _ => 4
  | .marked _ | .unregistered _ => 3
  | .blocked _ | .released _ => 2
  | .acquired _ | .rejected _ | .unmarked _ => 1
  | .running => 0

/-- The steps that a script takes, at most. -/
def Script.cost : Script → Nat
  | .done => 0
  | .scope _ _ body next => body.cost + next.cost + 9
  | .attempt body next => body.cost + next.cost + 2
  | .fail => 1

def Frame.cost : Frame → Nat
  | .body next => next.cost + 4
  | .attempt next => next.cost + 1

def Mode.cost : Mode → Nat
  | .normal script => script.cost
  | .deadlocked | .failed => 0

def Control.cost (control : Control) : Nat :=
  control.mode.cost + (control.frames.map Frame.cost).sum

/-- What an action costs the manager. -/
def Action.cost : Action → Nat
  | .enter _ _ => 4
  | .leave => 3
  | .stay => 0

theorem Control.Acts.pays {control after : Control} {action : Action}
    (acts : control.Acts action after) : after.cost + action.cost < control.cost := by
  cases acts with
  | unwind raising =>
      rename_i mode next frames
      simp only [Control.cost, Action.cost, List.map_cons, List.sum_cons, Frame.cost]
      omega
  | _ =>
      simp only [Control.cost, Mode.cost, Script.cost, Action.cost, List.map_cons, List.sum_cons,
        Frame.cost]
      omega

theorem Control.deny_cost_le (control : Control) : control.deny.cost ≤ control.cost := by
  obtain ⟨mode, frames⟩ := control
  cases frames with
  | nil => simp [Control.deny, Control.cost, Mode.cost]
  | cons frame frames =>
      simp only [Control.deny, Control.cost, Mode.cost, List.tail_cons, List.map_cons,
        List.sum_cons]
      omega

section Work

variable {τ : Type} [DecidableEq τ]

theorem State.enter_spec {state after : State τ} {thread : τ} {key : Str} {isWrite : Bool}
    (taken : state.step (.enter thread key isWrite) = some after) :
    ∃ lock, (state.threads thread).point = .running ∧
      after.threads thread = ⟨(state.threads thread).scopes, .located ⟨key, isWrite, lock⟩⟩ := by
  cases State.stepped taken with
  | joined running found | created running absent =>
      exact ⟨_, running, Function.update_self ..⟩

theorem State.leave_spec {state after : State τ} {thread : τ}
    (taken : state.step (.leave thread) = some after) :
    ∃ scope scopes, state.threads thread = ⟨scope :: scopes, .running⟩ ∧
      after.threads thread = ⟨scopes, .unregistered scope⟩ := by
  cases State.stepped taken with
  | left inside => exact ⟨_, _, inside, Function.update_self ..⟩

/-- A call comes closer to its end with every section. -/
theorem State.rank_of_resume {state after : State τ} {thread : τ}
    (taken : state.step (.resume thread) = some after) :
    (after.threads thread).point.rank < (state.threads thread).point.rank := by
  cases State.stepped taken with
  | rejected point _ | marked point _ | entered point _ | queued point _ | admitted point _
  | registered point | released point | unmarked point =>
      simp [State.setPoint, State.setThread, State.mark, point, Point.rank]
  | dropped last _ =>
      rcases last with point | point <;>
        simp [State.setPoint, State.setThread, point, Point.rank]

namespace Scripted

/-- The steps that a thread has still to take, at most. -/
def left (state : Scripted τ) (thread : τ) : Nat :=
  (state.controls thread).cost + (state.manager.threads thread).point.rank

theorem advance_control (state : Scripted τ) (thread : τ) (manager : State τ)
    (control : Control) : (state.advance thread manager control).controls thread = control :=
  Function.update_self ..

theorem advance_other (state : Scripted τ) {thread other : τ} (manager : State τ)
    (control : Control) (distinct : other ≠ thread) :
    (state.advance thread manager control).controls other = state.controls other :=
  Function.update_of_ne distinct _ _

/-- A step is one that its thread has no more to take. -/
theorem Stepped.left_lt {state after : Scripted τ} {thread : τ}
    (stepped : Stepped state thread after) : after.left thread < state.left thread := by
  cases stepped with
  | entered running acts taken =>
      obtain ⟨lock, -, located⟩ := State.enter_spec taken
      have pays := acts.pays
      rw [Scripted.left, advance_control]
      simp only [advance, Scripted.left, located, running, Point.rank, Action.cost] at pays ⊢
      omega
  | left running acts taken =>
      obtain ⟨scope, scopes, -, unregistered⟩ := State.leave_spec taken
      have pays := acts.pays
      rw [Scripted.left, advance_control]
      simp only [advance, Scripted.left, unregistered, running, Point.rank, Action.cost] at pays ⊢
      omega
  | stayed running acts =>
      have pays := acts.pays
      rw [Scripted.left, advance_control]
      simp only [advance, Scripted.left, Action.cost] at pays ⊢
      omega
  | denied rejected taken =>
      have lower := State.rank_of_resume taken
      have cheaper := (state.controls thread).deny_cost_le
      rw [Scripted.left, advance_control]
      simp only [advance, Scripted.left]
      omega
  | resumed passed taken =>
      have lower := State.rank_of_resume taken
      rw [Scripted.left, advance_control]
      simp only [advance, Scripted.left]
      omega

theorem Stepped.others {state after : Scripted τ} {thread other : τ}
    (stepped : Stepped state thread after) (distinct : other ≠ thread) :
    after.controls other = state.controls other ∧
      after.manager.threads other = state.manager.threads other := by
  cases stepped with
  | entered running acts taken | left running acts taken | denied rejected taken
  | resumed passed taken =>
      exact ⟨advance_other state _ _ distinct, State.threads_of_step taken distinct⟩
  | stayed running acts => exact ⟨advance_other state _ _ distinct, rfl⟩

end Scripted

end Work

/-! ## Disciplined scripts -/

/-- Keys are named, and no shared scope is inside another one of its key. -/
def Script.Disciplined : List Str → Script → Prop
  | _, .done | _, .fail => True
  | keys, .scope key isWrite body next =>
      key ≠ [] ∧ (isWrite = false → key ∉ keys) ∧ body.Disciplined (key :: keys) ∧
        next.Disciplined keys
  | keys, .attempt body next => body.Disciplined keys ∧ next.Disciplined keys

/-- The scope that a thread has asked for and is not inside of. -/
def Thread.entering (thread : Thread) : Option Scope :=
  match thread.point with
  | .located scope | .rejected scope | .marked scope | .blocked scope | .acquired scope =>
      some scope
  | .running | .unregistered _ | .released _ | .unmarked _ => none

/-- The scopes that the script of a thread has opened. -/
def Thread.opened (thread : Thread) : List Scope :=
  thread.entering.toList ++ thread.scopes

/-- The statements a script is inside of open these scopes. -/
inductive Fits : List Scope → List Frame → Prop where
  | nil : Fits [] []
  | body {scope : Scope} {scopes : List Scope} {next : Script} {frames : List Frame}
      (named : scope.key ≠ [])
      (fresh : scope.isWrite = false → scope.key ∉ scopes.map Scope.key)
      (disciplined : next.Disciplined (scopes.map Scope.key)) (rest : Fits scopes frames) :
      Fits (scope :: scopes) (.body next :: frames)
  | attempt {scopes : List Scope} {next : Script} {frames : List Frame}
      (disciplined : next.Disciplined (scopes.map Scope.key)) (rest : Fits scopes frames) :
      Fits scopes (.attempt next :: frames)

theorem Fits.innermost {opened scopes : List Scope} {scope : Scope} {frames : List Frame}
    (fits : Fits opened frames) (isOpened : opened = scope :: scopes) :
    scope.key ≠ [] ∧ (scope.isWrite = false → scope.key ∉ scopes.map Scope.key) := by
  induction fits with
  | nil => cases isOpened
  | body named fresh disciplined rest induction =>
      cases isOpened
      exact ⟨named, fresh⟩
  | attempt disciplined rest induction => exact induction isOpened

theorem Fits.of_attempt {opened : List Scope} {next : Script} {frames : List Frame}
    (fits : Fits opened (.attempt next :: frames)) :
    next.Disciplined (opened.map Scope.key) ∧ Fits opened frames := by
  cases fits with
  | attempt disciplined rest => exact ⟨disciplined, rest⟩

/-- A control is where its thread is. -/
structure Control.Suits (control : Control) (thread : Thread) : Prop where
  mode : ∀ script, control.mode = .normal script →
    script.Disciplined (thread.opened.map Scope.key)
  frames : Fits thread.opened control.frames
  entering : thread.entering.isSome → ∃ next rest, control.frames = .body next :: rest

theorem Thread.opened_of_running {thread : Thread} (running : thread.point = .running) :
    thread.opened = thread.scopes := by
  simp [Thread.opened, Thread.entering, running]

namespace Control

variable {control after : Control} {thread : Thread}

theorem Acts.entered {key : Str} {isWrite : Bool}
    (acts : Acts control (.enter key isWrite) after) (suits : control.Suits thread)
    (running : thread.point = .running) (lock : Nat) :
    after.Suits ⟨thread.scopes, .located ⟨key, isWrite, lock⟩⟩ := by
  cases acts with
  | enter =>
      obtain ⟨named, fresh, body, next⟩ := suits.mode _ rfl
      have frames := suits.frames
      rw [Thread.opened_of_running running] at fresh body next frames
      refine ⟨?_, .body named fresh next frames, fun _ => ⟨_, _, rfl⟩⟩
      intro script same
      cases same
      exact body

theorem Acts.left {scope : Scope} {scopes : List Scope} (acts : Acts control .leave after)
    (suits : control.Suits ⟨scope :: scopes, .running⟩) :
    after.Suits ⟨scopes, .unregistered scope⟩ := by
  have frames := suits.frames
  cases acts with
  | leave =>
      cases frames with
      | body named fresh disciplined rest =>
          refine ⟨?_, rest, nofun⟩
          intro script same
          cases same
          exact disciplined
  | unwind raising =>
      cases frames with
      | body named fresh disciplined rest =>
          exact ⟨fun script same => absurd same (raising script), rest, nofun⟩

theorem Acts.stayed (acts : Acts control .stay after) (suits : control.Suits thread)
    (running : thread.point = .running) : after.Suits thread := by
  have notEntering : ¬ thread.entering.isSome := by simp [Thread.entering, running]
  have frames := suits.frames
  cases acts with
  | attempt =>
      obtain ⟨body, next⟩ := suits.mode _ rfl
      refine ⟨?_, .attempt next frames, fun isEntering => absurd isEntering notEntering⟩
      intro script same
      cases same
      exact body
  | fail => exact ⟨nofun, frames, fun isEntering => absurd isEntering notEntering⟩
  | succeed | catches =>
      obtain ⟨disciplined, rest⟩ := frames.of_attempt
      refine ⟨?_, rest, fun isEntering => absurd isEntering notEntering⟩
      intro script same
      cases same
      exact disciplined
  | pass =>
      exact ⟨nofun, frames.of_attempt.2, fun isEntering => absurd isEntering notEntering⟩

theorem Suits.denied {scope : Scope} (suits : control.Suits thread)
    (rejected : thread.point = .rejected scope) :
    control.deny.Suits ⟨thread.scopes, .running⟩ := by
  obtain ⟨next, rest, isFrames⟩ := suits.entering (by simp [Thread.entering, rejected])
  have frames := suits.frames
  rw [isFrames] at frames
  have opened : thread.opened = scope :: thread.scopes := by
    simp [Thread.opened, Thread.entering, rejected]
  rw [opened] at frames
  cases frames with
  | body named fresh disciplined fits =>
      refine ⟨nofun, ?_, nofun⟩
      rw [deny, isFrames]
      exact fits

theorem Suits.resumed {following : Thread} (suits : control.Suits thread)
    (opened : following.opened = thread.opened)
    (entering : following.entering.isSome → thread.entering.isSome) :
    control.Suits following where
  mode := by
    rw [opened]
    exact suits.mode
  frames := by
    rw [opened]
    exact suits.frames
  entering isEntering := suits.entering (entering isEntering)

end Control

/-! ## What a run of scripts keeps -/

section Sound

variable {τ : Type} [DecidableEq τ]

theorem State.opened_of_resume {state after : State τ} {thread : τ}
    (passed : ∀ scope, (state.threads thread).point ≠ .rejected scope)
    (taken : state.step (.resume thread) = some after) :
    (after.threads thread).opened = (state.threads thread).opened ∧
      ((after.threads thread).entering.isSome → (state.threads thread).entering.isSome) := by
  cases State.stepped taken with
  | rejected point _ | marked point _ | entered point _ | queued point _ | admitted point _
  | registered point | released point | unmarked point =>
      simp [State.setPoint, State.setThread, State.mark, State.setObject, State.allocate, point,
        Thread.opened, Thread.entering]
  | dropped last releases =>
      obtain ⟨_, _, threads, _⟩ := State.releaseRef_spec releases
      rcases last with point | point
      · exact absurd point (passed _)
      · simp [State.setPoint, State.setThread, threads, point, Thread.opened, Thread.entering]

theorem State.opened_of_rejected {state after : State τ} {thread : τ} {scope : Scope}
    (rejected : (state.threads thread).point = .rejected scope)
    (taken : state.step (.resume thread) = some after) :
    after.threads thread = ⟨(state.threads thread).scopes, .running⟩ := by
  cases State.stepped taken with
  | dropped last releases =>
      obtain ⟨_, _, threads, _⟩ := State.releaseRef_spec releases
      simp [State.setPoint, State.setThread, threads]
  | rejected point _ | marked point _ | entered point _ | queued point _ | admitted point _
  | registered point | released point | unmarked point => simp [rejected] at point

omit [DecidableEq τ] in
theorem Thread.opened_of_mark {thread : Thread} {scope : Scope}
    (mark : thread.mark = some scope) : thread.opened = scope :: thread.scopes := by
  obtain ⟨scopes, point⟩ := thread
  cases point <;> cases mark <;> rfl

/-- The manager detects every deadlock, and the controls are where their
threads are. -/
structure Scripted.Sound (state : Scripted τ) : Prop where
  unentangled : Unentangled state.manager
  positive : Metered.RefsPositive state.manager
  suits : ∀ thread, (state.controls thread).Suits (state.manager.threads thread)

theorem Scripted.Sound.start {scripts : τ → Script}
    (disciplined : ∀ thread, (scripts thread).Disciplined []) : (Scripted.start scripts).Sound where
  unentangled := .initial
  positive := nofun
  suits thread := by
    refine ⟨?_, .nil, nofun⟩
    intro script same
    cases same
    exact disciplined thread

/-- Disciplined threads keep to what the search for deadlocks asks for. -/
theorem Scripted.Sound.guarded {state : Scripted τ} (sound : state.Sound) (label : Label τ) :
    Guarded state.manager label := by
  cases label with
  | enter | leave => trivial
  | resume thread =>
      simp only [Guarded]
      split
      · intro owner _ waits
        obtain ⟨scope, isMark, isEmpty⟩ := sound.unentangled.recorded.waits_iff.mp waits
        exact ((sound.suits owner).frames.innermost (Thread.opened_of_mark isMark)).1 isEmpty
      · rename_i scope marked
        rintro ⟨isRead, outer, isInside, same⟩
        have isMark : (state.manager.threads thread).mark = some scope := by
          simp [Thread.mark, marked]
        have fresh := ((sound.suits thread).frames.innermost (Thread.opened_of_mark isMark)).2
        exact absurd (List.mem_map.mpr ⟨outer, isInside, same⟩) (fresh isRead)
      · trivial

theorem Scripted.Sound.advance {state : Scripted τ} {thread : τ} {label : Label τ}
    {manager : State τ} {control : Control} (sound : state.Sound)
    (isThread : label.thread = thread) (taken : state.manager.step label = some manager)
    (suits : control.Suits (manager.threads thread)) :
    (state.advance thread manager control).Sound where
  unentangled := sound.unentangled.step (sound.guarded label) taken
  positive := Metered.refsPositive_of_stepped sound.positive (State.stepped taken)
  suits other := by
    by_cases same : other = thread
    · subst same
      rw [advance_control]
      exact suits
    · have still : manager.threads other = state.manager.threads other :=
        State.threads_of_step taken (isThread ▸ same)
      rw [advance_other state _ _ same]
      exact still ▸ sound.suits other

theorem Scripted.Sound.step {state after : Scripted τ} {thread : τ} (sound : state.Sound)
    (stepped : Stepped state thread after) : after.Sound := by
  have suits := sound.suits thread
  cases stepped with
  | entered running acts taken =>
      obtain ⟨lock, -, located⟩ := State.enter_spec taken
      refine sound.advance rfl taken ?_
      rw [located]
      exact acts.entered suits running lock
  | left running acts taken =>
      obtain ⟨scope, scopes, inside, unregistered⟩ := State.leave_spec taken
      rw [inside] at suits
      refine sound.advance rfl taken ?_
      rw [unregistered]
      exact acts.left suits
  | stayed running acts =>
      refine ⟨sound.unentangled, sound.positive, fun other => ?_⟩
      by_cases same : other = thread
      · subst same
        rw [advance_control]
        exact acts.stayed suits running
      · rw [advance_other state _ _ same]
        exact sound.suits other
  | denied rejected taken =>
      refine sound.advance rfl taken ?_
      rw [State.opened_of_rejected rejected taken]
      exact suits.denied rejected
  | resumed passed taken =>
      obtain ⟨opened, entering⟩ := State.opened_of_resume passed taken
      exact sound.advance rfl taken (suits.resumed opened entering)

end Sound

/-! ## The end of every run -/

section End

variable {τ : Type} [DecidableEq τ]

omit [DecidableEq τ] in
theorem Thread.mem_queued {thread : Thread} {scope : Scope} :
    scope ∈ thread.queued ↔ thread.point = .blocked scope ∧ scope.isWrite = true := by
  obtain ⟨scopes, point⟩ := thread
  cases point <;> simp only [Thread.queued, List.not_mem_nil, false_iff, not_and, reduceCtorEq,
    false_implies, Point.blocked.injEq]
  split
  · rename_i asked isWrite
    rw [List.mem_singleton]
    exact ⟨fun same => ⟨same.symm, same ▸ isWrite⟩, fun same => same.1.symm⟩
  · rename_i asked isRead
    refine iff_of_false List.not_mem_nil ?_
    rintro ⟨rfl, isWrite⟩
    exact isRead isWrite

omit [DecidableEq τ] in
/-- Somebody keeps a request out that its lock does not admit. -/
theorem Consistent.exists_obstructs {state : State τ} (consistent : Consistent state) {key : Str}
    {isWrite : Bool} {lock : Nat} (found : state.locks.lookup key = some lock)
    (refuses : (state.objects lock).admits isWrite = false) :
    ∃ other, Obstructs state key isWrite other := by
  have writing (positive : 0 < (state.objects lock).writers) :
      ∃ other, Obstructs state key isWrite other := by
    obtain ⟨other, shares⟩ := (consistent.writers key lock found).exists_pos positive
    obtain ⟨scope, held, isScope⟩ := List.countP_pos_iff.mp shares
    simp only [Bool.and_eq_true, decide_eq_true_eq] at isScope
    exact ⟨other, .writing held isScope.1 isScope.2⟩
  cases isWrite with
  | true =>
      simp only [RWLock.admits, if_true, RWLock.admitsWrite, Bool.and_eq_false_iff,
        decide_eq_false_iff_not] at refuses
      rcases refuses with reading | positive
      · obtain ⟨other, shares⟩ := (consistent.readers key lock found).exists_pos
          (Nat.pos_of_ne_zero reading)
        obtain ⟨scope, held, isScope⟩ := List.countP_pos_iff.mp shares
        simp only [Bool.and_eq_true, decide_eq_true_eq] at isScope
        exact ⟨other, .reading held isScope.1 rfl⟩
      · exact writing (Nat.pos_of_ne_zero positive)
  | false =>
      simp only [RWLock.admits, Bool.false_eq_true, if_false, RWLock.admitsRead,
        Bool.and_eq_false_iff, decide_eq_false_iff_not] at refuses
      rcases refuses with positive | queued
      · exact writing (Nat.pos_of_ne_zero positive)
      · obtain ⟨other, shares⟩ := (consistent.requests key lock found).exists_pos
          (Nat.pos_of_ne_zero queued)
        obtain ⟨scope, isQueued, isKey⟩ := List.countP_pos_iff.mp shares
        obtain ⟨blocked, isWrite⟩ := Thread.mem_queued.mp isQueued
        exact ⟨other, .queued blocked (by simpa using isKey) isWrite rfl⟩

namespace Scripted

/-- The thread is outside the manager and its script has ended. -/
def Finished (state : Scripted τ) (thread : τ) : Prop :=
  state.manager.threads thread = {} ∧ (state.controls thread).Ended

theorem Sound.scopes_of_ended {state : Scripted τ} (sound : state.Sound) {thread : τ}
    (running : (state.manager.threads thread).point = .running)
    (ended : (state.controls thread).Ended) : state.manager.threads thread = {} := by
  have frames := (sound.suits thread).frames
  rw [ended.1, Thread.opened_of_running running] at frames
  generalize state.manager.threads thread = value at frames running ⊢
  obtain ⟨scopes, point⟩ := value
  subst running
  cases frames
  rfl

/-- A thread that has no step has finished, or its lock does not admit it. -/
theorem Sound.stops {state : Scripted τ} (sound : state.Sound) (thread : τ)
    (stopped : state.step thread = none) :
    state.Finished thread ∨ ∃ scope, (state.manager.threads thread).point = .blocked scope ∧
      (state.manager.objects scope.lock).admits scope.isWrite = false := by
  have consistent := sound.unentangled.consistent
  have releases {scope : Scope} (refers : scope ∈ (state.manager.threads thread).referring) :
      ∃ after, state.manager.releaseRef scope.key = some after :=
    Option.isSome_iff_exists.mp (consistent.releaseRef_isSome refers)
  cases point : (state.manager.threads thread).point with
  | running =>
      refine Or.inl ?_
      cases isAct : (state.controls thread).act with
      | none =>
          have ended := Control.act_eq_none_iff.mp isAct
          exact ⟨sound.scopes_of_ended point ended, ended⟩
      | some next =>
          exfalso
          obtain ⟨action, control⟩ := next
          cases action with
          | enter key isWrite => simp [Scripted.step, point, isAct, State.step] at stopped
          | stay => simp [Scripted.step, point, isAct] at stopped
          | leave =>
              -- the innermost statement is a scope, and the thread is inside it
              have frames := (sound.suits thread).frames
              have inside : ∃ scope scopes,
                  state.manager.threads thread = ⟨scope :: scopes, .running⟩ := by
                rw [Thread.opened_of_running point] at frames
                generalize state.manager.threads thread = value at frames point
                obtain ⟨scopes, isPoint⟩ := value
                subst point
                cases isControl : state.controls thread with
                | mk mode isFrames =>
                    have acts := Control.acts isAct
                    rw [isControl] at acts frames
                    cases acts <;> cases frames <;> exact ⟨_, _, rfl⟩
              obtain ⟨scope, scopes, isThread⟩ := inside
              simp [Scripted.step, isThread, isAct, State.step] at stopped
  | blocked scope =>
      refine Or.inr ⟨scope, rfl, ?_⟩
      by_contra admits
      rw [Bool.not_eq_false] at admits
      simp [Scripted.step, point, State.step, State.resume, admits] at stopped
  | rejected scope | unmarked scope =>
      exfalso
      have refers : scope ∈ (state.manager.threads thread).referring := by
        simp [Thread.referring, point]
      obtain ⟨after, isAfter⟩ := releases refers
      simp [Scripted.step, point, State.step, State.resume, isAfter] at stopped
  | located scope | marked scope =>
      exfalso
      simp only [Scripted.step, point, State.step, State.resume, Option.map_eq_none_iff] at stopped
      split at stopped <;> cases stopped
  | acquired scope | unregistered scope | released scope =>
      exfalso
      simp [Scripted.step, point, State.step, State.resume] at stopped

/-- No thread has a step exactly where all threads have finished. -/
theorem Sound.settled_iff {state : Scripted τ} (sound : state.Sound) :
    Settled Scripted.step (fun _ _ => True) (fun _ => True) state ↔ ∀ thread, state.Finished thread := by
  constructor
  · intro settled
    by_contra unfinished
    obtain ⟨thread, goesOn⟩ := not_forall.mp unfinished
    refine sound.unentangled.not_deadlocked
      {thread | ∃ scope, (state.manager.threads thread).point = .blocked scope} ⟨?_, ?_⟩
    · rcases sound.stops thread (settled thread trivial trivial) with finished | ⟨scope, blocked, _⟩
      · exact absurd finished goesOn
      · exact ⟨thread, scope, blocked⟩
    · rintro waiting ⟨scope, blocked⟩
      refine ⟨scope, blocked, ?_⟩
      rcases sound.stops waiting (settled waiting trivial trivial) with finished | refused
      · rw [finished.1] at blocked
        cases blocked
      obtain ⟨asked, isAsked, refuses⟩ := refused
      obtain rfl : scope = asked := Point.blocked.inj (blocked.symm.trans isAsked)
      have found := sound.unentangled.consistent.pointing waiting scope
        (by simp [Thread.referring, blocked])
      obtain ⟨other, obstructs⟩ := sound.unentangled.consistent.exists_obstructs found refuses
      refine ⟨other, ?_, obstructs⟩
      -- a thread that has finished keeps nobody out
      rcases sound.stops other (settled other trivial trivial) with finished | ⟨also, isAlso, _⟩
      · exfalso
        cases obstructs with
        | writing held _ _ | reading held _ _ =>
            rw [finished.1] at held
            cases held
        | queued isBlocked _ _ _ =>
            rw [finished.1] at isBlocked
            cases isBlocked
      · exact ⟨also, isAlso⟩
  · intro finished thread _ _
    obtain ⟨isThread, ended⟩ := finished thread
    simp [Scripted.step, isThread, Control.act_eq_none_iff.mpr ended]

/-- Nothing of the scopes is left but tables without owners. -/
structure Bare (manager : State τ) : Prop where
  locks : manager.locks = ∅
  refs : manager.refs = ∅
  waiting : manager.waiting = ∅
  owners : ∀ key thread, ¬ Owns manager.allocations key thread

theorem Sound.bare {state : Scripted τ} (sound : state.Sound)
    (finished : ∀ thread, state.Finished thread) : Bare state.manager := by
  have ended : state.manager.Ended := fun thread => (finished thread).1
  let metered : Metered τ :=
    { manager := state.manager, entered := state.manager.allocations.keys }
  have accurate : metered.Accurate := by
    refine ⟨sound.unentangled.consistent, sound.unentangled.recorded, nofun, ⟨0, rfl, ?_⟩,
      sound.positive, fun key => AList.lookup_isSome⟩
    refine Tally.zero.congr fun thread => ?_
    change Metered.share (state.manager.threads thread) false = 0
    rw [ended thread]
    rfl
  obtain ⟨locks, refs, waiting, -⟩ := accurate.ended ended
  refine ⟨locks, refs, waiting, fun key thread owns => ?_⟩
  obtain ⟨scope, member, -⟩ := sound.unentangled.recorded.owns_iff.mp owns
  rw [ended thread] at member
  cases member

/-- The steps that all threads have still to take, at most. -/
def Remains (state : Scripted τ) (total : Nat) : Prop :=
  Tally state.left total

theorem Remains.step {state after : Scripted τ} {thread : τ} {total : Nat}
    (remains : state.Remains total) (stepped : Stepped state thread after) :
    ∃ less, less < total ∧ after.Remains less := by
  have lower := stepped.left_lt
  have within := Tally.le remains thread
  refine ⟨total - state.left thread + after.left thread, by omega, ?_⟩
  refine Tally.change remains thread ?_ (by omega)
  intro other distinct
  obtain ⟨control, isThread⟩ := stepped.others distinct
  rw [left, left, control, isThread]

end Scripted

end End

/-- Disciplined scripts come to their end in every interleaving.  A run has no
more steps than the scripts cost, somebody has a step until all threads have
finished, and then the tables of the manager are bare. -/
theorem scripts_end {τ : Type} [DecidableEq τ] {scripts : τ → Script} {total count : Nat}
    {finish : Scripted τ} (disciplined : ∀ thread, (scripts thread).Disciplined [])
    (costs : Tally (fun thread => (scripts thread).cost) total)
    (worked : Worked Scripted.step (fun _ _ => True) (fun _ => True) (Scripted.start scripts)
      count finish) :
    count ≤ total ∧
      (Settled Scripted.step (fun _ _ => True) (fun _ => True) finish ↔
        ∀ thread, finish.Finished thread) ∧
      ((∀ thread, finish.Finished thread) → Scripted.Bare finish.manager) := by
  have sound : finish.Sound := worked.reaches.invariant
    (fun sound _ taken => sound.step (Scripted.stepped taken)) (.start disciplined)
  have remains : (Scripted.start scripts).Remains total :=
    Tally.congr costs fun thread => rfl
  obtain ⟨rest, within, -⟩ := worked.bounded remains
    (fun remains _ _ taken => remains.step (Scripted.stepped taken))
    (fun _ _ idle _ => absurd trivial idle)
  exact ⟨by omega, sound.settled_iff, sound.bare⟩

/-- The threads that reading the file `trigger_deadlock` starts and joins. -/
def triggerDeadlock : Nat → Script
  | 0 => .attempt (.scope "fake_A".toList true (.scope "fake_B".toList true .done .done) .done)
      .done
  | 1 => .attempt (.scope "fake_B".toList true (.scope "fake_A".toList true .done .done) .done)
      .done
  | _ => .done

theorem triggerDeadlock_disciplined (thread : Nat) : (triggerDeadlock thread).Disciplined [] := by
  match thread with
  | 0 | 1 => simp [triggerDeadlock, Script.Disciplined]
  | _ + 2 => trivial

theorem triggerDeadlock_cost : Tally (fun thread => (triggerDeadlock thread).cost) 40 := by
  refine ⟨{0, 1}, ?_, rfl⟩
  intro thread outside
  match thread with
  | 0 | 1 => simp at outside
  | _ + 2 => rfl

/-- Both are inside their first scope, one waits for the other, and the request
of that one is rejected. -/
def deadlockTriggered : List Nat :=
  List.replicate 5 0 ++ List.replicate 5 1 ++ List.replicate 3 0 ++ List.replicate 8 1 ++
    List.replicate 11 0

theorem scripts_end_triggerDeadlock :
    ∃ count finish, Worked Scripted.step (fun _ _ => True) (fun _ => True)
        (Scripted.start triggerDeadlock) count finish ∧
      finish.controls 0 = {} ∧ finish.controls 1 = {} ∧ count ≤ 40 ∧
      (Settled Scripted.step (fun _ _ => True) (fun _ => True) finish ↔
        ∀ thread, finish.Finished thread) ∧
      ((∀ thread, finish.Finished thread) → Scripted.Bare finish.manager) := by
  obtain ⟨finish, executed⟩ := Option.isSome_iff_exists.mp
    (show (run Scripted.step (Scripted.start triggerDeadlock) deadlockTriggered).isSome from rfl)
  obtain ⟨count, worked⟩ : ∃ count, Worked Scripted.step (fun _ _ => True) (fun _ => True)
      (Scripted.start triggerDeadlock) count finish :=
    Worked.of_reaches (Reaches.of_free_run executed)
  exact ⟨count, finish, worked, look_of_run executed (·.controls 0) rfl,
    look_of_run executed (·.controls 1) rfl,
    scripts_end triggerDeadlock_disciplined triggerDeadlock_cost worked⟩

end FuseDrive.Concurrency
