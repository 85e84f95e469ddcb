import FuseDrive.Transition
import Mathlib.Data.Set.Function

/-!
# Locks that are taken in order

What a thread does with locks is a program of nested `with` statements.  Which
branch it takes, how often a loop runs, and where an exception is raised and
caught is left open.  If the locks have ranks and the programs take them upwards
only, then whoever waits for a lock waits, through a chain of owners, for
somebody who does not wait for one.
-/

namespace FuseDrive

open Transition

/-- What code does with locks. -/
inductive LockUse (μ : Type) where
  /-- It takes none, and may raise an exception. -/
  | work
  /-- It waits for other threads, but not for a lock. -/
  | await
  /-- `with mutex:` -/
  | holding (mutex : μ) (body : LockUse μ)
  | andThen (first second : LockUse μ)
  | either (first second : LockUse μ)
  | repeatedly (body : LockUse μ)

namespace LockUse

/-- One after another. -/
def inOrder {μ : Type} : List (LockUse μ) → LockUse μ
  | [] => .work
  | program :: programs => .andThen program (inOrder programs)

def optionally {μ : Type} (program : LockUse μ) : LockUse μ :=
  .either program .work

/-! ## Threads -/

inductive Task (μ : Type) where
  | run (program : LockUse μ)
  /-- The end of `with mutex:`. -/
  | leave (mutex : μ)

/-- The locks that the tasks release, the innermost first. -/
def held {μ : Type} : List (Task μ) → List μ
  | [] => []
  | .run _ :: tasks => held tasks
  | .leave mutex :: tasks => mutex :: held tasks

/-- What a thread has to do, and whether an exception is on its way through
it. -/
structure Thread (μ : Type) where
  tasks : List (Task μ) := []
  raising : Bool := false

/-- How a thread goes on where the program leaves it open. -/
inductive Turn where
  | proceed
  /-- The first branch, or the body of a loop once more. -/
  | first
  | second
  | raise
  /-- The exception is caught here. -/
  | handle
deriving DecidableEq

/-- What a turn does with locks. -/
inductive Demand (μ : Type) where
  | nothing
  | take (mutex : μ)
  | give (mutex : μ)

section Threads

variable {μ : Type}

def Thread.turn : Thread μ → Turn → Option (Demand μ × Thread μ)
  | ⟨.run .work :: tasks, false⟩, .proceed => some (.nothing, ⟨tasks, false⟩)
  | ⟨.run .work :: tasks, false⟩, .raise => some (.nothing, ⟨tasks, true⟩)
  | ⟨.run .await :: tasks, false⟩, .proceed => some (.nothing, ⟨tasks, false⟩)
  | ⟨.run .await :: tasks, false⟩, .raise => some (.nothing, ⟨tasks, true⟩)
  | ⟨.run (.holding mutex body) :: tasks, false⟩, .proceed =>
      some (.take mutex, ⟨.run body :: .leave mutex :: tasks, false⟩)
  | ⟨.run (.andThen first second) :: tasks, false⟩, .proceed =>
      some (.nothing, ⟨.run first :: .run second :: tasks, false⟩)
  | ⟨.run (.either first _) :: tasks, false⟩, .first => some (.nothing, ⟨.run first :: tasks, false⟩)
  | ⟨.run (.either _ second) :: tasks, false⟩, .second =>
      some (.nothing, ⟨.run second :: tasks, false⟩)
  | ⟨.run (.repeatedly body) :: tasks, false⟩, .first =>
      some (.nothing, ⟨.run body :: .run (.repeatedly body) :: tasks, false⟩)
  | ⟨.run (.repeatedly _) :: tasks, false⟩, .second => some (.nothing, ⟨tasks, false⟩)
  | ⟨.leave mutex :: tasks, raising⟩, .proceed => some (.give mutex, ⟨tasks, raising⟩)
  | ⟨.run _ :: tasks, true⟩, .proceed => some (.nothing, ⟨tasks, true⟩)
  | ⟨tasks, true⟩, .handle => some (.nothing, ⟨tasks, false⟩)
  | _, _ => none

/-- The turns of a thread. -/
inductive Turned : Thread μ → Demand μ → Thread μ → Prop where
  | work (tasks : List (Task μ)) (raising : Bool) :
      Turned ⟨.run .work :: tasks, false⟩ .nothing ⟨tasks, raising⟩
  | await (tasks : List (Task μ)) (raising : Bool) :
      Turned ⟨.run .await :: tasks, false⟩ .nothing ⟨tasks, raising⟩
  | enter (mutex : μ) (body : LockUse μ) (tasks : List (Task μ)) :
      Turned ⟨.run (.holding mutex body) :: tasks, false⟩ (.take mutex)
        ⟨.run body :: .leave mutex :: tasks, false⟩
  | andThen (first second : LockUse μ) (tasks : List (Task μ)) :
      Turned ⟨.run (.andThen first second) :: tasks, false⟩ .nothing
        ⟨.run first :: .run second :: tasks, false⟩
  | first (first second : LockUse μ) (tasks : List (Task μ)) :
      Turned ⟨.run (.either first second) :: tasks, false⟩ .nothing ⟨.run first :: tasks, false⟩
  | second (first second : LockUse μ) (tasks : List (Task μ)) :
      Turned ⟨.run (.either first second) :: tasks, false⟩ .nothing ⟨.run second :: tasks, false⟩
  | again (body : LockUse μ) (tasks : List (Task μ)) :
      Turned ⟨.run (.repeatedly body) :: tasks, false⟩ .nothing
        ⟨.run body :: .run (.repeatedly body) :: tasks, false⟩
  | stop (body : LockUse μ) (tasks : List (Task μ)) :
      Turned ⟨.run (.repeatedly body) :: tasks, false⟩ .nothing ⟨tasks, false⟩
  | leave (mutex : μ) (tasks : List (Task μ)) (raising : Bool) :
      Turned ⟨.leave mutex :: tasks, raising⟩ (.give mutex) ⟨tasks, raising⟩
  | drop (program : LockUse μ) (tasks : List (Task μ)) :
      Turned ⟨.run program :: tasks, true⟩ .nothing ⟨tasks, true⟩
  | handle (tasks : List (Task μ)) : Turned ⟨tasks, true⟩ .nothing ⟨tasks, false⟩

theorem turned {thread next : Thread μ} {turn : Turn} {demand : Demand μ}
    (taken : thread.turn turn = some (demand, next)) : Turned thread demand next := by
  unfold Thread.turn at taken
  split at taken <;> cases taken
  · exact .work ..
  · exact .work ..
  · exact .await ..
  · exact .await ..
  · exact .enter ..
  · exact .andThen ..
  · exact .first ..
  · exact .second ..
  · exact .again ..
  · exact .stop ..
  · exact .leave ..
  · exact .drop ..
  · exact .handle ..

theorem Thread.exists_turn {thread : Thread μ} (unfinished : thread.tasks ≠ []) :
    ∃ turn result, thread.turn turn = some result := by
  obtain ⟨tasks, raising⟩ := thread
  cases tasks with
  | nil => exact absurd rfl unfinished
  | cons task tasks =>
      cases task with
      | leave mutex => exact ⟨.proceed, _, rfl⟩
      | run program =>
          cases raising with
          | true => cases program <;> exact ⟨.proceed, _, rfl⟩
          | false =>
              cases program with
              | either => exact ⟨.first, _, rfl⟩
              | repeatedly => exact ⟨.second, _, rfl⟩
              | work | await | holding | andThen => exact ⟨.proceed, _, rfl⟩

end Threads

/-! ## Locks and threads -/

/-- The owners of the locks. -/
structure Threads (τ μ : Type) where
  owners : μ → Option τ := fun _ => none
  threads : τ → Thread μ

section System

variable {τ μ : Type} [DecidableEq τ] [DecidableEq μ]

/-- The lock is free, or it is one that its owner may take once more. -/
def Threads.Admits (reentrant : μ → Bool) (state : Threads τ μ) (thread : τ) (mutex : μ) : Prop :=
  state.owners mutex = none ∨ state.owners mutex = some thread ∧ reentrant mutex = true

instance (reentrant : μ → Bool) (state : Threads τ μ) (thread : τ) (mutex : μ) :
    Decidable (state.Admits reentrant thread mutex) :=
  inferInstanceAs (Decidable (_ ∨ _ ∧ _))

/-- The owners after a turn, if the locks let the thread take it. -/
def Threads.grant (reentrant : μ → Bool) (state : Threads τ μ) (thread : τ) (next : Thread μ) :
    Demand μ → Option (μ → Option τ)
  | .nothing => some state.owners
  | .take mutex =>
      if state.Admits reentrant thread mutex then
        some (Function.update state.owners mutex (some thread))
      else none
  | .give mutex =>
      some (if mutex ∈ held next.tasks then state.owners
        else Function.update state.owners mutex none)

/-- One turn of one thread. -/
def Threads.step (reentrant : μ → Bool) (state : Threads τ μ) (label : τ × Turn) :
    Option (Threads τ μ) := do
  let (demand, next) ← (state.threads label.1).turn label.2
  let owners ← state.grant reentrant label.1 next demand
  some { owners, threads := Function.update state.threads label.1 next }

/-- Each thread runs its programs one after another. -/
def Threads.start (programs : τ → List (LockUse μ)) : Threads τ μ where
  threads thread := { tasks := (programs thread).map .run }

/-- The thread is before `with mutex:`. -/
def Thread.Asks (thread : Thread μ) (mutex : μ) : Prop :=
  ∃ body tasks, thread = ⟨.run (.holding mutex body) :: tasks, false⟩

/-- The thread asks for a lock that the other one has. -/
def Threads.WaitsFor (reentrant : μ → Bool) (state : Threads τ μ) (thread other : τ) : Prop :=
  ∃ mutex, (state.threads thread).Asks mutex ∧ state.owners mutex = some other ∧
    ¬ state.Admits reentrant thread mutex

/-- The thread waits for other threads, but not for a lock. -/
def Thread.Awaits (thread : Thread μ) : Prop :=
  ∃ tasks, thread = ⟨.run .await :: tasks, false⟩

end System

/-! ## Programs that take locks upwards -/

section Ordered

variable {μ : Type}

/-- Under the locks that are held a program takes only higher ones, or ones that
may be taken once more, and waits for nothing else. -/
def Ordered (rank : μ → Nat) (reentrant : μ → Bool) : List μ → LockUse μ → Prop
  | _, .work => True
  | locks, .await => locks = []
  | locks, .holding mutex body =>
      ((∀ lock ∈ locks, rank lock < rank mutex) ∨ mutex ∈ locks ∧ reentrant mutex = true) ∧
        body.Ordered rank reentrant (mutex :: locks)
  | locks, .andThen first second | locks, .either first second =>
      first.Ordered rank reentrant locks ∧ second.Ordered rank reentrant locks
  | locks, .repeatedly body => body.Ordered rank reentrant locks

instance decidableOrdered [DecidableEq μ] (rank : μ → Nat) (reentrant : μ → Bool) :
    (locks : List μ) → (program : LockUse μ) → Decidable (program.Ordered rank reentrant locks)
  | _, .work => .isTrue trivial
  | locks, .await => inferInstanceAs (Decidable (locks = []))
  | locks, .holding mutex body =>
      have := decidableOrdered rank reentrant (mutex :: locks) body
      inferInstanceAs (Decidable ((_ ∨ _ ∧ _) ∧ _))
  | locks, .andThen first second | locks, .either first second =>
      have := decidableOrdered rank reentrant locks first
      have := decidableOrdered rank reentrant locks second
      inferInstanceAs (Decidable (_ ∧ _))
  | locks, .repeatedly body => decidableOrdered rank reentrant locks body

/-- Every task is ordered under the locks that the tasks after it release. -/
def Fits (rank : μ → Nat) (reentrant : μ → Bool) : List (Task μ) → Prop
  | [] => True
  | .run program :: tasks =>
      program.Ordered rank reentrant (held tasks) ∧ Fits rank reentrant tasks
  | .leave _ :: tasks => Fits rank reentrant tasks

/-- The locks that are held after a demand. -/
def Demand.Meets : Demand μ → List μ → List μ → Prop
  | .nothing, before, after => after = before
  | .take mutex, before, after => after = mutex :: before
  | .give mutex, before, after => before = mutex :: after

variable {rank : μ → Nat} {reentrant : μ → Bool} {thread next : Thread μ} {demand : Demand μ}

theorem Turned.meets (turned : Turned thread demand next) :
    demand.Meets (held thread.tasks) (held next.tasks) := by
  cases turned <;> rfl

theorem Turned.fits (turned : Turned thread demand next)
    (fits : Fits rank reentrant thread.tasks) : Fits rank reentrant next.tasks := by
  cases turned with
  | work | await | stop | drop => exact fits.2
  | leave | handle => exact fits
  | enter => exact ⟨fits.1.2, fits.2⟩
  | andThen => exact ⟨fits.1.1, fits.1.2, fits.2⟩
  | first => exact ⟨fits.1.1, fits.2⟩
  | second => exact ⟨fits.1.2, fits.2⟩
  | again => exact ⟨fits.1, fits.1, fits.2⟩

theorem fits_start {programs : List (LockUse μ)}
    (ordered : ∀ program ∈ programs, program.Ordered rank reentrant []) :
    Fits rank reentrant (programs.map .run) ∧ held (programs.map Task.run) = [] := by
  induction programs with
  | nil => exact ⟨trivial, rfl⟩
  | cons program programs induction =>
      obtain ⟨fits, nothing⟩ := induction fun other member =>
        ordered other (List.mem_cons_of_mem _ member)
      refine ⟨⟨?_, fits⟩, nothing⟩
      rw [nothing]
      exact ordered program List.mem_cons_self

end Ordered

/-! ## Nobody waits in a circle -/

section Sound

variable {τ μ : Type} [DecidableEq τ] [DecidableEq μ] {rank : μ → Nat} {reentrant : μ → Bool}

/-- A lock has the owner that will release it. -/
structure Threads.Sound (rank : μ → Nat) (reentrant : μ → Bool) (state : Threads τ μ) : Prop where
  owners : ∀ mutex thread,
    state.owners mutex = some thread ↔ mutex ∈ held (state.threads thread).tasks
  fits : ∀ thread, Fits rank reentrant (state.threads thread).tasks

omit [DecidableEq τ] [DecidableEq μ] in
theorem Threads.Sound.start {programs : τ → List (LockUse μ)}
    (ordered : ∀ thread, ∀ program ∈ programs thread, program.Ordered rank reentrant []) :
    (Threads.start programs).Sound rank reentrant where
  owners mutex thread := by
    change none = some thread ↔ mutex ∈ held ((programs thread).map Task.run)
    rw [(fits_start (ordered thread)).2]
    exact iff_of_false nofun List.not_mem_nil
  fits thread := (fits_start (ordered thread)).1

theorem Threads.grant_owners {state : Threads τ μ} (sound : state.Sound rank reentrant)
    {thread : τ} {next : Thread μ} {demand : Demand μ} {owners : μ → Option τ}
    (meets : demand.Meets (held (state.threads thread).tasks) (held next.tasks))
    (granted : state.grant reentrant thread next demand = some owners) (mutex : μ) :
    (owners mutex = some thread ↔ mutex ∈ held next.tasks) ∧
      ∀ other ≠ thread, owners mutex = some other ↔ state.owners mutex = some other := by
  cases demand with
  | nothing =>
      cases granted
      rw [show held next.tasks = held (state.threads thread).tasks from meets]
      exact ⟨sound.owners mutex thread, fun _ _ => Iff.rfl⟩
  | take taken =>
      simp only [Threads.grant, Option.ite_none_right_eq_some, Option.some.injEq] at granted
      obtain ⟨admits, rfl⟩ := granted
      rw [show held next.tasks = taken :: held (state.threads thread).tasks from meets,
        List.mem_cons, ← sound.owners]
      by_cases same : mutex = taken
      · subst same
        simp only [Function.update_self, true_or, true_and]
        intro other distinct
        rcases admits with free | ⟨own, -⟩
        · simp [free, Ne.symm distinct]
        · simp [own, Ne.symm distinct]
      · simp [same]
  | give given =>
      simp only [Threads.grant, Option.some.injEq] at granted
      subst granted
      have before : held (state.threads thread).tasks = given :: held next.tasks := meets
      have owned := sound.owners mutex thread
      rw [before, List.mem_cons] at owned
      by_cases same : mutex = given
      · subst same
        have own := owned.mpr (Or.inl rfl)
        split
        · simp [*]
        · rename_i gone
          simp [gone, own, eq_comm]
      · rw [or_iff_right same] at owned
        split
        · exact ⟨owned, fun _ _ => Iff.rfl⟩
        · rw [Function.update_of_ne same]
          exact ⟨owned, fun _ _ => Iff.rfl⟩

theorem Threads.stepped {state after : Threads τ μ} {thread : τ} {turn : Turn}
    (taken : state.step reentrant (thread, turn) = some after) :
    ∃ demand next owners, Turned (state.threads thread) demand next ∧
      state.grant reentrant thread next demand = some owners ∧
      after = ⟨owners, Function.update state.threads thread next⟩ := by
  obtain ⟨⟨demand, next⟩, goes, rest⟩ := Option.bind_eq_some_iff.mp taken
  obtain ⟨owners, granted, same⟩ := Option.bind_eq_some_iff.mp rest
  cases same
  exact ⟨demand, next, owners, turned goes, granted, rfl⟩

theorem Threads.Sound.step {state after : Threads τ μ} {label : τ × Turn}
    (sound : state.Sound rank reentrant) (taken : state.step reentrant label = some after) :
    after.Sound rank reentrant := by
  obtain ⟨demand, next, owners, goes, granted, rfl⟩ := stepped taken
  have owned := grant_owners sound goes.meets granted
  constructor
  · intro mutex other
    change owners mutex = some other ↔
      mutex ∈ held (Function.update state.threads label.1 next other).tasks
    by_cases own : other = label.1
    · rw [own, Function.update_self]
      exact (owned mutex).1
    · rw [Function.update_of_ne own]
      exact ((owned mutex).2 other own).trans (sound.owners mutex other)
  · intro other
    change Fits rank reentrant (Function.update state.threads label.1 next other).tasks
    by_cases own : other = label.1
    · rw [own, Function.update_self]
      exact goes.fits (sound.fits label.1)
    · rw [Function.update_of_ne own]
      exact sound.fits other

/-- Only a lock keeps a thread from its next turn. -/
theorem Threads.step_or_asks (reentrant : μ → Bool) (state : Threads τ μ) {thread : τ}
    (unfinished : (state.threads thread).tasks ≠ []) :
    (∃ turn next, state.step reentrant (thread, turn) = some next) ∨
      ∃ mutex, (state.threads thread).Asks mutex ∧ ¬ state.Admits reentrant thread mutex := by
  obtain ⟨turn, ⟨demand, next⟩, goes⟩ := Thread.exists_turn unfinished
  have granted {owners : μ → Option τ}
      (grants : state.grant reentrant thread next demand = some owners) :
      ∃ turn next, state.step reentrant (thread, turn) = some next := by
    refine ⟨turn, ⟨owners, Function.update state.threads thread next⟩, ?_⟩
    simp only [step, goes, grants, Option.bind_eq_bind, Option.bind_some]
  cases demand with
  | nothing => exact Or.inl (granted rfl)
  | give mutex => exact Or.inl (granted rfl)
  | take mutex =>
      by_cases admits : state.Admits reentrant thread mutex
      · exact Or.inl (granted (if_pos admits))
      · refine Or.inr ⟨mutex, ?_, admits⟩
        generalize state.threads thread = asking at goes
        cases turned goes with
        | enter mutex body tasks => exact ⟨body, tasks, rfl⟩

omit [DecidableEq τ] [DecidableEq μ] in
/-- An owner that waits for a lock waits for a higher one. -/
theorem Threads.Sound.rank_lt {state : Threads τ μ} (sound : state.Sound rank reentrant)
    {owner : τ} {mutex asked : μ} (owned : state.owners mutex = some owner)
    (asks : (state.threads owner).Asks asked) (refused : ¬ state.Admits reentrant owner asked) :
    rank mutex < rank asked := by
  obtain ⟨body, tasks, same⟩ := asks
  have isHeld := (sound.owners mutex owner).mp owned
  have fits := sound.fits owner
  rw [same] at isHeld fits
  rcases fits.1.1 with upwards | ⟨again, isReentrant⟩
  · exact upwards mutex isHeld
  · have own : state.owners asked = some owner := by
      rw [sound.owners, same]
      exact again
    exact absurd (Or.inr ⟨own, isReentrant⟩) refused

omit [DecidableEq τ] [DecidableEq μ] in
/-- Who has a lock waits for nothing but locks. -/
theorem Threads.Sound.not_awaits {state : Threads τ μ} (sound : state.Sound rank reentrant)
    {owner : τ} {mutex : μ} (owned : state.owners mutex = some owner) :
    ¬ (state.threads owner).Awaits := by
  rintro ⟨tasks, same⟩
  have isHeld := (sound.owners mutex owner).mp owned
  have fits := sound.fits owner
  rw [same] at isHeld fits
  have none : held tasks = [] := fits.1
  rw [held, none] at isHeld
  cases isHeld

/-- Who is not finished waits, through a chain of owners, for somebody who has
a turn.  The chain ends because the locks that are asked for rise along it. -/
theorem Threads.Sound.exists_runner {state : Threads τ μ} (sound : state.Sound rank reentrant)
    {top : Nat} (bounded : ∀ mutex, rank mutex ≤ top) {thread : τ}
    (unfinished : (state.threads thread).tasks ≠ []) :
    ∃ runner, Relation.ReflTransGen (state.WaitsFor reentrant) thread runner ∧
      ∃ turn next, state.step reentrant (runner, turn) = some next := by
  suffices chain : ∀ room thread, (state.threads thread).tasks ≠ [] →
      (∀ mutex, (state.threads thread).Asks mutex → ¬ state.Admits reentrant thread mutex →
        top < rank mutex + room) →
      ∃ runner, Relation.ReflTransGen (state.WaitsFor reentrant) thread runner ∧
        ∃ turn next, state.step reentrant (runner, turn) = some next by
    apply chain (top + 1) thread unfinished
    intro mutex _ _
    omega
  intro room
  induction room with
  | zero =>
      intro thread unfinished above
      rcases state.step_or_asks reentrant unfinished with goes | ⟨mutex, asks, refused⟩
      · exact ⟨thread, .refl, goes⟩
      · exact absurd (above mutex asks refused) (Nat.not_lt.mpr (bounded mutex))
  | succ room induction =>
      intro thread unfinished above
      rcases state.step_or_asks reentrant unfinished with goes | ⟨mutex, asks, refused⟩
      · exact ⟨thread, .refl, goes⟩
      · have isOwned : state.owners mutex ≠ none := fun free => refused (Or.inl free)
        obtain ⟨owner, owned⟩ := Option.ne_none_iff_exists'.mp isOwned
        have busy : (state.threads owner).tasks ≠ [] := by
          intro finished
          have isHeld := (sound.owners mutex owner).mp owned
          rw [finished] at isHeld
          cases isHeld
        obtain ⟨runner, chain, goes⟩ := induction owner busy (by
          intro asked alsoAsks alsoRefused
          have rises := sound.rank_lt owned alsoAsks alsoRefused
          have below := above mutex asks refused
          omega)
        exact ⟨runner, .head ⟨mutex, asks, owned, refused⟩ chain, goes⟩

/-- Programs that take locks upwards never wait in a circle, in any
interleaving. -/
theorem exists_runner_of_reaches {programs : τ → List (LockUse μ)}
    (ordered : ∀ thread, ∀ program ∈ programs thread, program.Ordered rank reentrant [])
    {top : Nat} (bounded : ∀ mutex, rank mutex ≤ top) {state : Threads τ μ}
    (reached : Reaches (Threads.step reentrant) (fun _ _ => True) (Threads.start programs) state) :
    state.Sound rank reentrant ∧ ∀ thread, (state.threads thread).tasks ≠ [] →
      ∃ runner, Relation.ReflTransGen (state.WaitsFor reentrant) thread runner ∧
        ∃ turn next, state.step reentrant (runner, turn) = some next := by
  have sound : state.Sound rank reentrant :=
    reached.invariant (fun sound _ taken => sound.step taken) (.start ordered)
  exact ⟨sound, fun _ unfinished => sound.exists_runner bounded unfinished⟩

end Sound

end LockUse

end FuseDrive
