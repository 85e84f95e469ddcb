import FuseDrive.Workload
import Mathlib.Logic.Basic

/-!
# Worker pools

A pool takes the jobs it was given in their order and runs no more of them at
a time than it has workers.  A job that has not been taken can be cancelled.
The jobs of all pools stand in one list, in the order of their submission.
-/

namespace FuseDrive.WorkerPool

open Transition

inductive Phase where
  | queued
  | cancelled
  | busy
  | finished
deriving DecidableEq

/-- A worker took the job. -/
def Phase.taken : Phase → Bool
  | .busy | .finished => true
  | .queued | .cancelled => false

structure Job (π : Type) where
  pool : π
  phase : Phase
deriving DecidableEq

inductive Label (π : Type) where
  | submit (pool : π)
  | cancel (job : Nat)
  | take (job : Nat)
  | finish (job : Nat)

variable {π : Type} [DecidableEq π]

/-- The job keeps a worker of the pool from others. -/
def Job.occupies (pool : π) (job : Job π) : Bool :=
  job.pool = pool && job.phase = .busy

/-- The job stands in the queue of the pool. -/
def Job.awaits (pool : π) (job : Job π) : Bool :=
  job.pool = pool && job.phase = .queued

/-- The number of workers of a pool that are busy. -/
def occupied (jobs : List (Job π)) (pool : π) : Nat :=
  jobs.countP (Job.occupies pool)

/-- A worker of the pool is free and the job is the first in its queue. -/
def admits (workers : π → Nat) (jobs : List (Job π)) (index : Nat) (job : Job π) : Bool :=
  job.phase = .queued && occupied jobs job.pool < workers job.pool &&
    (jobs.take index).all fun earlier => !earlier.awaits job.pool

/-- Move a job from one phase to the next. -/
def advance (jobs : List (Job π)) (index : Nat) (before after : Phase) :
    Option (List (Job π)) :=
  (jobs[index]?).bind fun job =>
    if job.phase = before then some (jobs.set index ⟨job.pool, after⟩) else none

/-- The transition system. -/
def step (workers : π → Nat) (jobs : List (Job π)) : Label π → Option (List (Job π))
  | .submit pool => some (jobs ++ [⟨pool, .queued⟩])
  | .cancel index => advance jobs index .queued .cancelled
  | .take index =>
      (jobs[index]?).bind fun job =>
        if admits workers jobs index job then advance jobs index .queued .busy else none
  | .finish index => advance jobs index .busy .finished

/-- Any interleaving of submissions, cancellations and workers. -/
abbrev Runs (workers : π → Nat) : List (Job π) → List (Job π) → Prop :=
  Reaches (step workers) fun _ _ => True

/-! ## What a step can do -/

section Steps

variable {workers : π → Nat} {jobs next : List (Job π)} {index : Nat}

omit [DecidableEq π] in
theorem advance_eq_some {before after : Phase} :
    advance jobs index before after = some next ↔
      ∃ pool, jobs[index]? = some ⟨pool, before⟩ ∧ next = jobs.set index ⟨pool, after⟩ := by
  simp only [advance, Option.bind_eq_some_iff]
  constructor
  · rintro ⟨⟨pool, phase⟩, present, moves⟩
    split at moves <;> cases moves
    rename_i same
    cases same
    exact ⟨pool, present, rfl⟩
  · rintro ⟨pool, present, rfl⟩
    exact ⟨⟨pool, before⟩, present, if_pos rfl⟩

theorem admits_iff {pool : π} :
    admits workers jobs index ⟨pool, .queued⟩ = true ↔
      occupied jobs pool < workers pool ∧
        ∀ earlier < index, jobs[earlier]? ≠ some ⟨pool, .queued⟩ := by
  simp only [admits, decide_true, Bool.true_and, Bool.and_eq_true, decide_eq_true_eq,
    List.all_eq_true, Bool.not_eq_true']
  refine and_congr_right fun _ => ?_
  constructor
  · intro none earlier before present
    have member : (⟨pool, .queued⟩ : Job π) ∈ jobs.take index :=
      List.mem_of_getElem? ((List.getElem?_take_of_lt before).trans present)
    simpa [Job.awaits] using none _ member
  · intro none job member
    obtain ⟨earlier, present⟩ := List.getElem?_of_mem member
    have before : earlier < index := by
      have inside := (List.getElem?_eq_some_iff.mp present).1
      rw [List.length_take] at inside
      omega
    rw [List.getElem?_take_of_lt before] at present
    rw [Bool.eq_false_iff]
    intro awaiting
    simp only [Job.awaits, Bool.and_eq_true, decide_eq_true_eq] at awaiting
    obtain ⟨rfl, isQueued⟩ := awaiting
    obtain ⟨pool, phase⟩ := job
    cases isQueued
    exact none earlier before present

/-- The effect of every step. -/
inductive Stepped (workers : π → Nat) (jobs : List (Job π)) :
    Label π → List (Job π) → Prop where
  | submit {pool} : Stepped workers jobs (.submit pool) (jobs ++ [⟨pool, .queued⟩])
  | cancel {index pool} (present : jobs[index]? = some ⟨pool, .queued⟩) :
      Stepped workers jobs (.cancel index) (jobs.set index ⟨pool, .cancelled⟩)
  | take {index pool} (present : jobs[index]? = some ⟨pool, .queued⟩)
      (free : occupied jobs pool < workers pool)
      (first : ∀ earlier < index, jobs[earlier]? ≠ some ⟨pool, .queued⟩) :
      Stepped workers jobs (.take index) (jobs.set index ⟨pool, .busy⟩)
  | finish {index pool} (present : jobs[index]? = some ⟨pool, .busy⟩) :
      Stepped workers jobs (.finish index) (jobs.set index ⟨pool, .finished⟩)

theorem stepped_of_step {label : Label π} (taken : step workers jobs label = some next) :
    Stepped workers jobs label next := by
  cases label with
  | submit pool =>
      cases taken
      exact .submit
  | cancel index =>
      obtain ⟨pool, present, rfl⟩ := advance_eq_some.mp taken
      exact .cancel present
  | take index =>
      simp only [step, Option.bind_eq_some_iff] at taken
      obtain ⟨job, isJob, taken⟩ := taken
      split at taken
      · rename_i admitted
        obtain ⟨pool, present, rfl⟩ := advance_eq_some.mp taken
        rw [present, Option.some.injEq] at isJob
        subst isJob
        obtain ⟨free, first⟩ := admits_iff.mp admitted
        exact .take present free first
      · cases taken
  | finish index =>
      obtain ⟨pool, present, rfl⟩ := advance_eq_some.mp taken
      exact .finish present

theorem step_take {pool : π} (present : jobs[index]? = some ⟨pool, .queued⟩)
    (free : occupied jobs pool < workers pool)
    (first : ∀ earlier < index, jobs[earlier]? ≠ some ⟨pool, .queued⟩) :
    step workers jobs (.take index) = some (jobs.set index ⟨pool, .busy⟩) := by
  simp only [step, present, Option.bind_some, admits_iff.mpr ⟨free, first⟩, if_true]
  exact advance_eq_some.mpr ⟨pool, present, rfl⟩

end Steps

/-! ## What the pools keep -/

/-- No pool runs more jobs than it has workers. -/
def Within (workers : π → Nat) (jobs : List (Job π)) : Prop :=
  ∀ pool, occupied jobs pool ≤ workers pool

/-- A job was taken only after every earlier one of its pool had been taken or
cancelled. -/
def InOrder (jobs : List (Job π)) : Prop :=
  ∀ (earlier later : Nat) (first second : Job π), earlier < later →
    jobs[earlier]? = some first → jobs[later]? = some second → first.pool = second.pool →
    second.phase.taken = true → first.phase ≠ .queued

section Kept

variable {workers : π → Nat} {jobs next start finish : List (Job π)} {label : Label π}

theorem occupied_set {index : Nat} {pool : π} (other : π) {before : Phase} (after : Phase)
    (present : jobs[index]? = some ⟨pool, before⟩) :
    occupied (jobs.set index ⟨pool, after⟩) other +
        (if pool = other ∧ before = .busy then 1 else 0) =
      occupied jobs other + if pool = other ∧ after = .busy then 1 else 0 := by
  obtain ⟨inside, isJob⟩ := List.getElem?_eq_some_iff.mp present
  have counted : (if pool = other ∧ before = .busy then 1 else 0) ≤ occupied jobs other := by
    split
    · rename_i busy
      apply List.countP_pos_iff.mpr
      exact ⟨_, List.mem_of_getElem? present, by simp [Job.occupies, busy]⟩
    · exact Nat.zero_le _
  unfold occupied at counted ⊢
  rw [List.countP_set inside, isJob]
  simp only [Job.occupies, Bool.and_eq_true, decide_eq_true_eq] at counted ⊢
  omega

theorem occupied_append (pool other : π) :
    occupied (jobs ++ [⟨pool, .queued⟩]) other = occupied jobs other := by
  simp [occupied, Job.occupies]

theorem Within.step (within : Within workers jobs) (stepped : Stepped workers jobs label next) :
    Within workers next := by
  intro other
  have bound := within other
  cases stepped with
  | submit =>
      rw [occupied_append]
      exact bound
  | cancel present =>
      have balance := occupied_set other .cancelled present
      simp only [reduceCtorEq, and_false, if_false, Nat.add_zero] at balance
      exact balance ▸ bound
  | finish present =>
      have balance := occupied_set other .finished present
      simp only [reduceCtorEq, and_false, if_false] at balance
      omega
  | @take index pool present free first =>
      have balance := occupied_set other .busy present
      simp only [reduceCtorEq, and_false, if_false, and_true] at balance
      split at balance
      · rename_i same
        subst same
        omega
      · omega

omit [DecidableEq π] in
theorem getElem?_set_of_some {index other : Nat} {job found : Job π}
    (present : (jobs.set index job)[other]? = some found) :
    index = other ∧ found = job ∨ index ≠ other ∧ jobs[other]? = some found := by
  rw [List.getElem?_set] at present
  split at present
  · split at present <;> cases present
    exact Or.inl ⟨‹_›, rfl⟩
  · exact Or.inr ⟨‹_›, present⟩

omit [DecidableEq π] in
/-- A job that leaves the queue, or was taken before, keeps the order. -/
theorem InOrder.set (order : InOrder jobs) {index : Nat} {pool : π} {before after : Phase}
    (present : jobs[index]? = some ⟨pool, before⟩) (left : after ≠ .queued)
    (taken : after.taken = true → before.taken = true ∨
      ∀ earlier < index, jobs[earlier]? ≠ some ⟨pool, .queued⟩) :
    InOrder (jobs.set index ⟨pool, after⟩) := by
  intro earlier later first second before_ isFirst isSecond same isTaken
  rcases getElem?_set_of_some isFirst with ⟨rfl, rfl⟩ | ⟨-, isFirst⟩
  · exact left
  · rcases getElem?_set_of_some isSecond with ⟨rfl, rfl⟩ | ⟨-, isSecond⟩
    · rcases taken isTaken with wasTaken | none
      · exact order earlier index first _ before_ isFirst present same wasTaken
      · intro queued
        obtain ⟨other, phase⟩ := first
        cases queued
        cases same
        exact none earlier before_ isFirst
    · exact order earlier later first second before_ isFirst isSecond same isTaken

theorem InOrder.step (order : InOrder jobs) (stepped : Stepped workers jobs label next) :
    InOrder next := by
  cases stepped with
  | submit =>
      intro earlier later first second before isFirst isSecond same isTaken
      have inside := (List.getElem?_eq_some_iff.mp isSecond).1
      rw [List.length_append, List.length_singleton] at inside
      rcases Nat.lt_or_ge later jobs.length with old | new
      · rw [List.getElem?_append_left old] at isSecond
        rw [List.getElem?_append_left (Nat.lt_trans before old)] at isFirst
        exact order earlier later first second before isFirst isSecond same isTaken
      · have isNew : later = jobs.length := by omega
        subst isNew
        rw [List.getElem?_concat_length] at isSecond
        cases isSecond
        cases isTaken
  | cancel present => exact order.set present nofun nofun
  | take present free first => exact order.set present nofun fun _ => Or.inr first
  | finish present => exact order.set present nofun fun _ => Or.inl rfl

theorem Runs.within (runs : Runs workers start finish) (within : Within workers start) :
    Within workers finish :=
  runs.invariant (fun within _ taken => within.step (stepped_of_step taken)) within

theorem Runs.inOrder (runs : Runs workers start finish) (order : InOrder start) :
    InOrder finish :=
  runs.invariant (fun order _ taken => order.step (stepped_of_step taken)) order

theorem Within.nil : Within workers [] := fun _ => Nat.zero_le _

omit [DecidableEq π] in
theorem InOrder.nil : InOrder ([] : List (Job π)) := by
  intro earlier later first second before isFirst
  simp at isFirst

/-- Where a pool has a queue and no busy worker, a worker takes a job. -/
theorem exists_take {pool : π} (idle : occupied jobs pool = 0) (employs : 0 < workers pool)
    {index : Nat} (present : jobs[index]? = some ⟨pool, .queued⟩) :
    ∃ taken ≤ index, jobs[taken]? = some ⟨pool, .queued⟩ ∧
      admits workers jobs taken ⟨pool, .queued⟩ = true := by
  induction index using Nat.strongRecOn with
  | ind index induction =>
      by_cases first : ∀ earlier < index, jobs[earlier]? ≠ some ⟨pool, .queued⟩
      · exact ⟨index, Nat.le_refl index, present, admits_iff.mpr ⟨idle ▸ employs, first⟩⟩
      · simp only [not_forall, Decidable.not_not] at first
        obtain ⟨earlier, before, isQueued⟩ := first
        obtain ⟨taken, within, isTaken⟩ := induction earlier before isQueued
        exact ⟨taken, Nat.le_trans within (Nat.le_of_lt before), isTaken⟩

end Kept

/-! ## The work of the pools -/

/-- The steps a worker has still to take for a job. -/
def Phase.left : Phase → Nat
  | .queued => 2
  | .busy => 1
  | .cancelled | .finished => 0

def load (jobs : List (Job π)) : Nat :=
  (jobs.map fun job => job.phase.left).sum

omit [DecidableEq π] in
theorem load_append (jobs : List (Job π)) (pool : π) :
    load (jobs ++ [⟨pool, .queued⟩]) = load jobs + 2 := by
  simp [load, Phase.left]

/-- Every step but a submission lightens the load. -/
theorem Stepped.load_lt {workers : π → Nat} {jobs next : List (Job π)} {label : Label π}
    (works : ∀ pool, label ≠ .submit pool) (stepped : Stepped workers jobs label next) :
    load next < load jobs := by
  have sets {index : Nat} {pool : π} {before after : Phase}
      (present : jobs[index]? = some ⟨pool, before⟩) (lower : after.left < before.left) :
      load (jobs.set index ⟨pool, after⟩) < load jobs := by
    have balance := sum_map_set (fun job : Job π => job.phase.left) ⟨pool, after⟩ present
    simp only at balance
    unfold load
    omega
  cases stepped with
  | submit => exact absurd rfl (works _)
  | cancel present => exact sets present (by decide)
  | take present _ _ => exact sets present (by decide)
  | finish present => exact sets present (by decide)

/-- Where no worker can go on, every job is over. -/
theorem over_of_stuck {workers : π → Nat} {jobs : List (Job π)}
    (employs : ∀ pool, 0 < workers pool) (noTake : ∀ index, step workers jobs (.take index) = none)
    (noFinish : ∀ index, step workers jobs (.finish index) = none) :
    ∀ job ∈ jobs, job.phase = .cancelled ∨ job.phase = .finished := by
  have notBusy {index : Nat} {pool : π} : jobs[index]? ≠ some ⟨pool, .busy⟩ := by
    intro present
    have finishes : step workers jobs (.finish index) =
        some (jobs.set index ⟨pool, .finished⟩) := advance_eq_some.mpr ⟨pool, present, rfl⟩
    rw [noFinish index] at finishes
    cases finishes
  have idle (pool : π) : occupied jobs pool = 0 := by
    apply List.countP_eq_zero.mpr
    intro job member occupies
    obtain ⟨index, present⟩ := List.getElem?_of_mem member
    simp only [Job.occupies, Bool.and_eq_true, decide_eq_true_eq] at occupies
    obtain ⟨pool, phase⟩ := job
    cases occupies.2
    exact notBusy present
  intro job member
  obtain ⟨index, present⟩ := List.getElem?_of_mem member
  obtain ⟨pool, phase⟩ := job
  cases phase with
  | cancelled => exact Or.inl rfl
  | finished => exact Or.inr rfl
  | busy => exact absurd present notBusy
  | queued =>
      obtain ⟨taken, -, isQueued, admitted⟩ := exists_take (idle pool) (employs pool) present
      obtain ⟨free, first⟩ := admits_iff.mp admitted
      have takes := step_take isQueued free first
      rw [noTake taken] at takes
      cases takes

end FuseDrive.WorkerPool
