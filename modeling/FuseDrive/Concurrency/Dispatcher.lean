import FuseDrive.Dict
import FuseDrive.Tally
import FuseDrive.WorkerPool

/-!
# The request dispatcher

`RequestDispatcher` keeps five thread pools and hands every job to the one it
is submitted to.  `submit` first counts the job in `thread_pool_tasks` and then
gives it to the pool, which may have been shut down in between; `shutdown`
closes the pools one after the other and, if it waits, joins each before it
goes on to the next.  A thread of this model is one call of either.
-/

namespace FuseDrive.Concurrency.Dispatcher

open Transition WorkerPool

/-- The keys of `pools`. -/
inductive PoolName where
  | read
  | prefetch
  | write
  | metadata
  | upload
deriving DecidableEq

/-- `pools`, in the order of the dictionary. -/
def pools : List (Str × PoolName) :=
  [("read".toList, .read), ("prefetch".toList, .prefetch), ("write".toList, .write),
    ("metadata".toList, .metadata), ("upload".toList, .upload)]

/-- The arguments of `RequestDispatcher.__init__`. -/
structure Workers where
  readWorkers : Nat := 8
  writeWorkers : Nat := 4
  metaWorkers : Nat := 4
  prefetchWorkers : Nat := 4

/-- `max_workers` of a pool. -/
def Workers.maxWorkers (workers : Workers) : PoolName → Nat
  | .read => workers.readWorkers
  | .prefetch => workers.prefetchWorkers
  | .write => workers.writeWorkers
  | .metadata => workers.metaWorkers
  | .upload => 2

/-- Program points of `submit` and `shutdown`. -/
inductive Thread where
  | idle
  /-- In `submit`, after `metrics.inc`. -/
  | submitting (pool : PoolName)
  | accepted (job : Nat)
  /-- There is no such pool. -/
  | valueError
  /-- The pool was shut down. -/
  | runtimeError
  /-- In `shutdown`, about to shut the first of these pools down. -/
  | closing (wait : Bool) (left : List PoolName)
  | joining (pool : PoolName) (left : List PoolName)
  | returned (wait : Bool)
deriving DecidableEq

structure State where
  jobs : List (Job PoolName)
  closed : PoolName → Bool
  threadPoolTasks : Nat
  threads : Nat → Thread

inductive Label where
  | submit (thread : Nat) (poolName : Str)
  | shutdown (thread : Nat) (wait : Bool)
  /-- A call takes its next step. -/
  | advance (thread : Nat)
  /-- The client of a job cancels its future. -/
  | cancel (job : Nat)
  | take (job : Nat)
  | finish (job : Nat)

namespace State

def setThread (state : State) (thread : Nat) (point : Thread) : State :=
  { state with threads := Function.update state.threads thread point }

/-- `submit` up to the call of the pool. -/
def count (state : State) (thread : Nat) (poolName : Str) : State :=
  match pools.lookup poolName with
  | none => state.setThread thread .valueError
  | some pool =>
      { state.setThread thread (.submitting pool) with
        threadPoolTasks := state.threadPoolTasks + 1 }

/-- The call of the pool. -/
def submit (state : State) (thread : Nat) (pool : PoolName) : State :=
  if state.closed pool then state.setThread thread .runtimeError
  else
    { state.setThread thread (.accepted state.jobs.length) with
      jobs := state.jobs ++ [⟨pool, .queued⟩] }

def close (state : State) (pool : PoolName) : State :=
  { state with closed := Function.update state.closed pool true }

/-- The threads of the pool have ended. -/
def drained (state : State) (pool : PoolName) : Bool :=
  state.jobs.all fun job => !(job.awaits pool || job.occupies pool)

/-- The next step of a call. -/
def advance (state : State) (thread : Nat) : Option State :=
  match state.threads thread with
  | .submitting pool => some (state.submit thread pool)
  | .closing wait [] => some (state.setThread thread (.returned wait))
  | .closing wait (pool :: left) =>
      some ((state.close pool).setThread thread
        (if wait then .joining pool left else .closing wait left))
  | .joining pool left =>
      if state.drained pool then some (state.setThread thread (.closing true left)) else none
  | .idle | .accepted _ | .valueError | .runtimeError | .returned _ => none

end State

/-- The transition system. -/
def step (workers : Workers) (state : State) : Label → Option State
  | .submit thread poolName =>
      match state.threads thread with
      | .idle => some (state.count thread poolName)
      | _ => none
  | .shutdown thread wait =>
      match state.threads thread with
      | .idle => some (state.setThread thread (.closing wait (pools.map Prod.snd)))
      | _ => none
  | .advance thread => state.advance thread
  | .cancel job =>
      (WorkerPool.step workers.maxWorkers state.jobs (.cancel job)).map ({ state with jobs := · })
  | .take job =>
      (WorkerPool.step workers.maxWorkers state.jobs (.take job)).map ({ state with jobs := · })
  | .finish job =>
      (WorkerPool.step workers.maxWorkers state.jobs (.finish job)).map ({ state with jobs := · })

/-- A dispatcher after `__init__`. -/
def initial : State where
  jobs := []
  closed := fun _ => false
  threadPoolTasks := 0
  threads := fun _ => .idle

/-! ## What a step can do -/

/-- What happens to a job, where that is the step. -/
def Label.onJob : Label → Option (WorkerPool.Label PoolName)
  | .cancel job => some (.cancel job)
  | .take job => some (.take job)
  | .finish job => some (.finish job)
  | .submit _ _ | .shutdown _ _ | .advance _ => none

/-- The effect of every step. -/
inductive Stepped (workers : Workers) (state : State) : Label → State → Prop where
  | unknown {thread poolName} (idle : state.threads thread = .idle) :
      Stepped workers state (.submit thread poolName) (state.setThread thread .valueError)
  | count {thread poolName pool} (idle : state.threads thread = .idle) :
      Stepped workers state (.submit thread poolName)
        { state.setThread thread (.submitting pool) with
          threadPoolTasks := state.threadPoolTasks + 1 }
  | refuse {thread pool} (submitting : state.threads thread = .submitting pool)
      (closed : state.closed pool = true) :
      Stepped workers state (.advance thread) (state.setThread thread .runtimeError)
  | accept {thread pool} (submitting : state.threads thread = .submitting pool)
      (isOpen : state.closed pool = false) :
      Stepped workers state (.advance thread)
        { state.setThread thread (.accepted state.jobs.length) with
          jobs := state.jobs ++ [⟨pool, .queued⟩] }
  | shutdown {thread wait} (idle : state.threads thread = .idle) :
      Stepped workers state (.shutdown thread wait)
        (state.setThread thread (.closing wait (pools.map Prod.snd)))
  | close {thread wait pool left} (closing : state.threads thread = .closing wait (pool :: left)) :
      Stepped workers state (.advance thread) ((state.close pool).setThread thread
        (if wait then .joining pool left else .closing wait left))
  | join {thread pool left} (joining : state.threads thread = .joining pool left)
      (drained : state.drained pool = true) :
      Stepped workers state (.advance thread) (state.setThread thread (.closing true left))
  | done {thread wait} (closing : state.threads thread = .closing wait []) :
      Stepped workers state (.advance thread) (state.setThread thread (.returned wait))
  | work {label onJob jobs} (isOnJob : label.onJob = some onJob)
      (worked : WorkerPool.Stepped workers.maxWorkers state.jobs onJob jobs) :
      Stepped workers state label { state with jobs := jobs }

theorem stepped_of_step {workers : Workers} {state next : State} {label : Label}
    (taken : step workers state label = some next) : Stepped workers state label next := by
  have worked {label : Label} {onJob : WorkerPool.Label PoolName}
      (isOnJob : label.onJob = some onJob)
      (taken : (WorkerPool.step workers.maxWorkers state.jobs onJob).map
        ({ state with jobs := · }) = some next) : Stepped workers state label next := by
    rw [Option.map_eq_some_iff] at taken
    obtain ⟨jobs, moved, rfl⟩ := taken
    exact .work isOnJob (WorkerPool.stepped_of_step moved)
  cases label with
  | submit thread poolName =>
      simp only [step] at taken
      split at taken <;> cases taken
      unfold State.count
      split
      · exact .unknown ‹_›
      · exact .count ‹_›
  | shutdown thread wait =>
      simp only [step] at taken
      split at taken <;> cases taken
      exact .shutdown ‹_›
  | advance thread =>
      simp only [step, State.advance] at taken
      split at taken
      · cases taken
        unfold State.submit
        split
        · exact .refuse ‹_› ‹_›
        · rename_i isOpen
          exact .accept ‹_› (by simpa using isOpen)
      · cases taken
        exact .done ‹_›
      · cases taken
        exact .close ‹_›
      · split at taken <;> cases taken
        exact .join ‹_› ‹_›
      · cases taken
      · cases taken
      · cases taken
      · cases taken
      · cases taken
  | cancel job => exact worked rfl taken
  | take job => exact worked rfl taken
  | finish job => exact worked rfl taken

theorem Label.onJob_ne_submit {label : Label} {onJob : WorkerPool.Label PoolName}
    (isOnJob : label.onJob = some onJob) (pool : PoolName) : onJob ≠ .submit pool := by
  cases label <;> cases isOnJob <;> simp

/-! ## What the dispatcher keeps -/

/-- The call has counted its job. -/
def Thread.counted : Thread → Bool
  | .submitting _ | .accepted _ | .runtimeError => true
  | .idle | .valueError | .closing _ _ | .joining _ _ | .returned _ => false

/-- The call has shut the pool down. -/
def Thread.hasClosed (pool : PoolName) : Thread → Prop
  | .closing _ left | .joining _ left => pool ∉ left
  | .returned _ => True
  | .idle | .submitting _ | .accepted _ | .valueError | .runtimeError => False

/-- The call has waited for the threads of the pool. -/
def Thread.hasJoined (pool : PoolName) : Thread → Prop
  | .closing true left => pool ∉ left
  | .joining current left => pool ≠ current ∧ pool ∉ left
  | .returned true => True
  | .closing false _ | .returned false | .idle | .submitting _ | .accepted _ | .valueError
  | .runtimeError => False

/-- The jobs are those of the calls that were accepted, and the pools a call
is done with stay closed and empty. -/
structure Kept (workers : Workers) (state : State) : Prop where
  within : Within workers.maxWorkers state.jobs
  inOrder : InOrder state.jobs
  counted : Tally (fun thread => if (state.threads thread).counted then 1 else 0)
    state.threadPoolTasks
  inside : ∀ thread job, state.threads thread = .accepted job → job < state.jobs.length
  owned : ∀ job < state.jobs.length, ∃ thread, state.threads thread = .accepted job
  single : ∀ thread other job, state.threads thread = .accepted job →
    state.threads other = .accepted job → thread = other
  closed : ∀ thread pool, (state.threads thread).hasClosed pool → state.closed pool = true
  joined : ∀ thread pool, (state.threads thread).hasJoined pool → state.drained pool = true

section Kept

variable {workers : Workers} {state next : State}

theorem Thread.hasClosed_of_hasJoined {pool : PoolName} {point : Thread}
    (joined : point.hasJoined pool) : point.hasClosed pool := by
  cases point with
  | closing wait left => cases wait <;> [cases joined; exact joined]
  | joining current left => exact joined.2
  | returned wait => trivial
  | idle | submitting _ | accepted _ | valueError | runtimeError => cases joined

theorem mem_pools (pool : PoolName) : pool ∈ pools.map Prod.snd := by
  cases pool <;> decide

theorem threads_setThread (state : State) (thread other : Nat) (point : Thread) :
    (state.setThread thread point).threads other =
      if other = thread then point else state.threads other :=
  Function.update_apply ..

theorem Kept.setThread (kept : Kept workers state) {thread : Nat} {point : Thread}
    (counted : point.counted = (state.threads thread).counted)
    (before : ∀ job, state.threads thread ≠ .accepted job) (after : ∀ job, point ≠ .accepted job)
    (closed : ∀ pool, point.hasClosed pool → state.closed pool = true)
    (joined : ∀ pool, point.hasJoined pool → state.drained pool = true) :
    Kept workers (state.setThread thread point) := by
  have owner {other job : Nat} :
      (state.setThread thread point).threads other = .accepted job ↔
        state.threads other = .accepted job := by
    rw [threads_setThread]
    split
    · rename_i same
      subst same
      exact ⟨fun isOwner => absurd isOwner (after job), fun isOwner => absurd isOwner (before job)⟩
    · rfl
  constructor
  · exact kept.within
  · exact kept.inOrder
  · refine kept.counted.congr fun other => ?_
    rw [threads_setThread]
    split
    · rename_i same
      rw [counted, same]
    · rfl
  · exact fun other job isOwner => kept.inside other job (owner.mp isOwner)
  · intro job isInside
    obtain ⟨other, isOwner⟩ := kept.owned job isInside
    exact ⟨other, owner.mpr isOwner⟩
  · exact fun other another job isOwner isAlso =>
      kept.single other another job (owner.mp isOwner) (owner.mp isAlso)
  · intro other pool hasClosed
    rw [threads_setThread] at hasClosed
    split at hasClosed
    · exact closed pool hasClosed
    · exact kept.closed other pool hasClosed
  · intro other pool hasJoined
    rw [threads_setThread] at hasJoined
    split at hasJoined
    · exact joined pool hasJoined
    · exact kept.joined other pool hasJoined

theorem drained_iff {pool : PoolName} :
    state.drained pool = true ↔
      ∀ job ∈ state.jobs, job.pool = pool → job.phase ≠ .queued ∧ job.phase ≠ .busy := by
  simp only [State.drained, List.all_eq_true, Job.awaits, Job.occupies, Bool.not_eq_true',
    Bool.or_eq_false_iff, Bool.and_eq_false_iff, decide_eq_false_iff_not]
  refine forall_congr' fun job => imp_congr_right fun _ => ?_
  by_cases same : job.pool = pool <;> simp [same]

theorem Kept.work (kept : Kept workers state) {label : WorkerPool.Label PoolName}
    {jobs : List (Job PoolName)} (works : ∀ pool, label ≠ .submit pool)
    (worked : WorkerPool.Stepped workers.maxWorkers state.jobs label jobs) :
    Kept workers { state with jobs := jobs } := by
  have sets {index : Nat} {pool : PoolName} {before after : Phase}
      (present : state.jobs[index]? = some ⟨pool, before⟩)
      (isActive : before = .queued ∨ before = .busy) (isSet : jobs = state.jobs.set index ⟨pool, after⟩) :
      jobs.length = state.jobs.length ∧ ∀ other, state.drained other = true →
        ({ state with jobs := jobs } : State).drained other = true := by
    subst isSet
    refine ⟨List.length_set, fun other drained => ?_⟩
    rw [drained_iff] at drained ⊢
    intro job member
    rcases List.mem_or_eq_of_mem_set member with old | rfl
    · exact drained job old
    · intro same
      have empty := drained _ (List.mem_of_getElem? present) same
      rcases isActive with rfl | rfl
      · exact absurd rfl empty.1
      · exact absurd rfl empty.2
  have shape : jobs.length = state.jobs.length ∧ ∀ other, state.drained other = true →
      ({ state with jobs := jobs } : State).drained other = true := by
    cases worked with
    | submit => exact absurd rfl (works _)
    | cancel present => exact sets present (Or.inl rfl) rfl
    | take present _ _ => exact sets present (Or.inl rfl) rfl
    | finish present => exact sets present (Or.inr rfl) rfl
  constructor
  · exact kept.within.step worked
  · exact kept.inOrder.step worked
  · exact kept.counted
  · intro thread job isOwner
    rw [shape.1]
    exact kept.inside thread job isOwner
  · intro job isInside
    rw [shape.1] at isInside
    exact kept.owned job isInside
  · exact kept.single
  · exact kept.closed
  · exact fun thread pool hasJoined => shape.2 pool (kept.joined thread pool hasJoined)

theorem Kept.accept (kept : Kept workers state) {thread : Nat} {pool : PoolName}
    (submitting : state.threads thread = .submitting pool) (isOpen : state.closed pool = false) :
    Kept workers
      { state.setThread thread (.accepted state.jobs.length) with
        jobs := state.jobs ++ [⟨pool, .queued⟩] } := by
  have worked : WorkerPool.Stepped workers.maxWorkers state.jobs (.submit pool)
      (state.jobs ++ [⟨pool, .queued⟩]) := .submit
  have moved (other : Nat) : (state.setThread thread (.accepted state.jobs.length)).threads other =
      if other = thread then .accepted state.jobs.length else state.threads other :=
    threads_setThread state thread other _
  constructor
  · exact kept.within.step worked
  · exact kept.inOrder.step worked
  · refine kept.counted.congr fun other => ?_
    change (if ((state.setThread thread _).threads other).counted then 1 else 0) = _
    rw [moved]
    split
    · rename_i same
      rw [same, submitting]
      rfl
    · rfl
  · intro other job isOwner
    rw [List.length_append, List.length_singleton]
    change (state.setThread thread _).threads other = _ at isOwner
    rw [moved] at isOwner
    split at isOwner
    · cases isOwner
      exact Nat.lt_succ_self _
    · exact Nat.lt_succ_of_lt (kept.inside other job isOwner)
  · intro job isInside
    rw [List.length_append, List.length_singleton, Nat.lt_succ_iff_lt_or_eq] at isInside
    rcases isInside with old | isNew
    · obtain ⟨other, isOwner⟩ := kept.owned job old
      refine ⟨other, (moved other).trans ?_⟩
      split
      · rename_i same
        rw [same, submitting] at isOwner
        cases isOwner
      · exact isOwner
    · exact ⟨thread, (moved thread).trans (by rw [if_pos rfl, isNew])⟩
  · intro other another job isOwner isAlso
    change (state.setThread thread _).threads other = _ at isOwner
    change (state.setThread thread _).threads another = _ at isAlso
    rw [moved] at isOwner isAlso
    split at isOwner <;> split at isAlso
    · exact ‹other = thread›.trans ‹another = thread›.symm
    · cases isOwner
      exact absurd (kept.inside another _ isAlso) (Nat.lt_irrefl _)
    · cases isAlso
      exact absurd (kept.inside other _ isOwner) (Nat.lt_irrefl _)
    · exact kept.single other another job isOwner isAlso
  · intro other asked hasClosed
    change ((state.setThread thread _).threads other).hasClosed asked at hasClosed
    rw [moved] at hasClosed
    split at hasClosed
    · cases hasClosed
    · exact kept.closed other asked hasClosed
  · intro other asked hasJoined
    change ((state.setThread thread _).threads other).hasJoined asked at hasJoined
    rw [moved] at hasJoined
    split at hasJoined
    · cases hasJoined
    · have isClosed := kept.closed other asked (Thread.hasClosed_of_hasJoined hasJoined)
      have different : pool ≠ asked := by
        intro same
        rw [← same, isOpen] at isClosed
        cases isClosed
      have drained := drained_iff.mp (kept.joined other asked hasJoined)
      refine drained_iff.mpr fun job member same => ?_
      rcases List.mem_append.mp member with old | isNew
      · exact drained job old same
      · rw [List.mem_singleton.mp isNew] at same
        exact absurd same different

theorem Kept.step (kept : Kept workers state) {label : Label}
    (stepped : Stepped workers state label next) : Kept workers next := by
  cases stepped with
  | unknown idle =>
      refine kept.setThread ?_ ?_ nofun nofun nofun
      · rw [idle]
        rfl
      · simp [idle]
  | @count thread poolName pool idle =>
      have moved (other : Nat) := threads_setThread state thread other (.submitting pool)
      have owner {other job : Nat} :
          (state.setThread thread (.submitting pool)).threads other = .accepted job ↔
            state.threads other = .accepted job := by
        rw [moved]
        split
        · rename_i same
          rw [same, idle]
          simp
        · rfl
      constructor
      · exact kept.within
      · exact kept.inOrder
      · refine kept.counted.change thread ?_ ?_
        · intro other different
          change (if ((state.setThread thread _).threads other).counted then 1 else 0) = _
          rw [moved, if_neg different]
        · change _ + (if ((state.setThread thread _).threads thread).counted then 1 else 0) = _
          rw [moved, if_pos rfl, idle]
          rfl
      · exact fun other job isOwner => kept.inside other job (owner.mp isOwner)
      · intro job isInside
        obtain ⟨other, isOwner⟩ := kept.owned job isInside
        exact ⟨other, owner.mpr isOwner⟩
      · exact fun other another job isOwner isAlso =>
          kept.single other another job (owner.mp isOwner) (owner.mp isAlso)
      · intro other asked hasClosed
        change ((state.setThread thread _).threads other).hasClosed asked at hasClosed
        rw [moved] at hasClosed
        split at hasClosed
        · cases hasClosed
        · exact kept.closed other asked hasClosed
      · intro other asked hasJoined
        change ((state.setThread thread _).threads other).hasJoined asked at hasJoined
        rw [moved] at hasJoined
        split at hasJoined
        · cases hasJoined
        · exact kept.joined other asked hasJoined
  | refuse submitting closed =>
      refine kept.setThread ?_ ?_ nofun nofun nofun
      · rw [submitting]
        rfl
      · simp [submitting]
  | accept submitting isOpen => exact kept.accept submitting isOpen
  | @shutdown thread wait idle =>
      refine kept.setThread ?_ ?_ nofun ?_ ?_
      · rw [idle]
        rfl
      · simp [idle]
      · exact fun pool hasClosed => absurd (mem_pools pool) hasClosed
      · intro pool hasJoined
        exact absurd (mem_pools pool) (Thread.hasClosed_of_hasJoined hasJoined)
  | @close thread wait pool left closing =>
      have closed (other : PoolName) : (state.close pool).closed other =
          if other = pool then true else state.closed other := Function.update_apply ..
      have keptClosed : Kept workers (state.close pool) := by
        refine { kept with closed := ?_, joined := kept.joined }
        intro other asked hasClosed
        rw [closed]
        split
        · rfl
        · exact kept.closed other asked hasClosed
      have wasClosed {asked : PoolName} (different : asked ≠ pool) (out : asked ∉ left) :
          state.closed asked = true := by
        apply kept.closed thread
        rw [closing]
        simp [Thread.hasClosed, different, out]
      refine keptClosed.setThread ?_ ?_ ?_ ?_ ?_
      · change _ = (state.threads thread).counted
        rw [closing]
        cases wait <;> rfl
      · intro job isOwner
        change state.threads thread = _ at isOwner
        rw [closing] at isOwner
        cases isOwner
      · cases wait <;> simp
      · intro asked hasClosed
        have out : asked ∉ left := by cases wait <;> exact hasClosed
        rw [closed]
        split
        · rfl
        · exact wasClosed ‹_› out
      · intro asked hasJoined
        cases wait with
        | false => cases hasJoined
        | true =>
            apply kept.joined thread
            rw [closing]
            simpa [Thread.hasJoined] using hasJoined
  | @join thread pool left joining drained =>
      refine kept.setThread ?_ ?_ nofun ?_ ?_
      · rw [joining]
        rfl
      · simp [joining]
      · intro asked out
        apply kept.closed thread
        rw [joining]
        exact out
      · intro asked out
        by_cases same : asked = pool
        · rw [same]
          exact drained
        · apply kept.joined thread
          rw [joining]
          exact ⟨same, out⟩
  | @done thread wait closing =>
      refine kept.setThread ?_ ?_ nofun ?_ ?_
      · rw [closing]
        rfl
      · simp [closing]
      · intro asked _
        apply kept.closed thread
        rw [closing]
        simp [Thread.hasClosed]
      · intro asked hasJoined
        cases wait with
        | false => cases hasJoined
        | true =>
            apply kept.joined thread
            rw [closing]
            simp [Thread.hasJoined]
  | work isOnJob worked => exact kept.work (Label.onJob_ne_submit isOnJob) worked

theorem Kept.initial : Kept workers initial := by
  constructor
  · exact Within.nil
  · exact InOrder.nil
  · exact Tally.zero
  · exact nofun
  · exact nofun
  · exact nofun
  · exact nofun
  · exact nofun

end Kept

/-- The dispatcher runs no more jobs of a pool than it has workers, takes them
in the order of submission, counts every call of `submit` for a pool and has
one job for each call that was accepted; and what a call of `shutdown` closed
stays closed, what it waited for stays empty. -/
structure Dispatches (workers : Workers) (state : State) : Prop where
  busy : ∀ pool, occupied state.jobs pool ≤ workers.maxWorkers pool
  order : InOrder state.jobs
  counts : {thread | (state.threads thread).counted = true}.encard = state.threadPoolTasks
  jobs : ∀ job, job < state.jobs.length ↔ ∃! thread, state.threads thread = .accepted job
  closes : ∀ thread wait, state.threads thread = .returned wait →
    ∀ pool, state.closed pool = true
  joins : ∀ thread, state.threads thread = .returned true →
    ∀ job ∈ state.jobs, job.phase = .cancelled ∨ job.phase = .finished

theorem Kept.dispatches {workers : Workers} {state : State} (kept : Kept workers state) :
    Dispatches workers state := by
  constructor
  · exact kept.within
  · exact kept.inOrder
  · have members := kept.counted.encard fun thread => by split <;> omega
    rw [← members]
    congr 1
    ext thread
    cases isCounted : (state.threads thread).counted <;> simp [isCounted]
  · intro job
    constructor
    · intro isInside
      obtain ⟨thread, isOwner⟩ := kept.owned job isInside
      exact ⟨thread, isOwner, fun other isAlso => kept.single other thread job isAlso isOwner⟩
    · rintro ⟨thread, isOwner, -⟩
      exact kept.inside thread job isOwner
  · intro thread wait returned pool
    apply kept.closed thread
    rw [returned]
    trivial
  · intro thread returned job member
    have drained : state.drained job.pool = true := by
      apply kept.joined thread
      rw [returned]
      trivial
    obtain ⟨notQueued, notBusy⟩ := drained_iff.mp drained job member rfl
    cases phase : job.phase with
    | queued => exact absurd phase notQueued
    | busy => exact absurd phase notBusy
    | cancelled => exact Or.inl rfl
    | finished => exact Or.inr rfl

/-- The dispatcher serves any number of calls of `submit` and `shutdown` in
any order of their steps. -/
theorem dispatches_of_reaches {workers : Workers} {state : State}
    (reached : Reaches (step workers) (fun _ _ => True) initial state) :
    Dispatches workers state :=
  (reached.invariant (fun kept _ taken => kept.step (stepped_of_step taken))
    Kept.initial).dispatches

/-- Three uploads, a call that names no pool and one that finds its pool shut
down after it was counted. -/
def busyShutdown : List Label :=
  [.submit 0 "upload".toList, .advance 0, .submit 1 "upload".toList, .advance 1,
    .submit 2 "upload".toList, .advance 2, .take 0, .take 1, .submit 3 "scan".toList,
    .submit 4 "read".toList, .shutdown 5 true, .advance 5, .advance 4, .finish 1, .cancel 2] ++
    List.replicate 8 (.advance 5) ++ [.finish 0, .advance 5, .advance 5]

theorem dispatches_of_reaches_busyShutdown :
    ∃ finish, run (step {}) initial busyShutdown = some finish ∧
      finish.threads 3 = .valueError ∧ finish.threads 4 = .runtimeError ∧
      finish.threads 5 = .returned true ∧ finish.threadPoolTasks = 4 ∧ Dispatches {} finish := by
  obtain ⟨finish, executed⟩ := Option.isSome_iff_exists.mp
    (show (run (step {}) initial busyShutdown).isSome from rfl)
  exact ⟨finish, executed, look_of_run executed (·.threads 3) rfl,
    look_of_run executed (·.threads 4) rfl, look_of_run executed (·.threads 5) rfl,
    look_of_run executed (·.threadPoolTasks) rfl,
    dispatches_of_reaches (Reaches.of_free_run executed)⟩

/-! ## A shutdown that waits returns -/

/-- The steps a call has still to take, with those of the job it submits. -/
def Thread.left : Thread → Nat
  | .submitting _ => 3
  | .closing _ left => 2 * left.length + 1
  | .joining _ left => 2 * left.length + 2
  | .idle | .accepted _ | .valueError | .runtimeError | .returned _ => 0

/-- The step is not the beginning of a call. -/
def Label.works : Label → Prop
  | .submit _ _ | .shutdown _ _ => False
  | .advance _ | .cancel _ | .take _ | .finish _ => True

/-- The steps that the calls and the jobs have still to take. -/
def Backlog (state : State) (total : Nat) : Prop :=
  ∃ calls, Tally (fun thread => (state.threads thread).left) calls ∧
    total = calls + load state.jobs

/-- No call is under way and no job is left. -/
structure Finished (state : State) : Prop where
  calls : ∀ thread, (state.threads thread).left = 0
  jobs : ∀ job ∈ state.jobs, job.phase = .cancelled ∨ job.phase = .finished

section Termination

variable {workers : Workers} {state next : State}

theorem Backlog.setThread {total : Nat} (backlog : Backlog state total) (thread : Nat)
    (point : Thread) :
    ∃ later, Backlog (state.setThread thread point) later ∧
      later + (state.threads thread).left = total + point.left := by
  obtain ⟨calls, tally, rfl⟩ := backlog
  have share := tally.le thread
  refine ⟨calls + point.left - (state.threads thread).left + load state.jobs,
    ⟨_, tally.change thread ?_ ?_, rfl⟩, ?_⟩
  · intro other different
    rw [threads_setThread, if_neg different]
  · rw [threads_setThread, if_pos rfl]
    omega
  · omega

/-- Every step but the beginning of a call lowers the backlog. -/
theorem Backlog.step {label : Label} {total : Nat} (backlog : Backlog state total)
    (works : label.works) (taken : step workers state label = some next) :
    ∃ less, less < total ∧ Backlog next less := by
  have moves {thread : Nat} {point : Thread} (lower : point.left < (state.threads thread).left) :
      ∃ less, less < total ∧ Backlog (state.setThread thread point) less := by
    obtain ⟨later, isLater, balance⟩ := backlog.setThread thread point
    exact ⟨later, by omega, isLater⟩
  cases stepped_of_step taken with
  | unknown idle | count idle | shutdown idle => cases works
  | refuse submitting closed => exact moves (by simp [submitting, Thread.left])
  | @accept thread pool submitting isOpen =>
      obtain ⟨later, ⟨calls, tally, rfl⟩, balance⟩ :=
        backlog.setThread thread (.accepted state.jobs.length)
      rw [submitting] at balance
      refine ⟨calls + load (state.jobs ++ [⟨pool, .queued⟩]), ?_, calls, tally, rfl⟩
      rw [load_append]
      simp only [Thread.left, State.setThread] at balance
      omega
  | @close thread wait pool left closing =>
      refine moves ?_
      rw [closing]
      have longer : (pool :: left).length = left.length + 1 := List.length_cons
      cases wait with
      | false =>
          change 2 * left.length + 1 < 2 * (pool :: left).length + 1
          omega
      | true =>
          change 2 * left.length + 2 < 2 * (pool :: left).length + 1
          omega
  | join joining drained => exact moves (by simp [joining, Thread.left])
  | done closing => exact moves (by simp [closing, Thread.left])
  | work isOnJob worked =>
      obtain ⟨calls, tally, rfl⟩ := backlog
      have lighter := worked.load_lt (Label.onJob_ne_submit isOnJob)
      exact ⟨calls + load _, Nat.add_lt_add_left lighter calls, calls, tally, rfl⟩

theorem Backlog.initial : Backlog Dispatcher.initial 0 :=
  ⟨0, Tally.zero, rfl⟩

/-- A dispatcher that is reached has a backlog, as every call adds to one. -/
theorem Backlog.of_reaches
    (reached : Reaches (Dispatcher.step workers) (fun _ _ => True) Dispatcher.initial state) :
    ∃ total, Backlog state total := by
  induction reached with
  | refl => exact ⟨0, Backlog.initial⟩
  | @tail before after _ last induction =>
  obtain ⟨label, -, taken⟩ := last
  obtain ⟨total, backlog⟩ := induction
  have moves (thread : Nat) (point : Thread) :
      ∃ later, Backlog (before.setThread thread point) later := by
    obtain ⟨later, isLater, -⟩ := backlog.setThread thread point
    exact ⟨later, isLater⟩
  by_cases works : label.works
  · obtain ⟨less, -, isLess⟩ := backlog.step works taken
    exact ⟨less, isLess⟩
  · cases stepped_of_step taken with
    | @unknown thread poolName idle => exact moves thread .valueError
    | @count thread poolName pool idle => exact moves thread (.submitting pool)
    | @shutdown thread wait idle => exact moves thread (.closing wait (pools.map Prod.snd))
    | refuse _ _ | accept _ _ | close _ | join _ _ | done _ => exact absurd trivial works
    | @work label onJob jobs isOnJob worked => cases label <;> cases isOnJob <;> cases works trivial

/-- A call that is not over has a step where no job is left. -/
theorem advance_isSome {thread : Nat} (left : (state.threads thread).left ≠ 0)
    (jobs : ∀ job ∈ state.jobs, job.phase = .cancelled ∨ job.phase = .finished) :
    ∃ next, state.advance thread = some next := by
  unfold State.advance
  cases isPoint : state.threads thread with
  | idle | accepted _ | valueError | runtimeError | returned _ =>
      rw [isPoint] at left
      exact absurd rfl left
  | submitting pool => exact ⟨_, rfl⟩
  | closing wait pools => cases pools <;> exact ⟨_, rfl⟩
  | joining pool pools =>
      have drained : state.drained pool = true := by
        refine drained_iff.mpr fun job member _ => ?_
        rcases jobs job member with ended | ended <;> simp [ended]
      simp only [drained, if_true]
      exact ⟨_, rfl⟩

/-- The dispatcher stands still exactly where all calls and all jobs are
over. -/
theorem settled_iff (employs : ∀ pool, 0 < workers.maxWorkers pool) :
    Settled (Dispatcher.step workers) (fun _ _ => True) Label.works state ↔ Finished state := by
  constructor
  · intro settled
    have jobs : ∀ job ∈ state.jobs, job.phase = .cancelled ∨ job.phase = .finished :=
      over_of_stuck employs
        (fun index => by simpa [Dispatcher.step] using settled (.take index) trivial trivial)
        (fun index => by simpa [Dispatcher.step] using settled (.finish index) trivial trivial)
    refine ⟨fun thread => ?_, jobs⟩
    by_contra left
    obtain ⟨next, advances⟩ := advance_isSome left jobs
    have stuck := settled (.advance thread) trivial trivial
    rw [show Dispatcher.step workers state (.advance thread) = some next from advances] at stuck
    cases stuck
  · rintro finished label - works
    rw [Option.eq_none_iff_forall_ne_some]
    intro next taken
    have ended {thread : Nat} {point : Thread} (isPoint : state.threads thread = point)
        (left : point.left ≠ 0) : False :=
      left (isPoint ▸ finished.calls thread)
    cases stepped_of_step taken with
    | unknown idle | count idle | shutdown idle => cases works
    | refuse submitting closed => exact ended submitting (by simp [Thread.left])
    | accept submitting isOpen => exact ended submitting (by simp [Thread.left])
    | close closing => exact ended closing (by simp [Thread.left])
    | join joining drained => exact ended joining (by simp [Thread.left])
    | done closing => exact ended closing (by simp [Thread.left])
    | work isOnJob worked =>
        have idle {index : Nat} {pool : PoolName} {phase : Phase}
            (present : state.jobs[index]? = some ⟨pool, phase⟩) :
            phase = .cancelled ∨ phase = .finished :=
          finished.jobs _ (List.mem_of_getElem? present)
        cases worked with
        | submit => exact Label.onJob_ne_submit isOnJob _ rfl
        | cancel present => simpa using idle present
        | take present _ _ => simpa using idle present
        | finish present => simpa using idle present

end Termination

/-- From every state the dispatcher reaches it can take only so many steps
unless a call begins, whoever takes them, and it stands still exactly where
every call, of `shutdown` too, has returned and every job is over. -/
theorem settles_of_reaches {workers : Workers} {state : State}
    (employs : ∀ pool, 0 < workers.maxWorkers pool)
    (reached : Reaches (step workers) (fun _ _ => True) initial state) :
    (∃ bound, ∀ count finish,
      Worked (step workers) (fun _ label => label.works) Label.works state count finish →
        count ≤ bound) ∧
    ∀ finish, Reaches (step workers) (fun _ _ => True) state finish →
      (Settled (step workers) (fun _ _ => True) Label.works finish ↔ Finished finish) := by
  constructor
  · obtain ⟨total, backlog⟩ := Backlog.of_reaches reached
    refine ⟨total, fun count finish worked => ?_⟩
    obtain ⟨rest, within, -⟩ := worked.bounded backlog
      (fun backlog _ works taken => backlog.step works taken)
      (fun _ works idle _ => absurd works idle)
    omega
  · exact fun finish _ => settled_iff employs

/-- From the middle of the run above. -/
theorem settles_of_reaches_busyShutdown :
    ∃ middle, run (step {}) initial (busyShutdown.take 12) = some middle ∧
      middle.threads 5 = .joining .read [.prefetch, .write, .metadata, .upload] ∧
      (∃ bound, ∀ count finish,
        Worked (step {}) (fun _ label => label.works) Label.works middle count finish →
          count ≤ bound) ∧
      ∀ finish, Reaches (step {}) (fun _ _ => True) middle finish →
        (Settled (step {}) (fun _ _ => True) Label.works finish ↔ Finished finish) := by
  obtain ⟨middle, executed⟩ := Option.isSome_iff_exists.mp
    (show (run (step {}) initial (busyShutdown.take 12)).isSome from rfl)
  have employs (pool : PoolName) : 0 < ({} : Workers).maxWorkers pool := by
    cases pool <;> decide
  exact ⟨middle, executed, look_of_run executed (·.threads 5) rfl,
    settles_of_reaches employs (Reaches.of_free_run executed)⟩

end FuseDrive.Concurrency.Dispatcher
