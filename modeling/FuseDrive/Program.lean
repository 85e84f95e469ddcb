import Mathlib.Logic.Relation

/-!
# Programs over requests

A program asks its world one request after the other and ends with a value or
an error.  The world is a relation: a request can be answered in several ways,
and between two requests the world can drift by itself, as a clock does.

`Ensures` is the triple of a program and its world.  Its rules ask for
assertions that the drift preserves.  A world that answers every request in one
way only is a function, and `play` runs a program on it.
-/

namespace FuseDrive

/-- A program whose requests are answered by its world. -/
inductive Program (Request : Type) (Answer : Request → Type) (ε α : Type) where
  | done (result : Except ε α)
  | ask (request : Request) (next : Answer request → Program Request Answer ε α)

namespace Program

variable {Request : Type} {Answer : Request → Type} {ε α β σ : Type}

/-- An error ends the program. -/
def bind : Program Request Answer ε α → (α → Program Request Answer ε β) →
    Program Request Answer ε β
  | done (.ok value), next => next value
  | done (.error error), _ => done (.error error)
  | ask request rest, next => ask request fun answer => (rest answer).bind next

instance : Monad (Program Request Answer ε) where
  pure value := done (.ok value)
  bind := bind

def raise (error : ε) : Program Request Answer ε α := done (.error error)

def perform (request : Request) : Program Request Answer ε (Answer request) :=
  ask request fun answer => done (.ok answer)

/-! ## Executions -/

/-- How a world answers requests, and how it changes between them. -/
structure Environment (σ Request : Type) (Answer : Request → Type) where
  serves : σ → (request : Request) → Answer request → σ → Prop
  drifts : σ → σ → Prop

inductive Executes (environment : Environment σ Request Answer) :
    σ → Program Request Answer ε α → Except ε α → σ → Prop where
  | done {world : σ} {result : Except ε α} :
      Executes environment world (.done result) result world
  | drift {world later finish : σ} {program : Program Request Answer ε α}
      {result : Except ε α} :
      environment.drifts world later →
      Executes environment later program result finish →
      Executes environment world program result finish
  | ask {world later finish : σ} {request : Request} {answer : Answer request}
      {next : Answer request → Program Request Answer ε α} {result : Except ε α} :
      environment.serves world request answer later →
      Executes environment later (next answer) result finish →
      Executes environment world (.ask request next) result finish

theorem Executes.of_bind {environment : Environment σ Request Answer} {start finish : σ}
    {program : Program Request Answer ε α} {next : α → Program Request Answer ε β}
    {result : Except ε β}
    (execution : Executes environment start (program.bind next) result finish) :
    (∃ error, result = .error error ∧
      Executes environment start program (.error error) finish) ∨
    ∃ value middle, Executes environment start program (.ok value) middle ∧
      Executes environment middle (next value) result finish := by
  generalize whole : program.bind next = composed at execution
  induction execution generalizing program with
  | done =>
      rename_i world result
      cases program with
      | done first =>
          cases first with
          | ok value =>
              have ended : next value = .done result := whole
              exact .inr ⟨value, world, .done, ended ▸ .done⟩
          | error error =>
              have same : (.done (.error error) : Program Request Answer ε β) =
                .done result := whole
              cases same
              exact .inl ⟨error, rfl, .done⟩
      | ask request rest => cases whole
  | drift drifted rest induction =>
      rcases induction whole with ⟨error, same, failed⟩ | ⟨value, middle, first, second⟩
      · exact .inl ⟨error, same, .drift drifted failed⟩
      · exact .inr ⟨value, middle, .drift drifted first, second⟩
  | ask served rest induction =>
      rename_i world later finish request answer following result
      cases program with
      | done first =>
          cases first with
          | ok value =>
              have begun : next value = .ask request following := whole
              exact .inr ⟨value, world, .done, begun ▸ .ask served rest⟩
          | error error => cases whole
      | ask first remaining =>
          have same : (Program.ask first fun answer => (remaining answer).bind next) =
            .ask request following := whole
          cases same
          rcases induction rfl with ⟨error, same, failed⟩ | ⟨value, middle, first, second⟩
          · exact .inl ⟨error, same, .ask served failed⟩
          · exact .inr ⟨value, middle, .ask served first, second⟩

theorem Executes.of_done {environment : Environment σ Request Answer} {start finish : σ}
    {ended result : Except ε α}
    (execution : Executes environment start
      (.done ended : Program Request Answer ε α) result finish) :
    result = ended ∧ Relation.ReflTransGen environment.drifts start finish := by
  generalize whole : (Program.done ended : Program Request Answer ε α) = program at execution
  induction execution with
  | done =>
      cases whole
      exact ⟨rfl, .refl⟩
  | drift drifted _ induction =>
      obtain ⟨same, drifts⟩ := induction whole
      exact ⟨same, .head drifted drifts⟩
  | ask => cases whole

theorem Executes.of_ask {environment : Environment σ Request Answer} {start finish : σ}
    {request : Request} {next : Answer request → Program Request Answer ε α}
    {result : Except ε α}
    (execution : Executes environment start (.ask request next) result finish) :
    ∃ before answer after, Relation.ReflTransGen environment.drifts start before ∧
      environment.serves before request answer after ∧
      Executes environment after (next answer) result finish := by
  generalize whole : Program.ask request next = program at execution
  induction execution with
  | done => cases whole
  | drift drifted _ induction =>
      obtain ⟨before, answer, after, drifts, rest⟩ := induction whole
      exact ⟨before, answer, after, .head drifted drifts, rest⟩
  | ask served rest =>
      cases whole
      exact ⟨_, _, _, .refl, served, rest⟩

theorem Executes.of_perform {environment : Environment σ Request Answer} {start finish : σ}
    {request : Request} {next : Answer request → Program Request Answer ε α}
    {result : Except ε α}
    (execution : Executes environment start (perform request >>= next) result finish) :
    ∃ before answer after, Relation.ReflTransGen environment.drifts start before ∧
      environment.serves before request answer after ∧
      Executes environment after (next answer) result finish :=
  Executes.of_ask execution

/-- The world drifts or serves a request. -/
def Environment.Moves (environment : Environment σ Request Answer) (world later : σ) : Prop :=
  environment.drifts world later ∨
    ∃ request answer, environment.serves world request answer later

theorem Executes.moves {environment : Environment σ Request Answer} {start finish : σ}
    {program : Program Request Answer ε α} {result : Except ε α}
    (execution : Executes environment start program result finish) :
    Relation.ReflTransGen environment.Moves start finish := by
  induction execution with
  | done => exact .refl
  | drift drifted _ induction => exact .head (.inl drifted) induction
  | ask served _ induction => exact .head (.inr ⟨_, _, served⟩) induction

theorem Executes.mono {environment wider : Environment σ Request Answer} {start finish : σ}
    {program : Program Request Answer ε α} {result : Except ε α}
    (serves : ∀ {world request answer later}, environment.serves world request answer later →
      wider.serves world request answer later)
    (drifts : ∀ {world later}, environment.drifts world later → wider.drifts world later)
    (execution : Executes environment start program result finish) :
    Executes wider start program result finish := by
  induction execution with
  | done => exact .done
  | drift drifted _ induction => exact .drift (drifts drifted) induction
  | ask served _ induction => exact .ask (serves served) induction

/-! ## What a program asks -/

/-- Whatever it is answered, the program asks nothing else. -/
inductive OnlyAsks (allowed : Request → Prop) : Program Request Answer ε α → Prop where
  | done {result : Except ε α} : OnlyAsks allowed (.done result)
  | ask {request : Request} {next : Answer request → Program Request Answer ε α} :
      allowed request → (∀ answer, OnlyAsks allowed (next answer)) →
      OnlyAsks allowed (.ask request next)

theorem OnlyAsks.perform {allowed : Request → Prop} {request : Request}
    (fine : allowed request) :
    OnlyAsks allowed (perform request : Program Request Answer ε (Answer request)) :=
  .ask fine fun _ => .done

theorem OnlyAsks.bind {allowed : Request → Prop} {program : Program Request Answer ε α}
    {next : α → Program Request Answer ε β} (first : OnlyAsks allowed program)
    (rest : ∀ value, OnlyAsks allowed (next value)) : OnlyAsks allowed (program >>= next) := by
  induction first with
  | @done result =>
      cases result with
      | ok value => exact rest value
      | error error => exact .done
  | ask fine _ induction => exact .ask fine induction

theorem OnlyAsks.mono {allowed wider : Request → Prop} {program : Program Request Answer ε α}
    (asks : OnlyAsks allowed program) (within : ∀ ⦃request⦄, allowed request → wider request) :
    OnlyAsks wider program := by
  induction asks with
  | done => exact .done
  | ask fine _ induction => exact .ask (within fine) induction

/-- What the world keeps when it drifts and serves these requests, an execution
keeps. -/
theorem Executes.keeps {environment : Environment σ Request Answer} {allowed : Request → Prop}
    {start finish : σ} {program : Program Request Answer ε α} {result : Except ε α}
    (kept : σ → Prop)
    (drifts : ∀ {world later}, kept world → environment.drifts world later → kept later)
    (serves : ∀ {world request answer later}, kept world → allowed request →
      environment.serves world request answer later → kept later)
    (execution : Executes environment start program result finish)
    (asks : OnlyAsks allowed program) (holds : kept start) : kept finish := by
  induction execution with
  | done => exact holds
  | drift drifted _ induction => exact induction asks (drifts holds drifted)
  | ask served _ induction =>
      cases asks with
      | ask fine rest => exact induction (rest _) (serves holds fine served)

/-! ## Errors -/

/-- Every execution that ends with an error relates its worlds so. -/
def ErrorsKeep (environment : Environment σ Request Answer) (related : σ → σ → Prop)
    (program : Program Request Answer ε α) : Prop :=
  ∀ ⦃start error finish⦄, Executes environment start program (.error error) finish →
    related start finish

/-- Whatever it is answered, the program ends with a value. -/
inductive NeverRaises : Program Request Answer ε α → Prop where
  | done {value : α} : NeverRaises (.done (.ok value))
  | ask {request : Request} {next : Answer request → Program Request Answer ε α} :
      (∀ answer, NeverRaises (next answer)) → NeverRaises (.ask request next)

theorem NeverRaises.perform (request : Request) :
    NeverRaises (perform request : Program Request Answer ε (Answer request)) :=
  .ask fun _ => .done

theorem NeverRaises.not_error {environment : Environment σ Request Answer}
    {start finish : σ} {error : ε} {program : Program Request Answer ε α}
    (never : NeverRaises program) : ¬ Executes environment start program (.error error) finish := by
  intro execution
  generalize whole : (Except.error error : Except ε α) = result at execution
  induction execution with
  | done =>
      cases whole
      cases never
  | drift _ _ induction => exact induction never whole
  | ask _ _ induction =>
      cases never with
      | ask rest => exact induction (rest _) whole

section Errors

variable {environment : Environment σ Request Answer} {related : σ → σ → Prop}

theorem ErrorsKeep.done {result : Except ε α}
    (drifts : ∀ {start finish}, Relation.ReflTransGen environment.drifts start finish →
      related start finish) :
    ErrorsKeep environment related (.done result : Program Request Answer ε α) :=
  fun _ _ _ execution => drifts execution.of_done.2

/-- An answer leads to a program of this kind if the request related the worlds,
and to one that does not fail otherwise. -/
theorem ErrorsKeep.ask {request : Request} {next : Answer request → Program Request Answer ε α}
    (trans : ∀ {start middle finish}, related start middle → related middle finish →
      related start finish)
    (drifts : ∀ {start finish}, Relation.ReflTransGen environment.drifts start finish →
      related start finish)
    (served : ∀ {before answer after}, environment.serves before request answer after →
      related before after ∧ ErrorsKeep environment related (next answer) ∨
        NeverRaises (next answer)) :
    ErrorsKeep environment related (.ask request next) := by
  intro start error finish execution
  obtain ⟨before, answer, after, drifted, serving, rest⟩ := execution.of_ask
  rcases served serving with ⟨kept, errors⟩ | never
  · exact trans (trans (drifts drifted) kept) (errors rest)
  · exact absurd rest never.not_error

theorem ErrorsKeep.bind {program : Program Request Answer ε α}
    {next : α → Program Request Answer ε β}
    (trans : ∀ {start middle finish}, related start middle → related middle finish →
      related start finish)
    (first : ∀ {start result finish}, Executes environment start program result finish →
      related start finish)
    (rest : ∀ value, ErrorsKeep environment related (next value)) :
    ErrorsKeep environment related (program >>= next) := by
  intro start error finish execution
  rcases Executes.of_bind execution with ⟨_, -, raised⟩ | ⟨value, middle, begun, ended⟩
  · exact first raised
  · exact trans (first begun) (rest value ended)

end Errors

/-! ## Triples -/

/-- The drift of the world preserves the assertion. -/
def Environment.Stable (environment : Environment σ Request Answer) (assertion : σ → Prop) :
    Prop :=
  ∀ ⦃world later⦄, assertion world → environment.drifts world later → assertion later

/-- Every execution that starts in `before` ends in `after`. -/
def Ensures (environment : Environment σ Request Answer) (before : σ → Prop)
    (program : Program Request Answer ε α) (after : Except ε α → σ → Prop) : Prop :=
  ∀ ⦃start result finish⦄, before start →
    Executes environment start program result finish → after result finish

section Rules

variable {environment : Environment σ Request Answer} {before : σ → Prop}

theorem Ensures.done {result : Except ε α} {after : Except ε α → σ → Prop}
    (stable : environment.Stable before)
    (established : ∀ {world}, before world → after result world) :
    Ensures environment before (.done result) after := by
  intro start result' finish holds execution
  generalize whole : (Program.done result : Program Request Answer ε α) = program at execution
  induction execution with
  | done =>
      cases whole
      exact established holds
  | drift drifted _ induction => exact induction (stable holds drifted) whole
  | ask => cases whole

theorem Ensures.ask {request : Request}
    {next : Answer request → Program Request Answer ε α} {after : Except ε α → σ → Prop}
    (middle : Answer request → σ → Prop) (stable : environment.Stable before)
    (step : ∀ {world answer later}, before world →
      environment.serves world request answer later → middle answer later)
    (rest : ∀ answer, Ensures environment (middle answer) (next answer) after) :
    Ensures environment before (.ask request next) after := by
  intro start result finish holds execution
  generalize whole : Program.ask request next = program at execution
  induction execution with
  | done => cases whole
  | drift drifted _ induction => exact induction (stable holds drifted) whole
  | ask served following =>
      cases whole
      exact rest _ (step holds served) following

theorem Ensures.perform {request : Request} {next : Answer request → Program Request Answer ε α}
    {after : Except ε α → σ → Prop} (middle : Answer request → σ → Prop)
    (stable : environment.Stable before)
    (step : ∀ {world answer later}, before world →
      environment.serves world request answer later → middle answer later)
    (rest : ∀ answer, Ensures environment (middle answer) (next answer) after) :
    Ensures environment before (Program.perform request >>= next) after :=
  Ensures.ask middle stable step rest

theorem Ensures.last {request : Request} {after : Except ε (Answer request) → σ → Prop}
    (middle : Answer request → σ → Prop) (stable : environment.Stable before)
    (step : ∀ {world answer later}, before world →
      environment.serves world request answer later → middle answer later)
    (settled : ∀ answer, environment.Stable (middle answer))
    (established : ∀ {answer world}, middle answer world → after (.ok answer) world) :
    Ensures environment before (Program.perform request) after :=
  Ensures.ask middle stable step fun answer => Ensures.done (settled answer) established

theorem Ensures.bind {program : Program Request Answer ε α}
    {next : α → Program Request Answer ε β} {after : Except ε β → σ → Prop}
    (middle : Except ε α → σ → Prop) (first : Ensures environment before program middle)
    (rest : ∀ value, Ensures environment (middle (.ok value)) (next value) after)
    (failed : ∀ {error world}, middle (.error error) world → after (.error error) world) :
    Ensures environment before (program >>= next) after := by
  intro start result finish holds execution
  rcases Executes.of_bind execution with ⟨error, rfl, raised⟩ | ⟨value, world, begun, ended⟩
  · exact failed (first holds raised)
  · exact rest value (first holds begun) ended

theorem Ensures.weaken {program : Program Request Answer ε α} {stronger : σ → Prop}
    {after weaker : Except ε α → σ → Prop}
    (ensured : Ensures environment before program after)
    (strengthen : ∀ {world}, stronger world → before world)
    (relax : ∀ {result world}, after result world → weaker result world) :
    Ensures environment stronger program weaker :=
  fun _ _ _ holds execution => relax (ensured (strengthen holds) execution)

theorem Ensures.assume {program : Program Request Answer ε α} {fact : Prop}
    {after : Except ε α → σ → Prop}
    (ensured : fact → Ensures environment before program after) :
    Ensures environment (fun world => fact ∧ before world) program after :=
  fun _ _ _ holds execution => ensured holds.1 holds.2 execution

end Rules

/-! ## Worlds that are functions -/

/-- Run a program on a world with one answer to each request. -/
def play (serve : σ → (request : Request) → Answer request × σ) :
    σ → Program Request Answer ε α → Except ε α × σ
  | world, .done result => (result, world)
  | world, .ask request next =>
      play serve (serve world request).2 (next (serve world request).1)

section Play

variable {serve : σ → (request : Request) → Answer request × σ}

theorem play_bind (world : σ) (program : Program Request Answer ε α)
    (next : α → Program Request Answer ε β) :
    play serve world (program >>= next) =
      match play serve world program with
      | (.ok value, middle) => play serve middle (next value)
      | (.error error, middle) => (.error error, middle) := by
  induction program generalizing world with
  | done result => cases result <;> rfl
  | ask request rest induction => exact induction _ _

@[simp] theorem play_pure (world : σ) (value : α) :
    play serve world (pure value : Program Request Answer ε α) = (.ok value, world) := rfl

@[simp] theorem play_raise (world : σ) (error : ε) :
    play serve world (raise error : Program Request Answer ε α) = (.error error, world) := rfl

@[simp] theorem play_perform (world : σ) (request : Request)
    (next : Answer request → Program Request Answer ε α) :
    play serve world (perform request >>= next) =
      play serve (serve world request).2 (next (serve world request).1) := rfl

/-- Worlds that answer alike run programs alike. -/
theorem play_congr {related : σ → σ → Prop}
    (step : ∀ {world other} request, related world other →
      (serve world request).1 = (serve other request).1 ∧
        related (serve world request).2 (serve other request).2)
    {world other : σ} (same : related world other) (program : Program Request Answer ε α) :
    (play serve world program).1 = (play serve other program).1 ∧
      related (play serve world program).2 (play serve other program).2 := by
  induction program generalizing world other with
  | done result => exact ⟨rfl, same⟩
  | ask request next induction =>
      obtain ⟨sameAnswer, stillSame⟩ := step request same
      unfold play
      rw [← sameAnswer]
      exact induction _ stillSame

/-- Every request of the run passes the check. -/
def Meets (check : σ → Request → Prop)
    (serve : σ → (request : Request) → Answer request × σ) :
    σ → Program Request Answer ε α → Prop
  | _, .done _ => True
  | world, .ask request next =>
      check world request ∧
        Meets check serve (serve world request).2 (next (serve world request).1)

instance Meets.decidable {check : σ → Request → Prop}
    [∀ world request, Decidable (check world request)] :
    (world : σ) → (program : Program Request Answer ε α) →
      Decidable (Meets check serve world program)
  | _, .done _ => .isTrue trivial
  | world, .ask request next =>
      have : Decidable
          (Meets check serve (serve world request).2 (next (serve world request).1)) :=
        Meets.decidable _ _
      inferInstanceAs (Decidable (check world request ∧ _))

theorem Meets.of_forall {check : σ → Request → Prop} (all : ∀ world request, check world request)
    {world : σ} {program : Program Request Answer ε α} : Meets check serve world program := by
  induction program generalizing world with
  | done result => trivial
  | ask request next induction => exact ⟨all world request, induction _⟩

/-- A run whose requests the environment can answer in this way is an
execution. -/
theorem Executes.of_meets {environment : Environment σ Request Answer}
    {check : σ → Request → Prop}
    (sound : ∀ {world request}, check world request →
      environment.serves world request (serve world request).1 (serve world request).2)
    {world : σ} {program : Program Request Answer ε α}
    (passed : Meets check serve world program) :
    Executes environment world program (play serve world program).1
      (play serve world program).2 := by
  induction program generalizing world with
  | done result => exact .done
  | ask request next induction => exact .ask (sound passed.1) (induction _ passed.2)

end Play

end Program

end FuseDrive
