import Mathlib.Logic.Relation

/-!
# Labelled transition systems

A system is a partial step function on labels.  `Reaches step allowed` is
reachability by steps whose label is allowed in the state it is taken from:
with `allowed` everywhere true it is plain reachability, otherwise it singles
out the runs that respect a discipline.

`Reaches.invariant` packages the induction over runs once; the systems of the
development only ever prove what a single step preserves.
-/

namespace FuseDrive.Transition

variable {σ ℓ : Type}

/-- One step whose label is allowed in the state it starts from. -/
def Next (step : σ → ℓ → Option σ) (allowed : σ → ℓ → Prop)
    (before after : σ) : Prop :=
  ∃ label, allowed before label ∧ step before label = some after

/-- Reachability by allowed steps. -/
abbrev Reaches (step : σ → ℓ → Option σ) (allowed : σ → ℓ → Prop) :
    σ → σ → Prop :=
  Relation.ReflTransGen (Next step allowed)

/-- A predicate that every allowed step preserves holds at the end of every
run that starts in it. -/
theorem Reaches.invariant
    {step : σ → ℓ → Option σ} {allowed : σ → ℓ → Prop} {invariant : σ → Prop}
    (preserved : ∀ {before label after}, invariant before →
      allowed before label → step before label = some after → invariant after)
    {start finish : σ} (reached : Reaches step allowed start finish)
    (initial : invariant start) : invariant finish := by
  induction reached with
  | refl => exact initial
  | tail _ last induction =>
      obtain ⟨label, isAllowed, stepped⟩ := last
      exact preserved induction isAllowed stepped

/-- A weaker discipline allows the same runs. -/
theorem Reaches.mono
    {step : σ → ℓ → Option σ} {allowed weaker : σ → ℓ → Prop}
    (weaken : ∀ state label, allowed state label → weaker state label)
    {start finish : σ} (reached : Reaches step allowed start finish) :
    Reaches step weaker start finish := by
  refine Relation.ReflTransGen.mono ?_ _ _ reached
  rintro before after ⟨label, isAllowed, stepped⟩
  exact ⟨label, weaken before label isAllowed, stepped⟩

/-- Runs of a system are runs of another, as far as `view` sees them, if under
an invariant every step is one of the other system or is not seen at all. -/
theorem Reaches.viewed {τ κ : Type}
    {step : σ → ℓ → Option σ} {seen : τ → κ → Option τ} {allowed : σ → ℓ → Prop}
    {permitted : τ → κ → Prop} (view : σ → τ) {invariant : σ → Prop}
    (preserved : ∀ {before label after}, invariant before →
      allowed before label → step before label = some after → invariant after)
    (matched : ∀ {before label after}, invariant before →
      allowed before label → step before label = some after →
        view after = view before ∨ Next seen permitted (view before) (view after))
    {start finish : σ} (initial : invariant start)
    (reached : Reaches step allowed start finish) :
    invariant finish ∧ Reaches seen permitted (view start) (view finish) := by
  induction reached with
  | refl => exact ⟨initial, .refl⟩
  | tail _ last induction =>
      obtain ⟨label, isAllowed, stepped⟩ := last
      obtain ⟨holds, sofar⟩ := induction
      constructor
      · exact preserved holds isAllowed stepped
      · rcases matched holds isAllowed stepped with same | following
        · rw [same]
          exact sofar
        · exact sofar.tail following

/-- Execute a list of labels, failing at the first one that is not enabled. -/
def run (step : σ → ℓ → Option σ) : σ → List ℓ → Option σ
  | state, [] => some state
  | state, label :: labels => (step state label).bind (run step · labels)

theorem run_append (step : σ → ℓ → Option σ) (start : σ) (labels later : List ℓ) :
    run step start (labels ++ later) = (run step start labels).bind (run step · later) := by
  induction labels generalizing start with
  | nil => rfl
  | cons label labels induction =>
      rw [List.cons_append, run, run, Option.bind_assoc]
      exact Option.bind_congr fun next _ => induction next

theorem run_append_eq_some {step : σ → ℓ → Option σ} {start finish : σ}
    {labels later : List ℓ} :
    run step start (labels ++ later) = some finish ↔
      ∃ middle, run step start labels = some middle ∧ run step middle later = some finish := by
  rw [run_append, Option.bind_eq_some_iff]

theorem look_of_run {outcome : Option σ} {finish : σ} (executed : outcome = some finish)
    {α : Type} (look : σ → α) {value : α} (computed : outcome.map look = some value) :
    look finish = value := by
  rw [executed] at computed
  exact Option.some.inj computed

/-- Every label of the list is allowed in the state where it is executed. -/
def AllowedAlong (step : σ → ℓ → Option σ) (allowed : σ → ℓ → Prop) :
    σ → List ℓ → Prop
  | _, [] => True
  | state, label :: labels =>
      allowed state label ∧
        ∀ next, step state label = some next → AllowedAlong step allowed next labels

/-- A discipline that no state can break holds along every list of labels. -/
theorem AllowedAlong.of_forall
    {step : σ → ℓ → Option σ} {allowed : σ → ℓ → Prop} {labels : List ℓ} {start : σ}
    (always : ∀ label ∈ labels, ∀ state, allowed state label) :
    AllowedAlong step allowed start labels := by
  induction labels generalizing start with
  | nil => trivial
  | cons label labels induction =>
      exact ⟨always label List.mem_cons_self start, fun next _ =>
        induction fun other member => always other (List.mem_cons_of_mem label member)⟩

theorem AllowedAlong.of_invariant
    {step : σ → ℓ → Option σ} {allowed : σ → ℓ → Prop} (invariant : σ → Prop)
    {labels : List ℓ} {start : σ} (initial : invariant start)
    (always : ∀ label ∈ labels, ∀ state, invariant state → allowed state label ∧
      ∀ next, step state label = some next → invariant next) :
    AllowedAlong step allowed start labels := by
  induction labels generalizing start with
  | nil => trivial
  | cons label labels induction =>
      obtain ⟨isAllowed, preserved⟩ := always label List.mem_cons_self start initial
      exact ⟨isAllowed, fun next stepped => induction (preserved next stepped)
        fun other member => always other (List.mem_cons_of_mem label member)⟩

theorem AllowedAlong.append
    {step : σ → ℓ → Option σ} {allowed : σ → ℓ → Prop} {labels later : List ℓ}
    {start : σ} (first : AllowedAlong step allowed start labels)
    (second : ∀ middle, run step start labels = some middle →
      AllowedAlong step allowed middle later) :
    AllowedAlong step allowed start (labels ++ later) := by
  induction labels generalizing start with
  | nil => exact second start rfl
  | cons label labels induction =>
      refine ⟨first.1, fun next stepped => induction (first.2 next stepped) ?_⟩
      intro middle executed
      refine second middle ?_
      simp only [run, Option.bind_eq_some_iff]
      exact ⟨next, stepped, executed⟩

theorem Reaches.of_run
    {step : σ → ℓ → Option σ} {allowed : σ → ℓ → Prop} {labels : List ℓ}
    {start finish : σ} (along : AllowedAlong step allowed start labels)
    (executed : run step start labels = some finish) :
    Reaches step allowed start finish := by
  induction labels generalizing start with
  | nil =>
      simp only [run, Option.some.injEq] at executed
      subst executed
      exact .refl
  | cons label labels induction =>
      simp only [run, Option.bind_eq_some_iff] at executed
      obtain ⟨next, stepped, rest⟩ := executed
      exact .head ⟨label, along.1, stepped⟩ (induction (along.2 next stepped) rest)

theorem Reaches.of_free_run
    {step : σ → ℓ → Option σ} {labels : List ℓ} {start finish : σ}
    (executed : run step start labels = some finish) :
    Reaches step (fun _ _ => True) start finish := by
  induction labels generalizing start with
  | nil =>
      simp only [run, Option.some.injEq] at executed
      subst executed
      exact .refl
  | cons label labels induction =>
      simp only [run, Option.bind_eq_some_iff] at executed
      obtain ⟨next, stepped, rest⟩ := executed
      exact .head ⟨label, trivial, stepped⟩ (induction rest)

/-- Execute a list of labels, failing also at the first one that is not
allowed. -/
def runAllowed (step : σ → ℓ → Option σ) (allowed : σ → ℓ → Prop)
    [∀ state label, Decidable (allowed state label)] : σ → List ℓ → Option σ
  | state, [] => some state
  | state, label :: labels =>
      if allowed state label then
        (step state label).bind (runAllowed step allowed · labels)
      else none

theorem Reaches.of_runAllowed
    {step : σ → ℓ → Option σ} {allowed : σ → ℓ → Prop}
    [∀ state label, Decidable (allowed state label)] {labels : List ℓ} {start finish : σ}
    (executed : runAllowed step allowed start labels = some finish) :
    Reaches step allowed start finish := by
  induction labels generalizing start with
  | nil =>
      simp only [runAllowed, Option.some.injEq] at executed
      subst executed
      exact .refl
  | cons label labels induction =>
      unfold runAllowed at executed
      split at executed
      · rename_i isAllowed
        simp only [Option.bind_eq_some_iff] at executed
        obtain ⟨next, stepped, rest⟩ := executed
        exact .head ⟨label, isAllowed, stepped⟩ (induction rest)
      · cases executed

/-- The labels of such an execution are allowed, and it is one without the
discipline too. -/
theorem run_of_runAllowed
    {step : σ → ℓ → Option σ} {allowed : σ → ℓ → Prop}
    [∀ state label, Decidable (allowed state label)] {labels : List ℓ} {start finish : σ}
    (executed : runAllowed step allowed start labels = some finish) :
    AllowedAlong step allowed start labels ∧ run step start labels = some finish := by
  induction labels generalizing start with
  | nil => exact ⟨trivial, executed⟩
  | cons label labels induction =>
      unfold runAllowed at executed
      split at executed
      · rename_i isAllowed
        obtain ⟨next, stepped, rest⟩ := Option.bind_eq_some_iff.mp executed
        obtain ⟨along, ran⟩ := induction rest
        refine ⟨⟨isAllowed, fun other isOther => ?_⟩, ?_⟩
        · rw [stepped, Option.some.injEq] at isOther
          exact isOther ▸ along
        · rw [run, stepped]
          exact ran
      · cases executed

end FuseDrive.Transition
