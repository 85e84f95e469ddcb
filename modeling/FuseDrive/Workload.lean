import FuseDrive.Transition
import Mathlib.Algebra.BigOperators.Group.List.Basic
import Mathlib.Algebra.Ring.Nat
import Mathlib.Logic.Basic

/-!
# Bounded work

Some steps of a system are work: they bring it closer to its end.  `Worked`
counts them along a run.  A measure that every step of work lowers and no
other step raises bounds their number, and leads to a state in which no work
is left.
-/

namespace FuseDrive.Transition

variable {σ ℓ : Type}

/-- A run by allowed steps with the number of those that are work. -/
inductive Worked (step : σ → ℓ → Option σ) (allowed : σ → ℓ → Prop) (work : ℓ → Prop)
    (start : σ) : Nat → σ → Prop where
  | refl : Worked step allowed work start 0 start
  | work {count : Nat} {middle finish : σ} {label : ℓ}
      (sofar : Worked step allowed work start count middle)
      (isAllowed : allowed middle label) (works : work label)
      (stepped : step middle label = some finish) :
      Worked step allowed work start (count + 1) finish
  | aside {count : Nat} {middle finish : σ} {label : ℓ}
      (sofar : Worked step allowed work start count middle)
      (isAllowed : allowed middle label) (idle : ¬ work label)
      (stepped : step middle label = some finish) :
      Worked step allowed work start count finish

/-- No step of work is left. -/
def Settled (step : σ → ℓ → Option σ) (allowed : σ → ℓ → Prop) (work : ℓ → Prop)
    (state : σ) : Prop :=
  ∀ label, allowed state label → work label → step state label = none

section Worked

variable {step : σ → ℓ → Option σ} {allowed : σ → ℓ → Prop} {work : ℓ → Prop}
  {start finish : σ} {count : Nat}

theorem Worked.reaches (worked : Worked step allowed work start count finish) :
    Reaches step allowed start finish := by
  induction worked with
  | refl => exact .refl
  | work sofar isAllowed works stepped induction => exact induction.tail ⟨_, isAllowed, stepped⟩
  | aside sofar isAllowed idle stepped induction => exact induction.tail ⟨_, isAllowed, stepped⟩

/-- Every run is a run with some number of steps of work. -/
theorem Worked.of_reaches (reached : Reaches step allowed start finish) :
    ∃ count, Worked step allowed work start count finish := by
  induction reached with
  | refl => exact ⟨0, .refl⟩
  | tail _ last induction =>
      obtain ⟨count, sofar⟩ := induction
      obtain ⟨label, isAllowed, stepped⟩ := last
      by_cases works : work label
      · exact ⟨count + 1, sofar.work isAllowed works stepped⟩
      · exact ⟨count, sofar.aside isAllowed works stepped⟩

/-- What a step of work and every other step keep, with the number of the
former, holds along a run. -/
theorem Worked.invariant {account : Nat → σ → Prop}
    (worked : Worked step allowed work start count finish) (initial : account 0 start)
    (works : ∀ {count before label after}, account count before → allowed before label →
      work label → step before label = some after → account (count + 1) after)
    (aside : ∀ {count before label after}, account count before → allowed before label →
      ¬ work label → step before label = some after → account count after) :
    account count finish := by
  induction worked with
  | refl => exact initial
  | work sofar isAllowed isWork stepped induction =>
      exact works induction isAllowed isWork stepped
  | aside sofar isAllowed idle stepped induction =>
      exact aside induction isAllowed idle stepped

/-- A measure that work lowers and nothing raises bounds the work of a run. -/
theorem Worked.bounded {measured : σ → Nat → Prop} {total : Nat}
    (worked : Worked step allowed work start count finish) (initial : measured start total)
    (works : ∀ {before label after total}, measured before total → allowed before label →
      work label → step before label = some after → ∃ less, less < total ∧ measured after less)
    (aside : ∀ {before label after total}, measured before total → allowed before label →
      ¬ work label → step before label = some after → ∃ less, less ≤ total ∧ measured after less) :
    ∃ rest, rest + count ≤ total ∧ measured finish rest := by
  have accounted : (fun count state => ∃ rest, rest + count ≤ total ∧ measured state rest)
      count finish := by
    apply worked.invariant
    · exact ⟨total, Nat.le_refl total, initial⟩
    · rintro count before label after ⟨rest, within, isRest⟩ isAllowed isWork stepped
      obtain ⟨less, lower, isLess⟩ := works isRest isAllowed isWork stepped
      exact ⟨less, by omega, isLess⟩
    · rintro count before label after ⟨rest, within, isRest⟩ isAllowed idle stepped
      obtain ⟨less, lower, isLess⟩ := aside isRest isAllowed idle stepped
      exact ⟨less, by omega, isLess⟩
  exact accounted

end Worked

theorem sum_map_set {α : Type} (weight : α → Nat) {items : List α} {index : Nat}
    {before : α} (after : α) (present : items[index]? = some before) :
    ((items.set index after).map weight).sum + weight before =
      (items.map weight).sum + weight after := by
  induction items generalizing index with
  | nil => cases present
  | cons head tail induction =>
      cases index with
      | zero =>
          cases present
          simp only [List.set_cons_zero, List.map_cons, List.sum_cons]
          omega
      | succ index =>
          have rest := induction present
          simp only [List.set_cons_succ, List.map_cons, List.sum_cons]
          omega

end FuseDrive.Transition
