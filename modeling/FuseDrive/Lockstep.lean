import Mathlib.Data.Option.Basic

/-!
# Machines in lockstep

A machine answers calls one after the other, and a call that is not for it
leaves it alone.  Two machines are in lockstep if from related states they give
the same answer to every call and are related again.  Then no sequence of calls
tells them apart.
-/

namespace FuseDrive

variable {σ τ κ α : Type}

/-- The answer to one call, if it is for the machine, and the state after it. -/
def answer (step : σ → κ → Option (α × σ)) (state : σ) (call : κ) : Option α × σ :=
  match step state call with
  | some (given, next) => (some given, next)
  | none => (none, state)

/-- The answers to a sequence of calls. -/
def answers (step : σ → κ → Option (α × σ)) : σ → List κ → List (Option α)
  | _, [] => []
  | state, call :: calls =>
      (answer step state call).1 :: answers step (answer step state call).2 calls

/-- The state after a sequence of calls. -/
def after (step : σ → κ → Option (α × σ)) : σ → List κ → σ
  | state, [] => state
  | state, call :: calls => after step (answer step state call).2 calls

/-- Every call is allowed in the state in which it is made. -/
def Along (step : σ → κ → Option (α × σ)) (allowed : σ → κ → Prop) : σ → List κ → Prop
  | _, [] => True
  | state, call :: calls => allowed state call ∧ Along step allowed (answer step state call).2 calls

instance decidableAlong (step : σ → κ → Option (α × σ)) (allowed : σ → κ → Prop)
    [∀ state call, Decidable (allowed state call)] :
    (state : σ) → (calls : List κ) → Decidable (Along step allowed state calls)
  | _, [] => .isTrue trivial
  | state, call :: calls =>
      have := decidableAlong step allowed (answer step state call).2 calls
      inferInstanceAs (Decidable (_ ∧ _))

/-- What the calls of a sequence leave behind, each in the state in which it is
made. -/
def gathered {β : Type} (step : σ → κ → Option (α × σ)) (leaves : σ → κ → List β) :
    σ → List κ → List β
  | _, [] => []
  | state, call :: calls =>
      (if (step state call).isSome then leaves state call else []) ++
        gathered step leaves (answer step state call).2 calls

theorem Along.invariant_gathered {β : Type} {step : σ → κ → Option (α × σ)}
    {allowed : σ → κ → Prop} {leaves : σ → κ → List β} {holds : σ → List β → Prop}
    (preserved : ∀ {state call given next left}, holds state left → allowed state call →
      step state call = some (given, next) → holds next (left ++ leaves state call))
    {state : σ} {calls : List κ} (along : Along step allowed state calls) {left : List β}
    (initial : holds state left) :
    holds (after step state calls) (left ++ gathered step leaves state calls) := by
  induction calls generalizing state left with
  | nil =>
      rw [gathered, List.append_nil]
      exact initial
  | cons call calls induction =>
      obtain ⟨isAllowed, rest⟩ := along
      rw [gathered, ← List.append_assoc]
      refine induction rest ?_
      unfold answer
      cases taken : step state call with
      | none => exact (List.append_nil left).symm ▸ initial
      | some result => exact preserved initial isAllowed taken

/-- The machines answer alike from related states, and stay related. -/
def Lockstep (first : σ → κ → Option (α × σ)) (second : τ → κ → Option (α × τ))
    (allowed : σ → κ → Prop) (related : σ → τ → Prop) : Prop :=
  ∀ {left : σ} {right : τ} {call : κ}, related left right → allowed left call →
    Option.Rel (fun one other => one.1 = other.1 ∧ related one.2 other.2)
      (first left call) (second right call)

namespace Lockstep

variable {first : σ → κ → Option (α × σ)} {second : τ → κ → Option (α × τ)}
  {allowed : σ → κ → Prop} {related : σ → τ → Prop}

theorem answer_eq (lockstep : Lockstep first second allowed related) {left : σ} {right : τ}
    {call : κ} (isRelated : related left right) (isAllowed : allowed left call) :
    (answer first left call).1 = (answer second right call).1 ∧
      related (answer first left call).2 (answer second right call).2 := by
  have agree := lockstep isRelated isAllowed
  unfold answer
  generalize first left call = one, second right call = other at agree ⊢
  cases agree with
  | none => exact ⟨rfl, isRelated⟩
  | some same => exact ⟨congrArg some same.1, same.2⟩

/-- The machines give the same answers to every sequence of calls. -/
theorem answers_eq (lockstep : Lockstep first second allowed related) {left : σ} {right : τ}
    {calls : List κ} (isRelated : related left right) (along : Along first allowed left calls) :
    answers first left calls = answers second right calls ∧
      related (after first left calls) (after second right calls) := by
  induction calls generalizing left right with
  | nil => exact ⟨rfl, isRelated⟩
  | cons call calls induction =>
      obtain ⟨isAllowed, rest⟩ := along
      obtain ⟨same, stillRelated⟩ := lockstep.answer_eq isRelated isAllowed
      obtain ⟨others, last⟩ := induction stillRelated rest
      exact ⟨congrArg₂ List.cons same others, last⟩

end Lockstep

end FuseDrive
