import FuseDrive.Retry
import Mathlib.Logic.Function.Iterate

/-!
# Requests whose answers get lost

A request that is repeated may reach its receiver although the caller is told
that it failed: then it is carried out, and the repetition finds what it left
behind.  While all such errors are retried, the first answer that comes back
ends the call, and the requests that arrived before it have had their effect.
-/

namespace FuseDrive.Retry

/-- What happens to one attempt on its way. -/
inductive Transit (ε : Type) where
  /-- It does not arrive, and the caller sees the error. -/
  | undelivered (error : ε)
  /-- It is carried out, and the caller sees the error. -/
  | unanswered (error : ε)
  | answered

namespace Transit

variable {ε : Type}

def arrives : Transit ε → Bool
  | .undelivered _ => false
  | .unanswered _ | .answered => true

/-- What the caller sees instead of an answer. -/
def error? : Transit ε → Option ε
  | .undelivered error | .unanswered error => some error
  | .answered => none

/-- How many of the first attempts arrive. -/
def arrivals (transits : Nat → Transit ε) : Nat → Nat
  | 0 => 0
  | attempt + 1 => arrivals transits attempt + if (transits attempt).arrives then 1 else 0

/-- The first attempt that is answered, with so many more allowed after the
given one. -/
def firstAnswered (transits : Nat → Transit ε) : (further attempt : Nat) → Option Nat
  | further, attempt =>
      match (transits attempt).error? with
      | none => some attempt
      | some _ =>
          match further with
          | 0 => none
          | further + 1 => firstAnswered transits further (attempt + 1)

theorem error_firstAnswered {transits : Nat → Transit ε} {further attempt first : Nat}
    (isFirst : firstAnswered transits further attempt = some first) :
    (transits first).error? = none := by
  induction further generalizing attempt with
  | zero =>
      unfold firstAnswered at isFirst
      split at isFirst
      · cases isFirst
        assumption
      · cases isFirst
  | succ further induction =>
      unfold firstAnswered at isFirst
      split at isFirst
      · cases isFirst
        assumption
      · exact induction isFirst

/-- The attempt that is answered arrives after those that arrived before it. -/
theorem arrivals_firstAnswered {transits : Nat → Transit ε} {further attempt first : Nat}
    (isFirst : firstAnswered transits further attempt = some first) :
    arrivals transits (first + 1) = arrivals transits first + 1 := by
  have answered := error_firstAnswered isFirst
  have isArrived : (transits first).arrives = true := by
    revert answered
    cases transits first with
    | answered => exact fun _ => rfl
    | undelivered | unanswered => exact nofun
  rw [arrivals, if_pos isArrived]

/-- What is seen instead of an answer is retried. -/
def Transient {ρ : Type} (retryable : ε → Except ρ Bool) (transits : Nat → Transit ε) : Prop :=
  ∀ attempt error, (transits attempt).error? = some error → retryable error = .ok true

end Transit

/-- A receiver, and what happens to the attempts of a call. -/
structure Exchange (σ ε α : Type) where
  serve : σ → Except ε α × σ
  transits : Nat → Transit ε

variable {ε ρ α : Type}

/-- How many attempts are made, the given one being the next. -/
def made (retryable : ε → Except ρ Bool) (outcomes : Nat → Except ε α) :
    (further attempt : Nat) → Nat
  | further, attempt =>
      match outcomes attempt with
      | .ok _ => attempt + 1
      | .error error =>
          match retryable error with
          | .error _ | .ok false => attempt + 1
          | .ok true =>
              match further with
              | 0 => attempt + 1
              | further + 1 => made retryable outcomes further (attempt + 1)

/-- How a call ends with the outcome of an attempt. -/
def Ending.of : Except ε α → Ending ε ρ α
  | .ok value => .returned value
  | .error error => .reraised error

theorem made_of_final {retryable : ε → Except ρ Bool} {outcomes : Nat → Except ε α}
    {attempt : Nat} (further : Nat) (final : Final retryable (outcomes attempt)) :
    attempts retryable outcomes further attempt = .of (outcomes attempt) ∧
      made retryable outcomes further attempt = attempt + 1 := by
  unfold attempts made
  cases outcome : outcomes attempt with
  | ok value => exact ⟨rfl, rfl⟩
  | error error =>
      dsimp only
      rw [final error outcome]
      exact ⟨rfl, rfl⟩

theorem made_last {retryable : ε → Except ρ Bool} {outcomes : Nat → Except ε α} {attempt : Nat}
    (transient : Transient retryable (outcomes attempt)) :
    made retryable outcomes 0 attempt = attempt + 1 := by
  obtain ⟨error, failed, verdict⟩ := transient
  unfold made
  rw [failed]
  dsimp only
  rw [verdict]

theorem made_succ {retryable : ε → Except ρ Bool} {outcomes : Nat → Except ε α}
    {further attempt : Nat} (transient : Transient retryable (outcomes attempt)) :
    made retryable outcomes (further + 1) attempt =
      made retryable outcomes further (attempt + 1) := by
  obtain ⟨error, failed, verdict⟩ := transient
  rw [made, failed]
  dsimp only
  rw [verdict]

namespace Exchange

variable {σ : Type} (exchange : Exchange σ ε α) (start : σ)

/-- What a request does to the receiver. -/
def effect (state : σ) : σ :=
  (exchange.serve state).2

/-- The receiver before an attempt. -/
def stateBefore : Nat → σ
  | 0 => start
  | attempt + 1 =>
      if (exchange.transits attempt).arrives then exchange.effect (stateBefore attempt)
      else stateBefore attempt

/-- What the caller sees of an attempt. -/
def outcome (attempt : Nat) : Except ε α :=
  match (exchange.transits attempt).error? with
  | some error => .error error
  | none => (exchange.serve (exchange.stateBefore start attempt)).1

/-- The receiver after the call. -/
def after (retryable : ε → Except ρ Bool) (further : Nat) : σ :=
  exchange.stateBefore start (made retryable (exchange.outcome start) further 0)

/-- Requests have their effect as often as they arrive. -/
theorem stateBefore_eq (attempt : Nat) :
    exchange.stateBefore start attempt =
      exchange.effect^[Transit.arrivals exchange.transits attempt] start := by
  induction attempt with
  | zero => rfl
  | succ attempt induction =>
      rw [stateBefore, Transit.arrivals]
      split
      · rw [Function.iterate_succ_apply', induction]
      · exact induction

variable {exchange start} {retryable : ε → Except ρ Bool}

theorem outcome_of_answered {attempt : Nat}
    (answered : (exchange.transits attempt).error? = none) :
    exchange.outcome start attempt =
      (exchange.serve (exchange.stateBefore start attempt)).1 := by
  rw [outcome, answered]

theorem transient_of_lost (transient : Transit.Transient retryable exchange.transits)
    {attempt : Nat} {error : ε} (lost : (exchange.transits attempt).error? = some error) :
    Transient retryable (exchange.outcome start attempt) :=
  ⟨error, by rw [outcome, lost], transient attempt error lost⟩

/-- How the call ends, and after how many attempts. -/
def told (exchange : Exchange σ ε α) (start : σ) (further : Nat) (answered : Option Nat) :
    Ending ε ρ α × Nat :=
  match answered with
  | some first => (.of (exchange.serve (exchange.stateBefore start first)).1, first + 1)
  | none => (.exhausted, further + 1)

theorem ended (final : ∀ state, Final retryable (exchange.serve state).1)
    {further attempt limit : Nat} (answered : (exchange.transits attempt).error? = none) :
    (attempts retryable (exchange.outcome start) further attempt,
        made retryable (exchange.outcome start) further attempt) =
      exchange.told start limit (some attempt) := by
  have isFinal : Final retryable (exchange.outcome start attempt) := by
    rw [outcome_of_answered answered]
    exact final _
  obtain ⟨ending, count⟩ := made_of_final further isFinal
  rw [ending, count, outcome_of_answered answered]
  rfl

/-- The first answer ends the call.  Without one the attempts are used up. -/
theorem attempts_eq (start : σ) (transient : Transit.Transient retryable exchange.transits)
    (final : ∀ state, Final retryable (exchange.serve state).1) (further attempt : Nat) :
    (attempts retryable (exchange.outcome start) further attempt,
        made retryable (exchange.outcome start) further attempt) =
      exchange.told start (attempt + further)
        (Transit.firstAnswered exchange.transits further attempt) := by
  induction further generalizing attempt with
  | zero =>
      unfold Transit.firstAnswered
      cases lost : (exchange.transits attempt).error? with
      | none => exact ended final lost
      | some error =>
          have retried : Transient retryable (exchange.outcome start attempt) :=
            transient_of_lost transient lost
          rw [attempts_last retried, made_last retried]
          rfl
  | succ further induction =>
      unfold Transit.firstAnswered
      cases lost : (exchange.transits attempt).error? with
      | none => exact ended final lost
      | some error =>
          have retried : Transient retryable (exchange.outcome start attempt) :=
            transient_of_lost transient lost
          rw [attempts_succ retried, made_succ retried, induction, Nat.add_right_comm attempt 1,
            Nat.add_assoc attempt further 1]

end Exchange

end FuseDrive.Retry
