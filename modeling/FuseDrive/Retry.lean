/-!
# Calls that are retried

A call is repeated while it fails with errors that a predicate takes for
transient, up to a bound.  The predicate can fail itself, and then its own
error ends the call.
-/

namespace FuseDrive.Retry

variable {ε ρ α : Type}

/-- How a retried call ends. -/
inductive Ending (ε ρ α : Type) where
  | returned (value : α)
  | reraised (error : ε)
  /-- Every attempt failed with a transient error. -/
  | exhausted
  | predicateRaised (raised : ρ)

/-- The attempts from the given one on, with so many more allowed after it. -/
def attempts (retryable : ε → Except ρ Bool) (outcomes : Nat → Except ε α) :
    (further attempt : Nat) → Ending ε ρ α
  | further, attempt =>
      match outcomes attempt with
      | .ok value => .returned value
      | .error error =>
          match retryable error with
          | .error raised => .predicateRaised raised
          | .ok false => .reraised error
          | .ok true =>
              match further with
              | 0 => .exhausted
              | further + 1 => attempts retryable outcomes further (attempt + 1)

/-- The call is attempted `1 + further` times at most. -/
def retrying (retryable : ε → Except ρ Bool) (further : Nat) (outcomes : Nat → Except ε α) :
    Ending ε ρ α :=
  attempts retryable outcomes further 0

/-- The attempt fails with a transient error. -/
def Transient (retryable : ε → Except ρ Bool) (outcome : Except ε α) : Prop :=
  ∃ error, outcome = .error error ∧ retryable error = .ok true

/-- The attempt succeeds, or fails with an error that is not retried. -/
def Final (retryable : ε → Except ρ Bool) (outcome : Except ε α) : Prop :=
  ∀ error, outcome = .error error → retryable error = .ok false

/-- One of the attempts, of which those before are retried, is final. -/
def Settles (retryable : ε → Except ρ Bool) (outcomes : Nat → Except ε α)
    (further attempt : Nat) : Prop :=
  ∃ deciding ≤ further, (∀ earlier < deciding,
    Transient retryable (outcomes (attempt + earlier))) ∧
      Final retryable (outcomes (attempt + deciding))

/-- The call ends with its own value or error. -/
def Ending.IsOutcome : Ending ε ρ α → Prop
  | .returned _ => True
  | .reraised _ => True
  | .exhausted => False
  | .predicateRaised _ => False

variable {retryable : ε → Except ρ Bool} {outcomes : Nat → Except ε α}

theorem Settles.of_final {further attempt : Nat} (final : Final retryable (outcomes attempt)) :
    Settles retryable outcomes further attempt := by
  refine ⟨0, Nat.zero_le further, ?_, final⟩
  intro earlier less
  exact absurd less (Nat.not_lt_zero earlier)

/-- The predicate fails on the error of the attempt. -/
def Unjudged (retryable : ε → Except ρ Bool) (outcome : Except ε α) : Prop :=
  ∃ error raised, outcome = .error error ∧ retryable error = .error raised

theorem judged (retryable : ε → Except ρ Bool) (outcome : Except ε α) :
    Final retryable outcome ∨ Transient retryable outcome ∨ Unjudged retryable outcome := by
  cases outcome with
  | ok value => exact Or.inl nofun
  | error error =>
      match verdict : retryable error with
      | .ok false =>
          refine Or.inl fun other same => ?_
          cases same
          exact verdict
      | .ok true => exact Or.inr (Or.inl ⟨error, rfl, verdict⟩)
      | .error raised => exact Or.inr (Or.inr ⟨error, raised, rfl, verdict⟩)

theorem Transient.not_final {outcome : Except ε α} (transient : Transient retryable outcome) :
    ¬ Final retryable outcome := by
  intro final
  obtain ⟨error, failed, verdict⟩ := transient
  rw [final error failed] at verdict
  cases verdict

theorem Unjudged.not_final {outcome : Except ε α} (unjudged : Unjudged retryable outcome) :
    ¬ Final retryable outcome := by
  intro final
  obtain ⟨error, raised, failed, verdict⟩ := unjudged
  rw [final error failed] at verdict
  cases verdict

theorem Unjudged.not_transient {outcome : Except ε α} (unjudged : Unjudged retryable outcome) :
    ¬ Transient retryable outcome := by
  rintro ⟨error, failed, isTransient⟩
  obtain ⟨other, raised, same, verdict⟩ := unjudged
  rw [failed] at same
  cases same
  rw [isTransient] at verdict
  cases verdict

/-! ## One attempt -/

theorem attempts_of_final {further attempt : Nat} (final : Final retryable (outcomes attempt)) :
    (attempts retryable outcomes further attempt).IsOutcome := by
  unfold attempts
  split
  · trivial
  · rename_i error failed
    rw [final error failed]
    trivial

theorem attempts_of_unjudged {further attempt : Nat}
    (unjudged : Unjudged retryable (outcomes attempt)) :
    ¬ (attempts retryable outcomes further attempt).IsOutcome := by
  obtain ⟨error, raised, failed, verdict⟩ := unjudged
  unfold attempts
  rw [failed]
  dsimp only
  rw [verdict]
  exact id

theorem attempts_last {attempt : Nat} (transient : Transient retryable (outcomes attempt)) :
    attempts retryable outcomes 0 attempt = .exhausted := by
  obtain ⟨error, failed, verdict⟩ := transient
  unfold attempts
  rw [failed]
  dsimp only
  rw [verdict]

theorem attempts_succ {further attempt : Nat}
    (transient : Transient retryable (outcomes attempt)) :
    attempts retryable outcomes (further + 1) attempt =
      attempts retryable outcomes further (attempt + 1) := by
  obtain ⟨error, failed, verdict⟩ := transient
  rw [attempts, failed]
  dsimp only
  rw [verdict]

/-! ## All attempts -/

theorem not_settles {further attempt : Nat} (notFinal : ¬ Final retryable (outcomes attempt))
    (stops : ¬ Transient retryable (outcomes attempt) ∨ further = 0) :
    ¬ Settles retryable outcomes further attempt := by
  rintro ⟨deciding, bounded, retried, final⟩
  cases deciding with
  | zero => exact notFinal final
  | succ deciding =>
      obtain notTransient | last := stops
      · exact notTransient (retried 0 (Nat.zero_lt_succ deciding))
      · omega

/-- After a retried attempt the next ones decide. -/
theorem settles_succ {further attempt : Nat} (transient : Transient retryable (outcomes attempt))
    (notFinal : ¬ Final retryable (outcomes attempt)) :
    Settles retryable outcomes (further + 1) attempt ↔
      Settles retryable outcomes further (attempt + 1) := by
  constructor
  · rintro ⟨deciding, bounded, retried, final⟩
    cases deciding with
    | zero => exact absurd final notFinal
    | succ deciding =>
        refine ⟨deciding, Nat.le_of_succ_le_succ bounded, ?_, ?_⟩
        · intro earlier less
          rw [Nat.add_assoc, Nat.add_comm 1 earlier]
          exact retried (earlier + 1) (Nat.succ_lt_succ less)
        · rw [Nat.add_assoc, Nat.add_comm 1 deciding]
          exact final
  · rintro ⟨deciding, bounded, retried, final⟩
    refine ⟨deciding + 1, Nat.succ_le_succ bounded, ?_, ?_⟩
    · intro earlier less
      cases earlier with
      | zero => exact transient
      | succ earlier =>
          have later := retried earlier (Nat.lt_of_succ_lt_succ less)
          rwa [Nat.add_assoc, Nat.add_comm 1 earlier] at later
    · rwa [Nat.add_assoc, Nat.add_comm 1 deciding] at final

/-- The attempts end with an outcome of the call exactly if one settles it. -/
theorem attempts_isOutcome_iff (further attempt : Nat) :
    (attempts retryable outcomes further attempt).IsOutcome ↔
      Settles retryable outcomes further attempt := by
  induction further generalizing attempt with
  | zero =>
      obtain final | transient | unjudged := judged retryable (outcomes attempt)
      · exact iff_of_true (attempts_of_final final) (Settles.of_final final)
      · refine iff_of_false ?_ (not_settles transient.not_final (Or.inr rfl))
        rw [attempts_last transient]
        exact id
      · exact iff_of_false (attempts_of_unjudged unjudged)
          (not_settles unjudged.not_final (Or.inr rfl))
  | succ further induction =>
      obtain final | transient | unjudged := judged retryable (outcomes attempt)
      · exact iff_of_true (attempts_of_final final) (Settles.of_final final)
      · rw [attempts_succ transient, settles_succ transient transient.not_final]
        exact induction (attempt + 1)
      · exact iff_of_false (attempts_of_unjudged unjudged)
          (not_settles unjudged.not_final (Or.inl unjudged.not_transient))

/-- The value of the first attempt that succeeds. -/
def firstReturned (outcomes : Nat → Except ε α) : (further attempt : Nat) → Option α
  | further, attempt =>
      match outcomes attempt with
      | .ok value => some value
      | .error _ =>
          match further with
          | 0 => none
          | further + 1 => firstReturned outcomes further (attempt + 1)

theorem exists_of_firstReturned {further attempt : Nat} {value : α}
    (isFirst : firstReturned outcomes further attempt = some value) :
    ∃ later, outcomes later = .ok value := by
  induction further generalizing attempt with
  | zero =>
      unfold firstReturned at isFirst
      cases answered : outcomes attempt with
      | ok found =>
          rw [answered] at isFirst
          cases isFirst
          exact ⟨attempt, answered⟩
      | error error =>
          rw [answered] at isFirst
          cases isFirst
  | succ further induction =>
      unfold firstReturned at isFirst
      cases answered : outcomes attempt with
      | ok found =>
          rw [answered] at isFirst
          cases isFirst
          exact ⟨attempt, answered⟩
      | error error =>
          rw [answered] at isFirst
          exact induction isFirst

/-- Where every error is retried, the first success ends the call. -/
theorem attempts_of_always (always : ∀ error, retryable error = .ok true)
    (further attempt : Nat) :
    attempts retryable outcomes further attempt =
      match firstReturned outcomes further attempt with
      | some value => .returned value
      | none => .exhausted := by
  induction further generalizing attempt with
  | zero =>
      unfold attempts firstReturned
      cases outcomes attempt with
      | ok value => rfl
      | error error =>
          dsimp only
          rw [always error]
  | succ further induction =>
      unfold attempts firstReturned
      cases outcomes attempt with
      | ok value => rfl
      | error error =>
          dsimp only
          rw [always error]
          exact induction (attempt + 1)

theorem judged_of_attempts {further attempt : Nat} {raised : ρ}
    (ending : attempts retryable outcomes further attempt = .predicateRaised raised) :
    ∃ error, retryable error = .error raised := by
  induction further generalizing attempt with
  | zero =>
      unfold attempts at ending
      split at ending
      · cases ending
      · rename_i error _
        split at ending
        · rename_i verdict
          cases ending
          exact ⟨error, verdict⟩
        · cases ending
        · cases ending
  | succ further induction =>
      unfold attempts at ending
      split at ending
      · cases ending
      · rename_i error _
        split at ending
        · rename_i verdict
          cases ending
          exact ⟨error, verdict⟩
        · cases ending
        · exact induction ending

theorem judged_of_raised {further : Nat} {raised : ρ}
    (ending : retrying retryable further outcomes = .predicateRaised raised) :
    ∃ error, retryable error = .error raised :=
  judged_of_attempts ending

end FuseDrive.Retry
