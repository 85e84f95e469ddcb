import Mathlib.Data.Fintype.Card
import Mathlib.Data.Set.Finite.Basic
import Mathlib.Logic.Relation

/-!
# Relations without cycles

A waits-for relation grows by the edges of one party at a time.  The edges out
of a party close no cycle when the party cannot be reached from where they
lead, and the edges into a party close none when no edge leads out of it.
-/

namespace FuseDrive

variable {τ : Type}

/-- No party reaches itself. -/
def Acyclic (edge : τ → τ → Prop) : Prop :=
  ∀ party, ¬ Relation.TransGen edge party party

namespace Acyclic

variable {edge wider : τ → τ → Prop}

theorem mono (acyclic : Acyclic wider) (narrower : ∀ party other, edge party other →
    wider party other) : Acyclic edge :=
  fun party cycle => acyclic party (Relation.TransGen.mono narrower party party cycle)

/-- New edges out of one party, to parties that do not reach it. -/
theorem insert_source (acyclic : Acyclic edge) (source : τ) (target : τ → Prop)
    (inserted : ∀ party other, wider party other →
      edge party other ∨ (party = source ∧ target other))
    (apart : ∀ other, target other → ¬ Relation.ReflTransGen edge other source) :
    Acyclic wider := by
  let Beyond := fun other => ∃ first, target first ∧ Relation.ReflTransGen edge first other
  -- no new edge leads out of what lies beyond the new edges
  have old : ∀ {party other}, Beyond party → wider party other → edge party other := by
    rintro party other ⟨first, isTarget, reaches⟩ step
    rcases inserted party other step with before | ⟨rfl, _⟩
    · exact before
    · exact absurd reaches (apart first isTarget)
  have closed : ∀ {party other}, Beyond party → wider party other → Beyond other := by
    intro party other beyond step
    have before := old beyond step
    obtain ⟨first, isTarget, reaches⟩ := beyond
    exact ⟨first, isTarget, reaches.tail before⟩
  have inside : ∀ {party other}, Beyond party → Relation.TransGen wider party other →
      Relation.TransGen edge party other ∧ Beyond other := by
    intro party other beyond path
    induction path with
    | single step => exact ⟨.single (old beyond step), closed beyond step⟩
    | tail _ step induction =>
        exact ⟨induction.1.tail (old induction.2 step), closed induction.2 step⟩
  have either : ∀ {party other}, Relation.TransGen wider party other →
      Relation.TransGen edge party other ∨ Beyond other := by
    intro party other path
    induction path with
    | single step =>
        rcases inserted _ _ step with before | ⟨_, isTarget⟩
        · exact .inl (.single before)
        · exact .inr ⟨_, isTarget, .refl⟩
    | tail _ step induction =>
        rcases induction with path | beyond
        · rcases inserted _ _ step with before | ⟨_, isTarget⟩
          · exact .inl (path.tail before)
          · exact .inr ⟨_, isTarget, .refl⟩
        · exact .inr (closed beyond step)
  intro party cycle
  rcases either cycle with path | beyond
  · exact acyclic party path
  · exact acyclic party (inside beyond cycle).1

/-- New edges into one party, from which no edge leads on. -/
theorem insert_sink (acyclic : Acyclic edge) (sink : τ)
    (inserted : ∀ party other, wider party other → edge party other ∨ other = sink)
    (final : ∀ other, ¬ wider sink other) : Acyclic wider := by
  have either : ∀ {party other}, Relation.TransGen wider party other →
      Relation.TransGen edge party other ∨ other = sink := by
    intro party other path
    induction path with
    | single step => exact (inserted _ _ step).imp .single id
    | tail _ step induction =>
        rcases induction with path | rfl
        · exact (inserted _ _ step).imp path.tail id
        · exact absurd step (final _)
  intro party cycle
  rcases either cycle with path | rfl
  · exact acyclic party path
  · obtain ⟨other, step, _⟩ := (Relation.TransGen.head'_iff).mp cycle
    exact final other step

/-- In a finite non-empty set some party has no edge into the set. -/
theorem exists_terminal (acyclic : Acyclic edge) {members : Set τ} (finite : members.Finite)
    (nonempty : members.Nonempty) : ∃ party ∈ members, ∀ other ∈ members, ¬ edge party other := by
  have : Finite members := finite
  let reaches : members → members → Prop := fun party other =>
    Relation.TransGen edge other.1 party.1
  have : IsTrans members reaches := ⟨fun _ _ _ first second => second.trans first⟩
  have : Std.Irrefl reaches := ⟨fun party => acyclic party.1⟩
  have wellFounded : WellFounded reaches := Finite.wellFounded_of_trans_of_irrefl reaches
  obtain ⟨first, isFirst⟩ := nonempty
  by_contra continues
  push Not at continues
  have none : ∀ party : members, False := by
    intro party
    induction party using wellFounded.induction with
    | _ party induction =>
        obtain ⟨other, member, step⟩ := continues party.1 party.2
        exact induction ⟨other, member⟩ (.single step)
  exact none ⟨first, isFirst⟩

end Acyclic

end FuseDrive
