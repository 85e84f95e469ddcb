import Mathlib.Algebra.BigOperators.Group.Finset.Basic
import Mathlib.Algebra.Order.BigOperators.Group.Finset
import Mathlib.Data.Set.Card

/-!
# Tallies over finitely many parties

A counter that every party contributes to is the sum of the contributions.
Only finitely many parties contribute, but there is no bound on who they are:
the support is part of the statement and grows as parties join in.
-/

namespace FuseDrive

variable {τ : Type}

/-- The contributions are zero outside a finite set and add up to `total`. -/
def Tally (share : τ → Nat) (total : Nat) : Prop :=
  ∃ support : Finset τ, (∀ party, party ∉ support → share party = 0) ∧
    ∑ party ∈ support, share party = total

namespace Tally

theorem zero : Tally (fun _ : τ => 0) 0 :=
  ⟨∅, fun _ _ => rfl, Finset.sum_empty⟩

theorem congr {share other : τ → Nat} {total : Nat} (tally : Tally share total)
    (same : ∀ party, other party = share party) : Tally other total := by
  rwa [show other = share from funext same]

theorem eq_zero {share : τ → Nat} {total : Nat} (tally : Tally share total)
    (nothing : ∀ party, share party = 0) : total = 0 := by
  obtain ⟨support, _, sum⟩ := tally
  rw [← sum]
  exact Finset.sum_eq_zero fun party _ => nothing party

theorem le {share : τ → Nat} {total : Nat} (tally : Tally share total) (party : τ) :
    share party ≤ total := by
  obtain ⟨support, outside, rfl⟩ := tally
  by_cases member : party ∈ support
  · exact Finset.single_le_sum (fun other _ => Nat.zero_le (share other)) member
  · rw [outside party member]
    exact Nat.zero_le _

theorem exists_pos {share : τ → Nat} {total : Nat} (tally : Tally share total)
    (positive : 0 < total) : ∃ party, 0 < share party := by
  obtain ⟨support, _, rfl⟩ := tally
  obtain ⟨party, _, isPositive⟩ := Finset.exists_ne_zero_of_sum_ne_zero positive.ne'
  exact ⟨party, Nat.pos_of_ne_zero isPositive⟩

theorem of_le {share other : τ → Nat} {total : Nat} (tally : Tally share total)
    (less : ∀ party, other party ≤ share party) : ∃ lower, lower ≤ total ∧ Tally other lower := by
  obtain ⟨support, outside, rfl⟩ := tally
  refine ⟨∑ party ∈ support, other party, Finset.sum_le_sum fun party _ => less party, support,
    fun party absent => ?_, rfl⟩
  have most := less party
  rw [outside party absent] at most
  exact Nat.le_zero.mp most

/-- Where nobody contributes more than once, the total is how many contribute. -/
theorem encard {share : τ → Nat} {total : Nat} (tally : Tally share total)
    (once : ∀ party, share party ≤ 1) : {party | 0 < share party}.encard = total := by
  obtain ⟨support, outside, rfl⟩ := tally
  have members : {party | 0 < share party} =
      (support.filter fun party => 0 < share party : Set τ) := by
    ext party
    simp only [Set.mem_ofPred_eq, Finset.coe_filter]
    refine ⟨fun positive => ⟨?_, positive⟩, And.right⟩
    by_contra absent
    rw [outside party absent] at positive
    exact Nat.lt_irrefl 0 positive
  rw [members, Set.encard_coe_eq_coe_finsetCard, Finset.card_filter]
  refine congrArg _ (Finset.sum_congr rfl fun party _ => ?_)
  have atMost := once party
  split <;> omega

variable [DecidableEq τ]

theorem pair_le {share : τ → Nat} {total : Nat} (tally : Tally share total) {party other : τ}
    (distinct : party ≠ other) : share party + share other ≤ total := by
  obtain ⟨support, outside, rfl⟩ := tally
  have widened :
      ∑ member ∈ support, share member = ∑ member ∈ support ∪ {party, other}, share member := by
    apply Finset.sum_subset Finset.subset_union_left
    intro member _ absent
    exact outside member absent
  rw [widened, ← Finset.sum_pair distinct]
  exact Finset.sum_le_sum_of_subset Finset.subset_union_right

theorem change {share after : τ → Nat} {total changed : Nat} (tally : Tally share total)
    (party : τ) (others : ∀ other, other ≠ party → after other = share other)
    (balance : total + after party = changed + share party) : Tally after changed := by
  obtain ⟨support, outside, sum⟩ := tally
  refine ⟨insert party support, ?_, ?_⟩
  · intro other absent
    rw [Finset.mem_insert, not_or] at absent
    rw [others other absent.1, outside other absent.2]
  · have before : ∑ member ∈ support.erase party, share member + share party = total := by
      by_cases member : party ∈ support
      · rw [Finset.sum_erase_add _ _ member, sum]
      · rw [Finset.erase_eq_of_notMem member, outside party member, sum]
        rfl
    have rest : ∑ member ∈ support.erase party, after member =
        ∑ member ∈ support.erase party, share member :=
      Finset.sum_congr rfl fun member present => others member (Finset.ne_of_mem_erase present)
    have split : ∑ member ∈ insert party support, after member =
        after party + ∑ member ∈ support.erase party, after member := by
      rw [← Finset.sum_insert (Finset.notMem_erase party support)]
      congr 1
      grind
    omega

end Tally

end FuseDrive
