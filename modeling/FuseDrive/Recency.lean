import FuseDrive.Dict
import Mathlib.Algebra.BigOperators.Group.List.Basic
import Mathlib.Algebra.Ring.Nat

/-!
# Lists by recency

A cache that forgets what was used longest ago keeps its entries in the order
of their last use, the oldest first.  `trim` drops oldest entries until the
rest fits; it leaves the longest suffix that does.
-/

namespace FuseDrive.Recency

/-- The suffix that fits and that no longer suffix that fits. -/
structure LongestSuffix {α : Type} (fits : List α → Prop) (list suffix : List α) : Prop where
  isSuffix : suffix <:+ list
  isFitting : fits suffix
  longest : ∀ other, other <:+ list → fits other → other.length ≤ suffix.length

section Trim

variable {α : Type} (fits : List α → Prop) [DecidablePred fits]

/-- Drop the oldest entries until the rest fits. -/
def trim : List α → List α
  | [] => []
  | oldest :: rest => if fits (oldest :: rest) then oldest :: rest else trim rest

theorem trim_of_fits {list : List α} (isFitting : fits list) : trim fits list = list := by
  cases list with
  | nil => rfl
  | cons oldest rest => exact if_pos isFitting

theorem trim_of_not_fits {oldest : α} {rest : List α} (exceeding : ¬ fits (oldest :: rest)) :
    trim fits (oldest :: rest) = trim fits rest :=
  if_neg exceeding

/-- Trimming leaves the longest suffix that fits. -/
theorem longestSuffix_trim (nothing : fits []) (list : List α) :
    LongestSuffix fits list (trim fits list) := by
  induction list with
  | nil =>
      constructor
      · exact List.suffix_refl []
      · exact nothing
      · intro other isSuffix _
        exact isSuffix.length_le
  | cons oldest rest induction =>
      by_cases isFitting : fits (oldest :: rest)
      · rw [trim_of_fits fits isFitting]
        constructor
        · exact List.suffix_refl _
        · exact isFitting
        · intro other isSuffix _
          exact isSuffix.length_le
      · rw [trim_of_not_fits fits isFitting]
        constructor
        · exact induction.isSuffix.trans (List.suffix_cons oldest rest)
        · exact induction.isFitting
        · intro other isSuffix otherFits
          obtain whole | proper := List.suffix_cons_iff.mp isSuffix
          · exact absurd (whole ▸ otherFits) isFitting
          · exact induction.longest other proper otherFits

end Trim

section Pairs

variable {κ ν : Type} [DecidableEq κ]

/-- The list without the entry of a key. -/
def without (key : κ) (list : List (κ × ν)) : List (κ × ν) :=
  list.filter fun entry => entry.1 ≠ key

/-- The key becomes the most recently used one. -/
def use (key : κ) (value : ν) (list : List (κ × ν)) : List (κ × ν) :=
  without key list ++ [(key, value)]

theorem without_of_absent {key : κ} {list : List (κ × ν)}
    (absent : ∀ entry ∈ list, entry.1 ≠ key) : without key list = list := by
  apply List.filter_eq_self.mpr
  intro entry member
  exact decide_eq_true (absent entry member)

/-- The sizes of all values. -/
def total (size : ν → Nat) (list : List (κ × ν)) : Nat :=
  (list.map fun entry => size entry.2).sum

omit [DecidableEq κ] in
theorem total_cons (size : ν → Nat) (entry : κ × ν) (list : List (κ × ν)) :
    total size (entry :: list) = size entry.2 + total size list := by
  rw [total, List.map_cons, List.sum_cons, total]

omit [DecidableEq κ] in
theorem total_append (size : ν → Nat) (list later : List (κ × ν)) :
    total size (list ++ later) = total size list + total size later := by
  rw [total, List.map_append, List.sum_append, total, total]

theorem total_without (size : ν → Nat) {key : κ} {value : ν} {list : List (κ × ν)}
    (nodup : (list.map Prod.fst).Nodup) (member : (key, value) ∈ list) :
    total size (without key list) + size value = total size list := by
  induction list with
  | nil => cases member
  | cons entry rest induction =>
      rw [List.map_cons, List.nodup_cons] at nodup
      obtain ⟨fresh, nodup⟩ := nodup
      rw [total_cons]
      obtain rfl | later := List.mem_cons.mp member
      · have rest_without : without key rest = rest := by
          apply without_of_absent
          intro other present same
          have occurs : other.1 ∈ rest.map Prod.fst := List.mem_map_of_mem present
          exact fresh (same ▸ occurs)
        rw [without, List.filter_cons_of_neg (by simp), ← without, rest_without]
        exact Nat.add_comm _ _
      · have different : entry.1 ≠ key := by
          intro same
          have occurs : key ∈ rest.map Prod.fst := List.mem_map_of_mem later
          exact fresh (same ▸ occurs)
        rw [without, List.filter_cons_of_pos (by simpa using different), ← without,
          total_cons, Nat.add_assoc, induction nodup later]

theorem length_without {key : κ} {value : ν} {list : List (κ × ν)}
    (nodup : (list.map Prod.fst).Nodup) (member : (key, value) ∈ list) :
    (without key list).length + 1 = list.length := by
  have count (entries : List (κ × ν)) : total (fun _ => 1) entries = entries.length := by
    rw [total, List.map_const', List.sum_replicate_nat, Nat.mul_one]
  have removed := total_without (fun _ => 1) nodup member
  rwa [count, count] at removed

/-- At most so many entries of at most that size together. -/
def Within (size : ν → Nat) (maxEntries maxTotal : Nat) (list : List (κ × ν)) : Prop :=
  list.length ≤ maxEntries ∧ total size list ≤ maxTotal

instance (size : ν → Nat) (maxEntries maxTotal : Nat) :
    DecidablePred (@Within κ ν size maxEntries maxTotal) :=
  fun _ => inferInstanceAs (Decidable (_ ∧ _))

omit [DecidableEq κ] in
theorem not_within {size : ν → Nat} {maxEntries maxTotal : Nat} {list : List (κ × ν)} :
    ¬ Within size maxEntries maxTotal list ↔
      maxEntries < list.length ∨ maxTotal < total size list := by
  rw [Within, not_and_or, not_le, not_le]

end Pairs

/-! ## Dictionaries by recency -/

section Dictionaries

variable {κ ν : Type}

/-- The entries of a dictionary that lists the most recently used first, from
the least to the most recently used one. -/
def order (dict : Dict κ ν) : List (κ × ν) :=
  (dict.entries.map fun entry => (entry.1, entry.2)).reverse

theorem length_order (dict : Dict κ ν) : (order dict).length = dict.entries.length := by
  rw [order, List.length_reverse, List.length_map]

theorem order_eq_nil {dict : Dict κ ν} (empty : dict.entries = []) : order dict = [] := by
  rw [order, empty]
  rfl

/-- The last entry of the dictionary is the oldest one. -/
theorem order_eq_cons {dict : Dict κ ν} {key : κ} {value : ν}
    (last : dict.entries.getLast? = some ⟨key, value⟩) :
    order dict = (key, value) ::
      (dict.entries.dropLast.map fun entry => (entry.1, entry.2)).reverse := by
  rw [order]
  nth_rewrite 1 [← List.dropLast_append_getLast? _ last]
  rw [List.map_append, List.reverse_append]
  rfl

theorem nodup_order (dict : Dict κ ν) : ((order dict).map Prod.fst).Nodup := by
  have keys : (order dict).map Prod.fst = dict.keys.reverse := by
    rw [order, List.map_reverse, List.map_map]
    rfl
  rw [keys, List.nodup_reverse]
  exact dict.keys_nodup

variable [DecidableEq κ]

theorem mem_order {dict : Dict κ ν} {key : κ} {value : ν} :
    (key, value) ∈ order dict ↔ dict.lookup key = some value := by
  rw [order, List.mem_reverse, List.mem_map, ← Option.mem_def, AList.mem_lookup_iff]
  constructor
  · rintro ⟨⟨other, found⟩, member, same⟩
    obtain ⟨rfl, rfl⟩ := Prod.mk.inj same
    exact member
  · intro member
    exact ⟨⟨key, value⟩, member, rfl⟩

theorem kerase_eq_filter {key : κ} {entries : List (Sigma fun _ : κ => ν)}
    (nodup : entries.NodupKeys) :
    entries.kerase key = entries.filter fun entry => entry.1 ≠ key := by
  induction entries with
  | nil => rfl
  | cons entry rest induction =>
      obtain ⟨fresh, nodup⟩ := List.nodupKeys_cons.mp nodup
      by_cases same : key = entry.1
      · subst same
        rw [List.kerase_cons_eq rfl, List.filter_cons_of_neg (by simp)]
        refine (List.filter_eq_self.mpr ?_).symm
        intro other member
        refine decide_eq_true fun equal => fresh ?_
        exact equal ▸ List.mem_keys_of_mem member
      · rw [List.kerase_cons_ne same, List.filter_cons_of_pos (by simpa using Ne.symm same),
          induction nodup]

theorem order_erase (dict : Dict κ ν) (key : κ) :
    order (dict.erase key) = without key (order dict) := by
  have entries : (dict.erase key).entries = dict.entries.filter fun entry => entry.1 ≠ key :=
    kerase_eq_filter dict.nodupKeys
  rw [order, entries, without, order, List.filter_reverse, List.filter_map]
  rfl

theorem order_insert (dict : Dict κ ν) (key : κ) (value : ν) :
    order (dict.insert key value) = use key value (order dict) := by
  rw [use, ← order_erase, order, AList.entries_insert, List.map_cons, List.reverse_cons]
  rfl

end Dictionaries

end FuseDrive.Recency
