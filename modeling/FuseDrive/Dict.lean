import Mathlib.Algebra.BigOperators.Group.List.Basic
import Mathlib.Algebra.Ring.Nat
import Mathlib.Data.List.AList

/-!
# Finite dictionaries and strings

A Python dictionary is an association list without duplicate keys, and a
Python string is the list of its characters.  The two lookup equations below
state an update at every key at once.
-/

namespace FuseDrive

/-- A string, as the list of its characters. -/
abbrev Str := List Char

instance Str.lawfulBEq : LawfulBEq Str := inferInstance

/-- A finite dictionary. -/
abbrev Dict (κ ν : Type) := AList (fun _ : κ => ν)

namespace Dict

variable {κ ν : Type} [DecidableEq κ]

theorem lookup_insert_eq (dict : Dict κ ν) (key other : κ) (value : ν) :
    (dict.insert key value).lookup other =
      if other = key then some value else dict.lookup other := by
  by_cases same : other = key
  · subst other
    rw [if_pos rfl, AList.lookup_insert]
  · rw [if_neg same, AList.lookup_insert_ne same]

theorem lookup_erase_eq (dict : Dict κ ν) (key other : κ) :
    (dict.erase key).lookup other =
      if other = key then none else dict.lookup other := by
  by_cases same : other = key
  · subst other
    rw [if_pos rfl, AList.lookup_erase]
  · rw [if_neg same, AList.lookup_erase_ne same]

theorem eq_empty_of_lookup {dict : Dict κ ν} (absent : ∀ key, dict.lookup key = none) :
    dict = ∅ := by
  apply AList.ext
  rw [AList.empty_entries, List.eq_nil_iff_forall_not_mem]
  intro entry member
  have present : dict.lookup entry.1 = some entry.2 := AList.mem_lookup_iff.mpr member
  rw [absent entry.1] at present
  cases present

theorem keys_insert_perm {dict : Dict κ ν} {key : κ} {value : ν}
    (present : dict.lookup key = some value) (other : ν) :
    (dict.insert key other).keys.Perm dict.keys := by
  have member : key ∈ dict.keys := AList.mem_keys.mp (AList.lookup_isSome.mp (present ▸ rfl))
  rw [AList.keys_insert]
  exact (List.perm_cons_erase member).symm

theorem keys_insert_of_absent {dict : Dict κ ν} {key : κ} (absent : dict.lookup key = none)
    (value : ν) : (dict.insert key value).keys = key :: dict.keys := by
  have missing : key ∉ dict.keys := AList.lookup_eq_none.mp absent
  rw [AList.keys_insert, List.erase_of_not_mem missing]

theorem keys_erase_perm {dict : Dict κ ν} {key : κ} {rest : List κ}
    (split : dict.keys.Perm (key :: rest)) : (dict.erase key).keys.Perm rest := by
  have left := split.erase key
  rwa [List.erase_cons_head, ← AList.keys_erase] at left

/-- The values, one for each key. -/
def values (dict : Dict κ ν) : List ν :=
  dict.entries.map Sigma.snd

theorem values_insert (dict : Dict κ ν) (key : κ) (value : ν) :
    values (dict.insert key value) = value :: values (dict.erase key) := by
  rw [values, AList.entries_insert, List.map_cons]
  rfl

theorem values_perm_erase (dict : Dict κ ν) (key : κ) :
    (values dict).Perm ((dict.lookup key).toList ++ values (dict.erase key)) := by
  obtain ⟨entries, distinct⟩ := dict
  change (entries.map Sigma.snd).Perm
    ((entries.dlookup key).toList ++ (entries.kerase key).map Sigma.snd)
  clear distinct
  induction entries with
  | nil => exact List.Perm.refl _
  | cons entry entries induction =>
      obtain ⟨head, value⟩ := entry
      by_cases same : key = head
      · subst same
        simp only [List.kerase_cons_eq, List.dlookup_cons_eq]
        exact List.Perm.refl _
      · rw [List.kerase_cons_ne same, List.dlookup_cons_ne _ _ same]
        exact (induction.cons value).trans List.perm_middle.symm

theorem values_insert_perm (dict : Dict κ ν) (key : κ) (value : ν) :
    (value :: values dict).Perm (values (dict.insert key value) ++ (dict.lookup key).toList) := by
  rw [values_insert, List.cons_append]
  exact ((values_perm_erase dict key).trans List.perm_append_comm).cons value

theorem values_insert_of_absent {dict : Dict κ ν} {key : κ} (absent : dict.lookup key = none)
    (value : ν) : (value :: values dict).Perm (values (dict.insert key value)) := by
  have split := values_insert_perm dict key value
  rwa [absent, Option.toList_none, List.append_nil] at split

theorem values_erase_perm {dict : Dict κ ν} {key : κ} {value : ν}
    (present : dict.lookup key = some value) :
    (values dict).Perm (value :: values (dict.erase key)) := by
  have split := values_perm_erase dict key
  rwa [present, Option.toList_some, List.singleton_append] at split

/-- The sum of a weight over the values. -/
def total (dict : Dict κ ν) (weight : ν → Nat) : Nat :=
  (dict.entries.map fun entry => weight entry.2).sum

theorem total_erase (dict : Dict κ ν) (weight : ν → Nat) (key : κ) :
    total (dict.erase key) weight + (dict.lookup key).elim 0 weight = total dict weight := by
  have split := ((values_perm_erase dict key).map weight).sum_eq
  rw [List.map_append, List.sum_append, values, values, List.map_map, List.map_map] at split
  change total dict weight = _ + total (dict.erase key) weight at split
  rw [split, Nat.add_comm]
  cases dict.lookup key <;> rfl

theorem total_insert (dict : Dict κ ν) (weight : ν → Nat) (key : κ) (value : ν) :
    total (dict.insert key value) weight + (dict.lookup key).elim 0 weight =
      total dict weight + weight value := by
  have erased := total_erase dict weight key
  have inserted : total (dict.insert key value) weight =
      weight value + total (dict.erase key) weight := by
    rw [total, total, AList.entries_insert, List.map_cons, List.sum_cons]
    rfl
  omega

end Dict

end FuseDrive
