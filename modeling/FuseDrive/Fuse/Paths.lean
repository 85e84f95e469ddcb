import FuseDrive.Dict
import Mathlib.Data.List.TakeWhile

/-!
# Paths

The functions of `os.path` that the operations use, and the absolute paths the
kernel hands over: the root, and below a directory one name that is not empty
and has no slash.
-/

namespace FuseDrive.Fuse

/-- `os.path.basename(path)`. -/
def basename (path : Str) : Str :=
  (path.reverse.takeWhile (· ≠ '/')).reverse

/-- `os.path.dirname(path)`. -/
def dirname (path : Str) : Str :=
  let head := (path.reverse.dropWhile (· ≠ '/')).reverse
  if head.all (· = '/') then head else (head.reverse.dropWhile (· = '/')).reverse

/-- `os.path.join(parent, name)`. -/
def join (parent name : Str) : Str :=
  if name.head? = some '/' then name
  else if parent = [] ∨ parent.getLast? = some '/' then parent ++ name
  else parent ++ '/' :: name

theorem slash_notMem_basename (path : Str) : '/' ∉ basename path := by
  unfold basename
  intro member
  have taken := List.mem_takeWhile_imp (List.mem_reverse.mp member)
  simp at taken

/-- One component of a path. -/
def ProperName (name : Str) : Prop := name ≠ [] ∧ '/' ∉ name

instance (name : Str) : Decidable (ProperName name) := inferInstanceAs (Decidable (_ ∧ _))

/-- An absolute path without empty components. -/
inductive IsPath : Str → Prop where
  | root : IsPath ['/']
  | child {parent name : Str} : IsPath parent → ProperName name → IsPath (join parent name)

theorem ProperName.head_ne {name : Str} (proper : ProperName name) :
    name.head? ≠ some '/' := by
  intro starts
  exact proper.2 (List.mem_of_mem_head? starts)

theorem ProperName.takeWhile_reverse_append {name rest : Str} (proper : ProperName name) :
    (name.reverse ++ '/' :: rest).takeWhile (· ≠ '/') = name.reverse := by
  rw [List.takeWhile_append_of_pos fun character member => by
    simp only [decide_eq_true_eq]
    exact fun same => proper.2 (same ▸ List.mem_reverse.mp member)]
  simp

theorem ProperName.dropWhile_reverse_append {name rest : Str} (proper : ProperName name) :
    (name.reverse ++ '/' :: rest).dropWhile (· ≠ '/') = '/' :: rest := by
  rw [List.dropWhile_append_of_pos fun character member => by
    simp only [decide_eq_true_eq]
    exact fun same => proper.2 (same ▸ List.mem_reverse.mp member)]
  simp

/-- A directory other than the root ends in a character that is no slash. -/
def EndsInName (path : Str) : Prop := ∃ start last, path = start ++ [last] ∧ last ≠ '/'

theorem join_root {name : Str} (proper : ProperName name) : join ['/'] name = '/' :: name := by
  unfold join
  rw [if_neg proper.head_ne]
  rfl

theorem EndsInName.join {path name : Str} (ends : EndsInName path) (proper : ProperName name) :
    join path name = path ++ '/' :: name := by
  obtain ⟨start, last, rfl, noSlash⟩ := ends
  unfold Fuse.join
  rw [if_neg proper.head_ne, if_neg]
  simpa using noSlash

theorem EndsInName.append {start name : Str} (proper : ProperName name) :
    EndsInName (start ++ name) := by
  obtain ⟨front, last, rfl⟩ : ∃ front last, name = front ++ [last] :=
    ⟨name.dropLast, name.getLast proper.1, (List.dropLast_append_getLast proper.1).symm⟩
  refine ⟨start ++ front, last, (List.append_assoc _ _ _).symm, ?_⟩
  rintro rfl
  exact proper.2 (List.mem_append_right front List.mem_cons_self)

theorem IsPath.root_or_endsInName {path : Str} (isPath : IsPath path) :
    path = ['/'] ∨ EndsInName path := by
  induction isPath with
  | root => exact .inl rfl
  | child parent proper induction =>
      rename_i parentPath name
      right
      rcases induction with rfl | ends
      · rw [join_root proper]
        exact @EndsInName.append ['/'] name proper
      · rw [ends.join proper, List.append_cons]
        exact EndsInName.append proper

theorem IsPath.dirname_join {path name : Str} (isPath : IsPath path)
    (proper : ProperName name) : dirname (join path name) = path := by
  unfold dirname
  rcases isPath.root_or_endsInName with rfl | ends
  · rw [join_root proper]
    simp only [List.reverse_cons]
    rw [proper.dropWhile_reverse_append]
    rfl
  · rw [ends.join proper]
    simp only [List.reverse_append, List.reverse_cons, List.append_assoc, List.singleton_append]
    rw [proper.dropWhile_reverse_append]
    obtain ⟨start, last, rfl, noSlash⟩ := ends
    simp [noSlash]

theorem IsPath.basename_join {path name : Str} (isPath : IsPath path)
    (proper : ProperName name) : basename (join path name) = name := by
  unfold basename
  rcases isPath.root_or_endsInName with rfl | ends
  · rw [join_root proper, List.reverse_cons, proper.takeWhile_reverse_append,
      List.reverse_reverse]
  · rw [ends.join proper, List.reverse_append, List.reverse_cons, List.append_assoc,
      List.singleton_append, proper.takeWhile_reverse_append, List.reverse_reverse]

theorem join_inj {path name other otherName : Str} (isPath : IsPath path)
    (proper : ProperName name) (otherIsPath : IsPath other) (otherProper : ProperName otherName)
    (same : join path name = join other otherName) : path = other ∧ name = otherName := by
  constructor
  · rw [← isPath.dirname_join proper, same, otherIsPath.dirname_join otherProper]
  · rw [← isPath.basename_join proper, same, otherIsPath.basename_join otherProper]

theorem IsPath.length_lt_join {path name : Str} (isPath : IsPath path)
    (proper : ProperName name) : path.length < (join path name).length := by
  have notEmpty : 0 < name.length := List.length_pos_iff.mpr proper.1
  rcases isPath.root_or_endsInName with rfl | ends
  · rw [join_root proper]
    simpa using notEmpty
  · rw [ends.join proper, List.length_append]
    simp

theorem IsPath.length_pos {path : Str} (isPath : IsPath path) : 0 < path.length := by
  cases isPath with
  | root => exact Nat.zero_lt_one
  | child parent proper => exact Nat.zero_lt_of_lt (parent.length_lt_join proper)

theorem IsPath.join_ne_self {path name : Str} (isPath : IsPath path)
    (proper : ProperName name) : join path name ≠ path := by
  intro same
  have longer := isPath.length_lt_join proper
  rw [same] at longer
  exact Nat.lt_irrefl _ longer

theorem IsPath.join_ne_root {path name : Str} (isPath : IsPath path)
    (proper : ProperName name) : join path name ≠ ['/'] := by
  intro same
  have longer := isPath.length_lt_join proper
  rw [same] at longer
  exact Nat.not_succ_le_self _ (Nat.lt_of_lt_of_le longer isPath.length_pos)

end FuseDrive.Fuse
