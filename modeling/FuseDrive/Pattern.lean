import FuseDrive.Dict

/-!
# Patterns with anchors

Regular expressions as `re` reads them without flags: a dot is any character but
a line break, `^` matches at the beginning of a string only, and `$` at its end
and before a line break at its end.

A pattern matches a piece of a string between what comes before the piece and
what comes after it.  Which of its matches `re` finds first makes no difference
to whether there is one.
-/

namespace FuseDrive

inductive Pattern where
  | empty
  | char (character : Char)
  | dot
  | star (pattern : Pattern)
  | seq (first second : Pattern)
  | alt (left right : Pattern)
  | caret
  | dollar

namespace Pattern

inductive Matches : Pattern → Str → Str → Str → Prop where
  | empty {before after : Str} : Matches .empty before [] after
  | char {before after : Str} {character : Char} :
      Matches (.char character) before [character] after
  | dot {before after : Str} {character : Char} (noBreak : character ≠ '\n') :
      Matches .dot before [character] after
  | done {pattern : Pattern} {before after : Str} : Matches (.star pattern) before [] after
  | more {pattern : Pattern} {before piece rest after : Str}
      (once : Matches pattern before piece (rest ++ after))
      (again : Matches (.star pattern) (before ++ piece) rest after) :
      Matches (.star pattern) before (piece ++ rest) after
  | seq {first second : Pattern} {before piece rest after : Str}
      (begins : Matches first before piece (rest ++ after))
      (ends : Matches second (before ++ piece) rest after) :
      Matches (.seq first second) before (piece ++ rest) after
  | left {left right : Pattern} {before piece after : Str}
      (matched : Matches left before piece after) : Matches (.alt left right) before piece after
  | right {left right : Pattern} {before piece after : Str}
      (matched : Matches right before piece after) : Matches (.alt left right) before piece after
  | caret {after : Str} : Matches .caret [] [] after
  | dollar {before : Str} : Matches .dollar before [] []
  | dollarBreak {before : Str} : Matches .dollar before [] ['\n']

/-- `re.match` finds a match. -/
def MatchesStart (pattern : Pattern) (text : Str) : Prop :=
  ∃ piece after, text = piece ++ after ∧ Matches pattern [] piece after

/-- The pattern of one string. -/
def text : Str → Pattern
  | [] => .empty
  | character :: rest => .seq (.char character) (text rest)

/-! ## What matches -/

section Rules

variable {before piece after : Str}

@[simp] theorem matches_seq {first second : Pattern} :
    Matches (.seq first second) before piece after ↔
      ∃ start rest, piece = start ++ rest ∧ Matches first before start (rest ++ after) ∧
        Matches second (before ++ start) rest after := by
  constructor
  · intro matched
    cases matched with
    | seq begins ends => exact ⟨_, _, rfl, begins, ends⟩
  · rintro ⟨start, rest, rfl, begins, ends⟩
    exact .seq begins ends

@[simp] theorem matches_alt {left right : Pattern} :
    Matches (.alt left right) before piece after ↔
      Matches left before piece after ∨ Matches right before piece after := by
  constructor
  · intro matched
    cases matched with
    | left matched => exact .inl matched
    | right matched => exact .inr matched
  · rintro (matched | matched)
    · exact .left matched
    · exact .right matched

@[simp] theorem matches_caret : Matches .caret before piece after ↔ before = [] ∧ piece = [] := by
  constructor
  · intro matched
    cases matched
    exact ⟨rfl, rfl⟩
  · rintro ⟨rfl, rfl⟩
    exact .caret

@[simp] theorem matches_dollar :
    Matches .dollar before piece after ↔ piece = [] ∧ (after = [] ∨ after = ['\n']) := by
  constructor
  · intro matched
    cases matched with
    | dollar => exact ⟨rfl, .inl rfl⟩
    | dollarBreak => exact ⟨rfl, .inr rfl⟩
  · rintro ⟨rfl, rfl | rfl⟩
    · exact .dollar
    · exact .dollarBreak

@[simp] theorem matches_text {string : Str} :
    Matches (text string) before piece after ↔ piece = string := by
  induction string generalizing before piece with
  | nil =>
      constructor
      · intro matched
        cases matched
        rfl
      · rintro rfl
        exact .empty
  | cons character rest induction =>
      constructor
      · intro matched
        cases matched with
        | seq begins ends =>
            cases begins
            rw [induction.mp ends]
            rfl
      · rintro rfl
        have begins : Matches (.char character) before [character] (rest ++ after) := .char
        exact .seq begins (induction.mpr rfl)

@[simp] theorem matches_star_dot : Matches (.star .dot) before piece after ↔ '\n' ∉ piece := by
  constructor
  · intro matched
    generalize isStar : Pattern.star .dot = pattern at matched
    induction matched with
    | done => exact List.not_mem_nil
    | more once _ _ induction =>
        cases isStar
        cases once with
        | dot noBreak =>
            have rest := induction rfl
            simp only [List.cons_append, List.nil_append, List.mem_cons, not_or]
            exact ⟨noBreak.symm, rest⟩
    | _ => cases isStar
  · intro noBreak
    induction piece generalizing before with
    | nil => exact .done
    | cons character rest induction =>
        simp only [List.mem_cons, not_or] at noBreak
        have once : Matches .dot before [character] (rest ++ after) := .dot (Ne.symm noBreak.1)
        exact .more once (induction noBreak.2)

end Rules

theorem matchesStart_alt {left right : Pattern} {text : Str} :
    MatchesStart (.alt left right) text ↔ MatchesStart left text ∨ MatchesStart right text := by
  simp only [MatchesStart, matches_alt, and_or_left, exists_or]

/-- The string is at the end, or before a line break at the end, and nothing
before it is a line break. -/
def EndsWith (ending name : Str) : Prop :=
  ∃ stem, '\n' ∉ stem ∧ (name = stem ++ ending ∨ name = stem ++ ending ++ ['\n'])

theorem matchesStart_ending {ending name : Str} :
    MatchesStart (.seq (.star .dot) (.seq (text ending) .dollar)) name ↔
      EndsWith ending name := by
  simp only [MatchesStart, matches_seq, matches_star_dot, matches_text, matches_dollar]
  constructor
  · rintro ⟨_, after, rfl, stem, _, rfl, noBreak, _, _, rfl, rfl, rfl, rfl | rfl⟩
    · exact ⟨stem, noBreak, .inl (by simp)⟩
    · exact ⟨stem, noBreak, .inr (by simp)⟩
  · rintro ⟨stem, noBreak, rfl | rfl⟩
    · exact ⟨stem ++ ending, [], by simp, stem, ending, rfl, noBreak, ending, [], by simp, rfl, rfl,
        .inl rfl⟩
    · exact ⟨stem ++ ending, ['\n'], rfl, stem, ending, rfl, noBreak, ending, [], by simp, rfl, rfl,
        .inr rfl⟩

theorem matchesStart_beginning {beginning name : Str} :
    MatchesStart (.seq .caret (.seq (text beginning) (.star .dot))) name ↔
      beginning <+: name := by
  simp only [MatchesStart, matches_seq, matches_star_dot, matches_text, matches_caret, true_and]
  constructor
  · rintro ⟨_, after, rfl, _, _, rfl, rfl, _, rest, rfl, rfl, -⟩
    exact ⟨rest ++ after, by simp⟩
  · rintro ⟨rest, rfl⟩
    exact ⟨beginning, rest, rfl, [], beginning, rfl, rfl, beginning, [], by simp, rfl,
      List.not_mem_nil⟩

end Pattern

end FuseDrive
