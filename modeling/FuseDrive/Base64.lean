import Mathlib.Data.List.TakeWhile

/-!
# URL-safe base64 over byte lists

The encoder is the padded alphabet with `-` and `_` in the last two places.
The decoder is the lenient one of the Python standard library: characters
outside the alphabet are skipped, `+` and `/` are read like `-` and `_`, and
padding stops the reading as soon as it completes a group of four.

`decode_encode` is the round trip.  `decode_of_cut` is its counterpart for a
text that lost its tail: an encoding cut just before one of its underscores
never decodes to the same bytes.
-/

namespace FuseDrive.Base64

/-- The character of a six-bit group. -/
def digit (value : Nat) : Char :=
  if value < 26 then Char.ofNat (value + 65)
  else if value < 52 then Char.ofNat (value + 71)
  else if value < 62 then Char.ofNat (value - 4)
  else if value = 62 then '-'
  else '_'

/-- The six-bit group of a character, when the character carries one. -/
def digitValue (symbol : Char) : Option Nat :=
  let code := symbol.toNat
  if 65 ≤ code ∧ code ≤ 90 then some (code - 65)
  else if 97 ≤ code ∧ code ≤ 122 then some (code - 71)
  else if 48 ≤ code ∧ code ≤ 57 then some (code + 4)
  else if symbol = '-' ∨ symbol = '+' then some 62
  else if symbol = '_' ∨ symbol = '/' then some 63
  else none

def encode : List UInt8 → List Char
  | [] => []
  | [first] =>
      [digit (first.toNat / 4), digit (first.toNat % 4 * 16), '=', '=']
  | [first, second] =>
      [digit (first.toNat / 4),
        digit (first.toNat % 4 * 16 + second.toNat / 16),
        digit (second.toNat % 16 * 4), '=']
  | first :: second :: third :: rest =>
      digit (first.toNat / 4) ::
        digit (first.toNat % 4 * 16 + second.toNat / 16) ::
        digit (second.toNat % 16 * 4 + third.toNat / 64) ::
        digit (third.toNat % 64) :: encode rest

/-- Position inside a group of four, with the bits left over from the
previous characters of the group. -/
inductive Quad where
  | zero
  | one (left : Nat)
  | two (left : Nat)
  | three (left : Nat)
deriving DecidableEq

/-- The byte completed by a six-bit group, if any, and the next position. -/
def Quad.feed : Quad → Nat → Option UInt8 × Quad
  | .zero, value => (none, .one value)
  | .one left, value => (some (UInt8.ofNat (left * 4 + value / 16)), .two (value % 16))
  | .two left, value => (some (UInt8.ofNat (left * 16 + value / 4)), .three (value % 4))
  | .three left, value => (some (UInt8.ofNat (left * 64 + value)), .zero)

/-- Number of data characters already read in the current group. -/
def Quad.count : Quad → Nat
  | .zero => 0
  | .one _ => 1
  | .two _ => 2
  | .three _ => 3

/-- The decoding loop: `pads` counts the padding characters seen since the
last data character. -/
def decodeFrom : Quad → Nat → List Char → Option (List UInt8)
  | quad, _, [] => if quad = .zero then some [] else none
  | quad, pads, symbol :: rest =>
      if symbol = '=' then
        if 2 ≤ quad.count ∧ 4 ≤ quad.count + (pads + 1) then some []
        else decodeFrom quad (if 2 ≤ quad.count then pads + 1 else pads) rest
      else
        match digitValue symbol with
        | none => decodeFrom quad pads rest
        | some value =>
            match quad.feed value with
            | (none, next) => decodeFrom next 0 rest
            | (some byte, next) => (decodeFrom next 0 rest).map (byte :: ·)

def decode (text : List Char) : Option (List UInt8) :=
  decodeFrom .zero 0 text

theorem digitValue_digit {value : Nat} (bound : value < 64) :
    digitValue (digit value) = some value := by
  revert value
  decide

theorem digit_ne_pad (value : Nat) (bound : value < 64) : digit value ≠ '=' := by
  revert value
  decide

theorem decodeFrom_digit (quad : Quad) (pads : Nat) {value : Nat}
    (bound : value < 64) (rest : List Char) :
    decodeFrom quad pads (digit value :: rest) =
      match quad.feed value with
      | (none, next) => decodeFrom next 0 rest
      | (some byte, next) => (decodeFrom next 0 rest).map (byte :: ·) := by
  rw [decodeFrom, if_neg (digit_ne_pad _ bound), digitValue_digit bound]

private theorem ofNat_rejoin (byte : UInt8) {value : Nat}
    (same : value = byte.toNat) : UInt8.ofNat value = byte := by
  subst value
  exact UInt8.ofNat_toNat

theorem decode_encode (bytes : List UInt8) : decode (encode bytes) = some bytes := by
  unfold decode
  induction bytes using encode.induct with
  | case1 => rfl
  | case2 first =>
      have firstBound := first.toNat_lt
      rw [encode, decodeFrom_digit _ _ (by omega)]
      simp only [Quad.feed]
      rw [decodeFrom_digit _ _ (by omega)]
      simp only [Quad.feed]
      rw [ofNat_rejoin first (by omega)]
      simp [decodeFrom, Quad.count]
  | case3 first second =>
      have firstBound := first.toNat_lt
      have secondBound := second.toNat_lt
      rw [encode, decodeFrom_digit _ _ (by omega)]
      simp only [Quad.feed]
      rw [decodeFrom_digit _ _ (by omega)]
      simp only [Quad.feed]
      rw [decodeFrom_digit _ _ (by omega)]
      simp only [Quad.feed]
      rw [ofNat_rejoin first (by omega), ofNat_rejoin second (by omega)]
      simp [decodeFrom, Quad.count]
  | case4 first second third rest induction =>
      have firstBound := first.toNat_lt
      have secondBound := second.toNat_lt
      have thirdBound := third.toNat_lt
      rw [encode, decodeFrom_digit _ _ (by omega)]
      simp only [Quad.feed]
      rw [decodeFrom_digit _ _ (by omega)]
      simp only [Quad.feed]
      rw [decodeFrom_digit _ _ (by omega)]
      simp only [Quad.feed]
      rw [decodeFrom_digit _ _ (by omega)]
      simp only [Quad.feed]
      rw [ofNat_rejoin first (by omega), ofNat_rejoin second (by omega),
        ofNat_rejoin third (by omega)]
      simp [induction]

/-- Padding only stands at the end of an encoding, so none precedes an
underscore. -/
theorem pad_notMem_of_encode_eq {bytes : List UInt8} {cut rest : List Char}
    (split : encode bytes = cut ++ '_' :: rest) : '=' ∉ cut := by
  induction bytes using encode.induct generalizing cut rest with
  | case1 => simp [encode] at split
  | case2 first =>
      have firstBound := first.toNat_lt
      have headNe := digit_ne_pad (first.toNat / 4) (by omega)
      have nextNe := digit_ne_pad (first.toNat % 4 * 16) (by omega)
      rcases cut with _ | ⟨a, _ | ⟨b, _ | ⟨c, _ | ⟨d, cut⟩⟩⟩⟩ <;>
        simp_all [encode, eq_comm]
  | case3 first second =>
      have firstBound := first.toNat_lt
      have secondBound := second.toNat_lt
      have headNe := digit_ne_pad (first.toNat / 4) (by omega)
      have nextNe := digit_ne_pad
        (first.toNat % 4 * 16 + second.toNat / 16) (by omega)
      have lastNe := digit_ne_pad (second.toNat % 16 * 4) (by omega)
      rcases cut with _ | ⟨a, _ | ⟨b, _ | ⟨c, _ | ⟨d, cut⟩⟩⟩⟩ <;>
        simp_all [encode, eq_comm]
  | case4 first second third tail induction =>
      have firstBound := first.toNat_lt
      have secondBound := second.toNat_lt
      have thirdBound := third.toNat_lt
      have headNe := digit_ne_pad (first.toNat / 4) (by omega)
      have nextNe := digit_ne_pad
        (first.toNat % 4 * 16 + second.toNat / 16) (by omega)
      have thenNe := digit_ne_pad
        (second.toNat % 16 * 4 + third.toNat / 64) (by omega)
      have lastNe := digit_ne_pad (third.toNat % 64) (by omega)
      rcases cut with _ | ⟨a, _ | ⟨b, _ | ⟨c, _ | ⟨d, cut⟩⟩⟩⟩
      case cons.cons.cons.cons =>
        simp only [encode, List.cons_append, List.cons.injEq] at split
        obtain ⟨rfl, rfl, rfl, rfl, tailSplit⟩ := split
        simp [headNe.symm, nextNe.symm, thenNe.symm, lastNe.symm,
          induction tailSplit]
      all_goals simp_all [encode, eq_comm]

/-- A complete reading of a text without padding leaves the loop between two
groups, ready for whatever follows. -/
theorem decodeFrom_append {text : List Char} (noPad : '=' ∉ text) :
    ∀ {quad : Quad} {pads : Nat} {bytes : List UInt8},
      decodeFrom quad pads text = some bytes → ∀ rest, ∃ pads',
        decodeFrom quad pads (text ++ rest) =
          (decodeFrom .zero pads' rest).map (bytes ++ ·) := by
  induction text with
  | nil =>
      intro quad pads bytes success rest
      simp only [decodeFrom, Option.ite_none_right_eq_some, Option.some.injEq] at success
      obtain ⟨rfl, rfl⟩ := success
      exact ⟨pads, by simp⟩
  | cons symbol text induction =>
      intro quad pads bytes success rest
      simp only [List.mem_cons, not_or] at noPad
      have notPad : symbol ≠ '=' := Ne.symm noPad.1
      rw [decodeFrom, if_neg notPad] at success
      rw [List.cons_append, decodeFrom, if_neg notPad]
      cases value : digitValue symbol with
      | none =>
          simp only [value] at success ⊢
          exact induction noPad.2 success rest
      | some group =>
          simp only [value] at success ⊢
          cases fed : quad.feed group with
          | mk output next =>
              cases output with
              | none =>
                  simp only [fed] at success ⊢
                  exact induction noPad.2 success rest
              | some byte =>
                  simp only [fed, Option.map_eq_some_iff] at success ⊢
                  obtain ⟨tail, tailSuccess, rfl⟩ := success
                  obtain ⟨pads', equality⟩ := induction noPad.2 tailSuccess rest
                  refine ⟨pads', ?_⟩
                  rw [equality]
                  cases decodeFrom .zero pads' rest <;> simp

/-- Once a group has been opened the reading fails or yields a byte. -/
theorem decodeFrom_one_ne_nil (left : Nat) (text : List Char) :
    ∀ pads, decodeFrom (.one left) pads text ≠ some [] := by
  induction text with
  | nil => intro pads; simp [decodeFrom]
  | cons symbol text induction =>
      intro pads
      rw [decodeFrom]
      by_cases pad : symbol = '='
      · simp [pad, Quad.count, induction]
      · rw [if_neg pad]
        cases digitValue symbol with
        | none => exact induction pads
        | some group => simp [Quad.feed]

/-- Cutting an encoding just before one of its underscores loses bytes: the
cut text does not decode to the encoded bytes. -/
theorem decode_of_cut {bytes : List UInt8} {cut rest : List Char}
    (split : encode bytes = cut ++ '_' :: rest) : decode cut ≠ some bytes := by
  intro success
  obtain ⟨pads, whole⟩ :=
    decodeFrom_append (pad_notMem_of_encode_eq split) success ('_' :: rest)
  have roundTrip : decode (cut ++ '_' :: rest) = some bytes := by
    rw [← split]
    exact decode_encode bytes
  unfold decode at roundTrip
  rw [roundTrip, eq_comm, Option.map_eq_some_iff] at whole
  obtain ⟨tail, tailSuccess, tailEquality⟩ := whole
  have tailNil : tail = [] := by simpa using tailEquality
  have opened : decodeFrom .zero pads ('_' :: rest) = decodeFrom (.one 63) 0 rest := by
    have value : digitValue '_' = some 63 := by decide
    simp [decodeFrom, value, Quad.feed]
  rw [opened, tailNil] at tailSuccess
  exact decodeFrom_one_ne_nil 63 rest 0 tailSuccess

end FuseDrive.Base64
