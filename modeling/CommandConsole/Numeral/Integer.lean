/-!
# Integers in decimal notation

The reading of an integer that has to lie in a given range: an optional sign, then ASCII digits.
Reading goes from left to right and fails at the first character that makes success impossible, so
that a number too large is reported before a stray character further right.

## Main definitions

- `Numeral.Range` — the integers from a least to a greatest one
- `Numeral.IntegerError` — why a text is no integer of a range
- `Numeral.readInteger` — the integer that a text stands for
-/

namespace CommandConsole.Numeral

/-- The integers from `least` to `greatest`. -/
structure Range where
  least : Int
  greatest : Int
  deriving DecidableEq, Repr

/-- The integers that an unsigned word of so many bits can hold. -/
def Range.unsigned (bits : Nat) : Range := ⟨0, Nat.pow 2 bits - 1⟩

/-- The integers that a signed word of so many bits can hold. -/
def Range.signed (bits : Nat) : Range := ⟨-Nat.pow 2 (bits - 1), Nat.pow 2 (bits - 1) - 1⟩

/-- Why a text is no integer of a range. -/
inductive IntegerError where
  | empty
  /-- A character is no digit, or there is no digit. -/
  | invalidDigit
  | tooLarge
  | tooSmall
  deriving DecidableEq, Repr

/-- The wording of an error. -/
def IntegerError.message : IntegerError → String
  | empty => "cannot parse integer from empty string"
  | invalidDigit => "invalid digit found in string"
  | tooLarge => "number too large to fit in target type"
  | tooSmall => "number too small to fit in target type"

/-- The value of an ASCII digit. -/
def digit? (c : Char) : Option Nat :=
  if '0' ≤ c ∧ c ≤ '9' then some (c.toNat - '0'.toNat) else none

/-- Read the digits that follow those already read as `value`, away from zero in the direction of the
sign. -/
def readDigits (range : Range) (negative : Bool) (value : Int) :
    List Char → Except IntegerError Int
  | [] => .ok value
  | c :: cs =>
    match digit? c with
    | none => .error .invalidDigit
    | some digit =>
      let next := if negative then value * 10 - digit else value * 10 + digit
      if range.greatest < next then .error .tooLarge
      else if next < range.least then .error .tooSmall
      else readDigits range negative next cs

/-- Read the digits of an unsigned numeral, of which there has to be one at least. -/
def readMagnitude (range : Range) (negative : Bool) (cs : List Char) : Except IntegerError Int :=
  if cs.isEmpty then .error .invalidDigit else readDigits range negative 0 cs

/-- The integer of `range` that a text stands for. A minus sign is read only if the range has negative
integers. -/
def readInteger (range : Range) (text : String) : Except IntegerError Int :=
  match text.toList with
  | [] => .error .empty
  | c :: cs =>
    if c = '+' then readMagnitude range false cs
    else if c = '-' && range.least < 0 then readMagnitude range true cs
    else readDigits range false 0 (c :: cs)

end CommandConsole.Numeral
