import CommandConsole.Numeral.Binary64
import CommandConsole.Numeral.Integer

/-!
# Floating-point numbers in decimal notation

The reading of a floating-point number: an optional sign, then digits with an optional point among
them and an optional power of ten behind them, or one of the names of infinity and of no value. The
number read is the nearest one to the value that is written.

## Main definitions

- `Numeral.DecimalError` — why a text is no number
- `Numeral.Decimal` — the digits of a numeral with its power of ten
- `Numeral.decimal?` — the numeral that an unsigned text is
- `Numeral.Decimal.toBinary64` — the floating-point number nearest to it
- `Numeral.readDecimal` — the floating-point number that a text stands for
-/

namespace CommandConsole.Numeral

/-- Why a text is no number. -/
inductive DecimalError where
  | empty
  | invalid
  deriving DecidableEq, Repr

/-- The wording of an error. -/
def DecimalError.message : DecimalError → String
  | empty => "cannot parse float from empty string"
  | invalid => "invalid float literal"

/-- The value `digits * 10 ^ exponent`. -/
structure Decimal where
  /-- The digits without the point, the most significant one first. -/
  digits : List Nat
  /-- The power of ten that the last digit counts. -/
  exponent : Int
  deriving DecidableEq, Repr

/-- The digits at the beginning of a text, and what follows them. -/
def takeDigits : List Char → List Nat × List Char
  | [] => ([], [])
  | c :: cs =>
    match digit? c with
    | none => ([], c :: cs)
    | some digit =>
      let (digits, rest) := takeDigits cs
      (digit :: digits, rest)

/-- An exponent of this size puts every numeral of reasonable length out of range. -/
def exponentBound : Nat := 65536

/-- The number that digits stand for, as far as it matters: once the bound is passed, further digits
are not counted. -/
def boundedValue (digits : List Nat) : Nat :=
  digits.foldl (fun value digit => if value < exponentBound then value * 10 + digit else value) 0

/-- The number that digits stand for. -/
def digitsValue (digits : List Nat) : Nat :=
  digits.foldl (fun value digit => value * 10 + digit) 0

/-- A power of ten: an optional sign and at least one digit, with nothing behind them. -/
def exponent? (cs : List Char) : Option Int :=
  let (negative, cs) := match cs with
    | '-' :: rest => (true, rest)
    | '+' :: rest => (false, rest)
    | rest => (false, rest)
  match takeDigits cs with
  | (digit :: digits, []) =>
    let value : Int := boundedValue (digit :: digits)
    some (if negative then -value else value)
  | _ => none

/-- The numeral that an unsigned text is: digits with an optional point, at least one on one side of
it, and an optional power of ten. -/
def decimal? (cs : List Char) : Option Decimal :=
  let (whole, rest) := takeDigits cs
  let (fraction, rest) := match rest with
    | '.' :: rest => takeDigits rest
    | rest => ([], rest)
  let digits := whole ++ fraction
  if digits.isEmpty then none
  else match rest with
    | [] => some ⟨digits, -fraction.length⟩
    | c :: rest =>
      if c = 'e' || c = 'E' then
        (exponent? rest).map fun exponent => ⟨digits, exponent - fraction.length⟩
      else none

/-- The floating-point number nearest to a numeral. A numeral of at least `10 ^ 309` is above, and one
below `10 ^ (-324)` is under everything that can be told from infinity and zero. -/
def Decimal.toBinary64 (decimal : Decimal) (negative : Bool) : Binary64 :=
  let digits := decimal.digits.dropWhile (· = 0)
  let magnitude := digits.length + decimal.exponent
  if digits.isEmpty || magnitude ≤ -324 then .zero negative
  else if 309 < magnitude then .infinity negative
  else if 0 ≤ decimal.exponent then
    .nearest negative (digitsValue digits * Nat.pow 10 decimal.exponent.toNat) 1
  else .nearest negative (digitsValue digits) (Nat.pow 10 (-decimal.exponent).toNat)

/-- The names of infinity and of no value, in any case. -/
def named? (cs : List Char) (negative : Bool) : Option Binary64 :=
  let name := cs.map Char.toLower
  if name = "inf".toList || name = "infinity".toList then some (.infinity negative)
  else if name = "nan".toList then some (.nan negative)
  else none

/-- The floating-point number that an unsigned text stands for. -/
def readUnsigned (cs : List Char) (negative : Bool) : Except DecimalError Binary64 :=
  match decimal? cs with
  | some decimal => .ok (decimal.toBinary64 negative)
  | none =>
    match named? cs negative with
    | some x => .ok x
    | none => .error .invalid

/-- The floating-point number that a text stands for. -/
def readDecimal (text : String) : Except DecimalError Binary64 :=
  match text.toList with
  | [] => .error .empty
  | '-' :: cs => readUnsigned cs true
  | '+' :: cs => readUnsigned cs false
  | cs => readUnsigned cs false

end CommandConsole.Numeral
