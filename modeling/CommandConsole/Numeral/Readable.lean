import CommandConsole.Numeral.Decimal

/-!
# Values that can be read from a text

The types that an argument of a command can be asked for.

## Main definitions

- `Readable α` — how a value of `α` is read
-/

namespace CommandConsole

/-- A type whose values can be read from a text. -/
class Readable (α : Type) where
  /-- The value that a text stands for, if it stands for one. -/
  read? : String → Option α

namespace Readable

/-- The integer of a range that a text stands for. -/
def integer? (range : Numeral.Range) (text : String) : Option Int :=
  (Numeral.readInteger range text).toOption

instance : Readable UInt8 where
  read? text := (integer? (.unsigned 8) text).map fun n => UInt8.ofNat n.toNat

instance : Readable UInt32 where
  read? text := (integer? (.unsigned 32) text).map fun n => UInt32.ofNat n.toNat

instance : Readable UInt64 where
  read? text := (integer? (.unsigned 64) text).map fun n => UInt64.ofNat n.toNat

instance : Readable Int32 where
  read? text := (integer? (.signed 32) text).map Int32.ofInt

instance : Readable Int64 where
  read? text := (integer? (.signed 64) text).map Int64.ofInt

instance : Readable Binary64 where
  read? text := (Numeral.readDecimal text).toOption

/-- A truth value is one of two words. -/
instance : Readable Bool where
  read? text := if text == "true" then some true else if text == "false" then some false else none

/-- A character is a text of one character. -/
instance : Readable Char where
  read? text := match text.toList with
    | [c] => some c
    | _ => none

/-- A text is read as it is. -/
instance : Readable String where
  read? text := some text

end Readable

end CommandConsole
