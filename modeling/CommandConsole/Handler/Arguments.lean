import CommandConsole.Handler.Fault
import CommandConsole.Numeral.Readable

/-!
# Arguments of a handler

What a handler is called with: the line as it was typed and the arguments read from it.

## Main definitions

- `Arguments` — the line and its arguments
- `Arguments.get?`, `Arguments.getD`, `Arguments.item` — one argument, with three ways to miss it
- `Arguments.parse?`, `Arguments.parseD`, `Arguments.require` — one argument as a value of some type
- `Arguments.join`, `Arguments.joinFrom` — the arguments as one text
-/

namespace CommandConsole

/-- The arguments of a call. -/
structure Arguments where
  /-- The line as it was typed. -/
  raw : String
  /-- The arguments in order, without the name of the command. -/
  values : List String
  deriving DecidableEq, Repr

namespace Arguments

variable {α : Type}

/-- The number of arguments. -/
def size (arguments : Arguments) : Nat := arguments.values.length

/-- Whether there is no argument. -/
def isEmpty (arguments : Arguments) : Bool := arguments.values.isEmpty

/-- The argument at `index`, if there is one. -/
def get? (arguments : Arguments) (index : Nat) : Option String := arguments.values[index]?

/-- The argument at `index`, or `default`. -/
def getD (arguments : Arguments) (index : Nat) (default : String) : String :=
  (arguments.get? index).getD default

/-- The argument at `index`. A handler that asks for one it was not given crashes. -/
def item (arguments : Arguments) (index : Nat) : Except Fault String :=
  match arguments.get? index with
  | some value => .ok value
  | none => .error (.outOfRange index arguments.size)

/-- The argument at `index` as a value of `α`, if it is one. -/
def parse? [Readable α] (arguments : Arguments) (index : Nat) : Option α :=
  (arguments.get? index).bind Readable.read?

/-- The argument at `index` as a value of `α`, or `default`. -/
def parseD [Readable α] (arguments : Arguments) (index : Nat) (default : α) : α :=
  (arguments.parse? index).getD default

/-- The argument at `index`, called `name`, as a value of `α`. -/
def require [Readable α] (arguments : Arguments) (index : Nat) (name : String) : Except Fault α :=
  match arguments.get? index with
  | none => .error (.missingArgument name)
  | some text =>
    match Readable.read? text with
    | none => .error (.invalidValue name text)
    | some value => .ok value

/-- The argument at `index` as an integer of a range. -/
def integer (arguments : Arguments) (range : Numeral.Range) (index : Nat) : Except Fault Int := do
  let text ← arguments.item index
  (Numeral.readInteger range text).mapError .notAnInteger

/-- The argument at `index` as a floating-point number. -/
def number (arguments : Arguments) (index : Nat) : Except Fault Binary64 := do
  let text ← arguments.item index
  (Numeral.readDecimal text).mapError .notANumber

/-- All arguments with `separator` between them. -/
def join (arguments : Arguments) (separator : String) : String :=
  String.intercalate separator arguments.values

/-- The arguments from the place `start` on with `separator` between them. -/
def joinFrom (arguments : Arguments) (start : Nat) (separator : String) : String :=
  String.intercalate separator (arguments.values.drop start)

end Arguments

end CommandConsole
