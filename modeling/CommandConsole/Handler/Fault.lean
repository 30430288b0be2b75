import CommandConsole.Numeral.Decimal

/-!
# Faults of handlers

The two ways in which a handler can end without success: it fails and says why, or it crashes. A
crash may come without any text.

## Main definitions

- `Fault` — how a handler ended
- `Fault.message` — what is known of it
-/

namespace CommandConsole

/-- How a handler ended that did not succeed. -/
inductive Fault where
  /-- It gave up, for the reason `message`. -/
  | failed (message : String)
  /-- It crashed, with a text or without one. -/
  | crashed (message? : Option String)
  deriving DecidableEq, Repr

namespace Fault

/-- What is known of a fault. -/
def message : Fault → String
  | failed message => message
  | crashed (some message) => message
  | crashed none => "Unknown panic"

/-- A list was asked for an item that it does not have. -/
def outOfRange (index size : Nat) : Fault :=
  crashed (some ("index out of bounds: the len is " ++ toString size ++ " but the index is " ++
    toString index))

/-- An argument that has to be given is missing. -/
def missingArgument (name : String) : Fault :=
  failed ("missing argument <" ++ name ++ ">")

/-- An argument cannot be read as a value of the type asked for. -/
def invalidValue (name value : String) : Fault :=
  failed ("invalid value for <" ++ name ++ ">: '" ++ value ++ "'")

/-- A text is not the integer asked for. -/
def notAnInteger (error : Numeral.IntegerError) : Fault :=
  failed ("expected an integer: " ++ error.message)

/-- A text is not a number. -/
def notANumber (error : Numeral.DecimalError) : Fault :=
  failed ("expected a number: " ++ error.message)

/-- The handler needs the world of a running application and there is none. -/
def noWorld : Fault := failed "this command needs a running app"

end Fault

end CommandConsole
