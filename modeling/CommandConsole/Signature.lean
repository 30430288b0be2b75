import CommandConsole.Dictionary
import CommandConsole.Text.Quoted

/-!
# Signatures of commands

All that the console knows of a command apart from what it does: its name, its arguments, how it is
described, whether it is listed, and which values it offers for its arguments.

## Main definitions

- `Signature` — the description of a command
- `Signature.usage` — the usage line
- `Signature.missing` — the arguments that still have to be given
- `Signature.offer` — set the values offered for an argument
-/

namespace CommandConsole

/-- The description of a command. -/
structure Signature where
  name : String
  /-- The names of its arguments, in order. -/
  arguments : List String := []
  /-- How many of its arguments, from the first on, have to be given. -/
  required : Nat := 0
  description : String := ""
  /-- Whether it is left out of listings and suggestions. It can be called all the same. -/
  hidden : Bool := false
  /-- The values offered for its arguments, by the places of these. No list is empty. -/
  offers : Dictionary Nat (List String) := .empty
  deriving DecidableEq, Repr

namespace Signature

/-- The number of arguments that have names. -/
def declared (signature : Signature) : Nat := signature.arguments.length

/-- The names of the required arguments that are missing when only the first `given` are given. -/
def missing (signature : Signature) (given : Nat) : List String :=
  (signature.arguments.take signature.required).drop given

/-- The arguments as a usage line shows them: the first `required` ones in angle brackets, the others
in square brackets. -/
def markArguments (required : Nat) : List String → List String
  | [] => []
  | argument :: rest =>
    match required with
    | 0 => ("[" ++ argument ++ "]") :: markArguments 0 rest
    | required + 1 => ("<" ++ argument ++ ">") :: markArguments required rest

/-- The usage line: the name followed by the arguments. -/
def usage (signature : Signature) : String :=
  String.intercalate " " (signature.name :: markArguments signature.required signature.arguments)

/-- The values offered for the argument at `place`. -/
def offersAt (signature : Signature) (place : Nat) : List String :=
  (signature.offers.find? place).getD []

/-- Whether values are offered for any argument. -/
def hasOffers (signature : Signature) : Bool := !signature.offers.isEmpty

/-- Offer `values` for the argument at `place`, or nothing if there are none. -/
def offer (signature : Signature) (place : Nat) (values : List String) : Signature :=
  { signature with
    offers :=
      if values.isEmpty then signature.offers.erase place
      else signature.offers.insert place values }

/-- A one-line description for log messages. -/
def summary (signature : Signature) : String :=
  "ConCommand \x7b name: " ++ Text.quoted signature.name ++
    ", args: " ++ Text.quotedList signature.arguments ++
    ", required: " ++ toString signature.required ++
    ", description: " ++ Text.quoted signature.description ++
    ", hidden: " ++ toString signature.hidden ++ ", .. \x7d"

end Signature

end CommandConsole
