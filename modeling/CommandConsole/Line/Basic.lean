import CommandConsole.Line.Token

/-!
# Lines read as a command with arguments

The first token of a line names a command and the others are its arguments.

## Main definitions

- `Line` — a command name with its arguments
- `Line.read` — what a typed line says
-/

namespace CommandConsole

/-- A command name with its arguments. -/
structure Line where
  /-- The command name. It is empty if the line says nothing. -/
  command : String
  /-- The arguments in order. -/
  arguments : List String
  deriving DecidableEq, Repr

namespace Line

/-- A list of token texts as a command with arguments. -/
def ofTexts : List String → Line
  | [] => ⟨"", []⟩
  | command :: arguments => ⟨command, arguments⟩

/-- What a typed line says. -/
def read (text : String) : Line :=
  ofTexts ((Token.scan text).map (·.text))

/-- Whether the line names no command: it is blank, or its first token is an empty quoted one. -/
def isEmpty (line : Line) : Bool := line.command == ""

end Line

end CommandConsole
