import CommandConsole.Scrollback

/-!
# The terminal

A display for a console without a window: the new rows of the output, line by line, once per frame.

## Main definitions

- `Terminal` — how rows are shown, and how far the display has come
- `Terminal.rows` — the rows to show
- `Terminal.write` — the lines to print for them
-/

namespace CommandConsole

/-- A display that prints the output. -/
structure Terminal where
  /-- Whether rows are coloured by their styles. -/
  colored : Bool := false
  /-- Whether the echoes of submitted lines are shown. -/
  echoInput : Bool := false
  /-- The sequence number up to which the output has been shown. -/
  printed : Nat := 0
  deriving DecidableEq, Repr

namespace Terminal

instance : Inhabited Terminal := ⟨{}⟩

/-- The control sequence that sets the colour of a style. -/
def color : Style → String
  | .plain => "\x1b[0m"
  | .info => "\x1b[36m"
  | .warning => "\x1b[33m"
  | .error => "\x1b[31m"

/-- A row as a line of the display. -/
def format (colored : Bool) (row : Row) : String :=
  if colored then color row.style ++ row.text ++ "\x1b[0m" else row.text

/-- Whether a row looks like the echo of a submitted line. -/
def looksLikeEcho (row : Row) : Bool :=
  row.style = .plain && "> ".toList.isPrefixOf row.text.toList

/-- The rows to show: those that are new since the last time. Echoes are left out unless they are
wanted. -/
def rows (terminal : Terminal) (output : Scrollback) : List Row :=
  if output.nextSeq = terminal.printed then []
  else (output.since terminal.printed).filter fun row => terminal.echoInput || !looksLikeEcho row

/-- The lines to print for the new rows of the output. -/
def write (terminal : Terminal) (output : Scrollback) : List String × Terminal :=
  ((terminal.rows output).map (format terminal.colored), { terminal with printed := output.nextSeq })

end Terminal

end CommandConsole
