import CommandConsole.Scrollback

/-!
# Diagnostics

What the console tells the log of the process about its own doings, apart from its output.

## Main definitions

- `Level` — how serious a log event is, and the style in which the console shows it
- `Diagnostic` — a message with its level
-/

namespace CommandConsole

/-- How serious a log event is. -/
inductive Level where
  | error
  | warn
  | info
  | debug
  | trace
  deriving DecidableEq, Repr, Inhabited

namespace Level

/-- The name of a level. -/
def name : Level → String
  | error => "ERROR"
  | warn => "WARN"
  | info => "INFO"
  | debug => "DEBUG"
  | trace => "TRACE"

/-- The style in which the console shows an event of this level. -/
def style : Level → Style
  | error => .error
  | warn => .warning
  | info => .info
  | debug | trace => .plain

end Level

/-- A message of the console to the log of the process. -/
structure Diagnostic where
  level : Level
  message : String
  deriving DecidableEq, Repr

end CommandConsole
