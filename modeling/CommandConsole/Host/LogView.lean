import CommandConsole.Console.Basic
import CommandConsole.Host.Capture

/-!
# A view of the process log

An application that captures the process log, and shows it in a console as soon as there is one,
without driving the console in any other way.

## Main definitions

- `LogView ω ε` — the application
- `LogView.frame` — its frame
-/

namespace CommandConsole

/-- An application that shows the process log in a console, if it has one. -/
structure LogView (ω ε : Type) where
  console? : Option (Console ω ε) := none
  capture : Capture := {}
  /-- The records taken from the capture, oldest first. -/
  captured : List LogRecord := []

namespace LogView

variable {ω ε : Type}

/-- An event of the process log. -/
def log (view : LogView ω ε) (event : LogEvent) : LogView ω ε :=
  { view with capture := view.capture.observe event }

/-- Show what was captured. Without a console it is lost. -/
def frame (view : LogView ω ε) : LogView ω ε :=
  let (records, capture) := view.capture.take
  { console? := view.console?.map fun console =>
      { console with output := LogRecord.showAll records console.output }
    capture
    captured := view.captured ++ records }

end LogView

end CommandConsole
