import CommandConsole.Diagnostic

/-!
# Capture of the process log

Events of the process log are shown in the output of the console. The console's own messages, which
carry a target of their own, are left out: what it prints and logs would else come back to it.

## Main definitions

- `LogEvent` — an event of the process log
- `LogRecord`, `LogEvent.record?` — what is captured of an event, if anything
- `Capture` — the records that have been captured and not yet shown
- `LogRecord.showAll` — show records in the output
-/

namespace CommandConsole

/-- The target of the console's own messages. -/
def ownTarget : String := "dev_console"

/-- An event of the process log. -/
structure LogEvent where
  level : Level
  /-- The part of the program that it comes from. -/
  target : String
  message? : Option String
  deriving DecidableEq, Repr

/-- What is captured of an event. -/
structure LogRecord where
  level : Level
  /-- The part of the program that it comes from. -/
  target : String
  message : String
  deriving DecidableEq, Repr

/-- What is captured of an event: nothing if the console itself told it or if it has no message. -/
def LogEvent.record? (event : LogEvent) : Option LogRecord :=
  if event.target == ownTarget then none
  else event.message?.map fun message => ⟨event.level, event.target, message⟩

/-- A message of the console as an event of the process log. -/
def Diagnostic.event (diagnostic : Diagnostic) : LogEvent :=
  ⟨diagnostic.level, ownTarget, some diagnostic.message⟩

/-- The capture of the process log. -/
structure Capture where
  installed : Bool := false
  /-- The captured records that have not been shown yet, oldest first. -/
  records : List LogRecord := []
  deriving DecidableEq, Repr

namespace Capture

instance : Inhabited Capture := ⟨{}⟩

/-- Capture an event. -/
def observe (capture : Capture) (event : LogEvent) : Capture :=
  if capture.installed then { capture with records := capture.records ++ event.record?.toList }
  else capture

/-- Capture events in order. -/
def observeAll (capture : Capture) (events : List LogEvent) : Capture :=
  events.foldl observe capture

/-- Take the records captured so far. -/
def take (capture : Capture) : List LogRecord × Capture :=
  (capture.records, { capture with records := [] })

end Capture

namespace LogRecord

/-- The style in which a record is shown. -/
def style (record : LogRecord) : Style := record.level.style

/-- Show one record in the output. -/
def showIn (output : Scrollback) (record : LogRecord) : Scrollback :=
  output.push record.style record.message

/-- Show records in the output, in order. -/
def showAll (records : List LogRecord) (output : Scrollback) : Scrollback :=
  records.foldl showIn output

end LogRecord

end CommandConsole
