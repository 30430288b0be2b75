import CommandConsole.Console.Builtin
import CommandConsole.Console.Dispatch
import CommandConsole.Host.Capture
import CommandConsole.Host.Terminal

/-!
# The host of a console

An application with a console in it. This module holds its state, its start, and what may happen to it
between two frames; the frame itself is in `CommandConsole.Host.Frame`.

## Main definitions

- `Notification`, `Notice` — what the host is told by the console, beside other observers
- `Outbox` — what has left the application
- `Host ω ε` — the application
- `Host.start` — an application whose console has the built-in commands
- `Host.onConsole` — use the console and collect what leaves it
-/

namespace CommandConsole

/-- What the host is told by the console. -/
inductive Notification where
  /-- The console has become visible or hidden. -/
  | toggled (isOpen : Bool)
  | unknownCommand (line : String)
  deriving DecidableEq, Repr

/-- What an observer of the console records: the host its notifications, others values of `ε`. -/
inductive Notice (ε : Type) where
  | toHost (notification : Notification)
  /-- Something recorded by another observer. -/
  | recorded (value : ε)
  deriving DecidableEq, Repr

namespace Notice

variable {ε : Type}

/-- The notification for the host, if it is one. -/
def notification? : Notice ε → Option Notification
  | toHost notification => some notification
  | recorded _ => none

/-- What another observer recorded, if it is that. -/
def value? : Notice ε → Option ε
  | toHost _ => none
  | recorded value => some value

end Notice

/-- What has left the application, each list oldest first. -/
structure Outbox (ε : Type) where
  /-- Whether the console became visible, for each message about it. -/
  toggles : List Bool := []
  /-- The lines that named no known command, for each message about one. -/
  unknown : List String := []
  /-- How often the end of the application was asked for. -/
  exits : Nat := 0
  captured : List LogRecord := []
  printed : List String := []
  /-- What observers other than the host recorded. -/
  recorded : List ε := []
  /-- What the console told the process log. -/
  diagnostics : List Diagnostic := []

/-- An application with a console in it. -/
structure Host (ω ε : Type) where
  console : Console ω (Notice ε)
  world : ω
  /-- Whether the clock is stopped, if there is a clock. -/
  clock : Option Bool := some false
  settings : Settings := {}
  /-- The settings that the console has been told. -/
  applied : Settings := {}
  /-- The lines typed at the terminal that no frame has read. -/
  typed : List String := []
  /-- The submitted lines that no frame has read. -/
  inputs : List String := []
  /-- The lines read in this frame that have not been run. -/
  pending : List String := []
  /-- The notifications of the console that have not been sent on. -/
  channel : List Notification := []
  terminal : Terminal := {}
  capture : Capture := {}
  outbox : Outbox ε := {}

namespace Host

variable {ω ε α : Type}

/-- Collect what has left the console: notifications for the channel, the records of other observers,
and messages for the process log, where the capture can see them. -/
def collect (host : Host ω ε) : Host ω ε :=
  let (notices, console) := host.console.takeNotices
  let (diagnostics, console) := console.takeDiagnostics
  { host with
    console
    channel := host.channel ++ notices.filterMap Notice.notification?
    capture := host.capture.observeAll (diagnostics.map Diagnostic.event)
    outbox := { host.outbox with
      recorded := host.outbox.recorded ++ notices.filterMap Notice.value?
      diagnostics := host.outbox.diagnostics ++ diagnostics } }

/-- Use the console, and collect what leaves it. -/
def onConsole (host : Host ω ε)
    (use : Console ω (Notice ε) → α × Console ω (Notice ε)) : α × Host ω ε :=
  let (answer, console) := use host.console
  (answer, { host with console }.collect)

/-- Change the console, and collect what leaves it. -/
def changeConsole (host : Host ω ε)
    (change : Console ω (Notice ε) → Console ω (Notice ε)) : Host ω ε :=
  { host with console := change host.console }.collect

/-- A console whose notifications go to the host. -/
def connect (console : Console ω (Notice ε)) : Console ω (Notice ε) :=
  { console with
    onOpened := (console.onOpened.connect fun _ => .toHost (.toggled true)).2
    onClosed := (console.onClosed.connect fun _ => .toHost (.toggled false)).2
    onUnknown := (console.onUnknown.connect fun line => .toHost (.unknownCommand line)).2 }

/-- An application that starts with the given settings. Its console has the built-in commands. -/
def start (settings : Settings) (world : ω) (clock : Option Bool) (terminal : Terminal)
    (capture : Capture) : Host ω ε :=
  { console := connect (.withBuiltins settings)
    world, clock, settings, applied := settings, terminal, capture : Host ω ε }.collect

/-- Submit a line. A later frame runs it. -/
def submit (host : Host ω ε) (line : String) : Host ω ε :=
  { host with inputs := host.inputs ++ [line] }

/-- Type a line at the terminal. Blanks at its ends do not count, and a blank line is not submitted. -/
def typeLine (host : Host ω ε) (line : String) : Host ω ε :=
  let line := Text.trim line
  if line == "" then host else { host with typed := host.typed ++ [line] }

/-- Change the settings of the application. The next frame tells the console. -/
def configure (host : Host ω ε) (settings : Settings) : Host ω ε := { host with settings }

/-- An event of the process log that the console has not told. -/
def log (host : Host ω ε) (event : LogEvent) : Host ω ε :=
  { host with capture := host.capture.observe event }

/-- Take what has left the application. -/
def takeOutbox (host : Host ω ε) : Outbox ε × Host ω ε :=
  (host.outbox, { host with outbox := {} })

end Host

end CommandConsole
