import CommandConsole.Host.Basic

/-!
# The frame

What the application does with its console in each round of its loop, step by step: it reads what was
typed, tells the console of changed settings, runs the submitted lines, serves the requests, sends on
the notifications, shows the captured log and prints the new rows.

## Main definitions

- `Host.readTyped`, `Host.applySettings`, `Host.queueInputs`, `Host.runPending`, `Host.serveRequests`,
  `Host.sendNotifications`, `Host.showCaptured`, `Host.print` — the steps
- `Host.frame` — the steps in order
-/

namespace CommandConsole.Host

variable {ω ε : Type}

/-- Submit what was typed at the terminal. -/
def readTyped (host : Host ω ε) : Host ω ε :=
  { host with inputs := host.inputs ++ host.typed, typed := [] }

/-- Tell the console the settings that have changed since it was last told. -/
def applySettings (host : Host ω ε) : Host ω ε :=
  if host.applied = host.settings then host
  else
    let host := host.changeConsole fun console =>
      (console.note .debug ("Console: applying config " ++ host.settings.summary)).applySettings
        host.applied host.settings
    { host with applied := host.settings }

/-- Read the submitted lines. -/
def queueInputs (host : Host ω ε) : Host ω ε :=
  { host with pending := host.pending ++ host.inputs, inputs := [] }

/-- Run one line in the world of the application. -/
def runLine (host : Host ω ε) (line : String) : Host ω ε :=
  let (_, console, world) := host.console.executeIn line host.world
  { host with console, world }.collect

/-- Run the lines that were read, in order. -/
def runPending (host : Host ω ε) : Host ω ε :=
  { host.pending.foldl runLine host with pending := [] }

/-- Say that there is no clock to stop or to start. -/
def noteMissingClock (host : Host ω ε) (request : Request) : Host ω ε :=
  host.changeConsole (·.note .warn
    ("Console: " ++ request.name ++ " requested but there is no virtual clock"))

/-- Do what the console asks for. -/
def serve (host : Host ω ε) (request : Request) : Host ω ε :=
  match request, host.clock with
  | .pause, some _ => { host with clock := some true }
  | .resume, some _ => { host with clock := some false }
  | .pause, none | .resume, none => host.noteMissingClock request
  | .quit, _ =>
    let host := host.changeConsole (·.note .info "Console: quit requested")
    { host with outbox := { host.outbox with exits := host.outbox.exits + 1 } }

/-- Serve the requests of the console, in order. -/
def serveRequests (host : Host ω ε) : Host ω ε :=
  let (requests, host) := host.onConsole (·.takeRequests)
  requests.foldl serve host

/-- Send a notification on as a message. -/
def send (outbox : Outbox ε) : Notification → Outbox ε
  | .toggled isOpen => { outbox with toggles := outbox.toggles ++ [isOpen] }
  | .unknownCommand line => { outbox with unknown := outbox.unknown ++ [line] }

/-- Send on the notifications of the console, in order. -/
def sendNotifications (host : Host ω ε) : Host ω ε :=
  { host with outbox := host.channel.foldl send host.outbox, channel := [] }

/-- Show in the output what was captured of the process log. -/
def showCaptured (host : Host ω ε) : Host ω ε :=
  let (records, capture) := host.capture.take
  { host with
    capture
    console := { host.console with output := LogRecord.showAll records host.console.output }
    outbox := { host.outbox with captured := host.outbox.captured ++ records } }

/-- Print the new rows of the output. -/
def print (host : Host ω ε) : Host ω ε :=
  let (lines, terminal) := host.terminal.write host.console.output
  { host with
    terminal
    outbox := { host.outbox with printed := host.outbox.printed ++ lines } }

/-- The part of a frame in which the console is driven. -/
def update (host : Host ω ε) : Host ω ε :=
  host.applySettings.queueInputs.runPending.serveRequests.sendNotifications

/-- A frame. -/
def frame (host : Host ω ε) : Host ω ε :=
  host.readTyped.update.showCaptured.print

end CommandConsole.Host
