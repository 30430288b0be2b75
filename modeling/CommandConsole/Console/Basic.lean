import CommandConsole.Completion.Cycle
import CommandConsole.Handler.Action
import CommandConsole.Observers
import CommandConsole.Settings
import CommandConsole.Visibility

/-!
# The console

The console owns the commands, the history, the output, the completion of the input and its own
visibility. This module holds everything but the running of lines.

## Main definitions

- `Console ω ε` — the console of an application with a world of type `ω`, whose observers record
  values of type `ε`
- `Console.new` — a console without commands
- `Console.applySettings` — carry over what has changed in the settings
- `Console.applyEffects` — announce a change of visibility

## Design notes

What leaves the console is listed in it, oldest first, until it is taken: requests to the host, the
messages for the log, and what the observers recorded. Nothing else of the world outside is touched.
-/

namespace CommandConsole

/-- A console. -/
structure Console (ω ε : Type) where
  registry : Registry (Handler ω) := .empty
  history : History := {}
  output : Scrollback := {}
  completion : Completion := .empty
  visibility : Visibility := {}
  fontSize : Nat := 14
  /-- The requests to the host that it has not taken yet. -/
  requests : List Request := []
  /-- Who is told that the console has become visible. -/
  onOpened : Observers Unit ε := .empty
  /-- Who is told that the console has become hidden. -/
  onClosed : Observers Unit ε := .empty
  /-- Who is told the line when it names no known command. -/
  onUnknown : Observers String ε := .empty
  /-- The messages for the log that have not been taken yet. -/
  diagnostics : List Diagnostic := []
  /-- What the observers recorded and nobody has taken yet. -/
  notices : List ε := []

namespace Console

variable {ω ε : Type}

/-- Tell the log something. -/
def note (console : Console ω ε) (level : Level) (message : String) : Console ω ε :=
  { console with diagnostics := console.diagnostics ++ [⟨level, message⟩] }

/-- Keep what observers recorded. -/
def notify (console : Console ω ε) (recorded : List ε) : Console ω ε :=
  { console with notices := console.notices ++ recorded }

/-! ## Visibility -/

/-- Announce one effect of a change of visibility: to the host as a request, or to the log and the
observers. -/
def applyEffect (console : Console ω ε) : Visibility.Effect → Console ω ε
  | .pause => { console with requests := console.requests ++ [.pause] }
  | .resume => { console with requests := console.requests ++ [.resume] }
  | .opened => (console.note .debug "Console: opened").notify (console.onOpened.notify ())
  | .closed => (console.note .debug "Console: closed").notify (console.onClosed.notify ())

/-- Take over a visibility and announce the effects of the change, in order. -/
def applyEffects (console : Console ω ε) (change : List Visibility.Effect × Visibility) :
    Console ω ε :=
  change.1.foldl applyEffect { console with visibility := change.2 }

/-- Let the console be opened. A build that forbids it is noted. -/
def enable (console : Console ω ε) : Console ω ε :=
  let (allowed, visibility) := console.visibility.enable
  let console := { console with visibility }
  if allowed then console
  else console.note .warn
    "Console: not enabled, release builds require enabled_on_release_build"

/-- Close the console if it is open, and let it not be opened any more. -/
def disable (console : Console ω ε) : Console ω ε :=
  console.applyEffects console.visibility.disable

/-- Show the console if it is closed. -/
def openUp (console : Console ω ε) : Console ω ε :=
  console.applyEffects console.visibility.openUp

/-- Hide the console if it is open. -/
def close (console : Console ω ε) : Console ω ε :=
  console.applyEffects console.visibility.close

/-- Hide the console if it is open, and show it if it is closed. -/
def toggle (console : Console ω ε) : Console ω ε :=
  console.applyEffects console.visibility.toggle

/-- Say whether this is a release build. -/
def setReleaseBuild (console : Console ω ε) (on : Bool) : Console ω ε :=
  console.applyEffects (console.visibility.setReleaseBuild on)

/-- Allow or forbid the console in release builds. -/
def setAllowedInRelease (console : Console ω ε) (on : Bool) : Console ω ε :=
  console.applyEffects (console.visibility.setAllowedInRelease on)

/-- Couple opening and closing to the clock of the host, or uncouple them. -/
def setPauseEnabled (console : Console ω ε) (on : Bool) : Console ω ε :=
  { console with visibility := console.visibility.setPauseEnabled on }

/-! ## Making and changing a console -/

/-- A console without commands, in a debug build. That of a release build is this one followed by the move
`Visibility.Move.releaseBuild`, but for a note in the log if the build then forbids a console that is enabled. -/
def new (settings : Settings) : Console ω ε :=
  let visibility :=
    ((Visibility.new false).setPauseEnabled settings.pauseEnabled).setAllowedInRelease
      settings.allowedInRelease
  let console : Console ω ε :=
    { history := .new settings.historyCapacity
      output := .new settings.maxOutputRows
      visibility := visibility.2
      fontSize := settings.fontSize }
  if settings.enabled then console.enable else console

/-- Choose the size of the letters. -/
def setFontSize (console : Console ω ε) (size : Nat) : Console ω ε := { console with fontSize := size }

/-- Change the history. -/
def editHistory (console : Console ω ε) (edit : History.Edit) : Console ω ε :=
  { console with history := console.history.edit edit }

/-- Change the output. -/
def editOutput (console : Console ω ε) (edit : Scrollback.Edit) : Console ω ε :=
  { console with output := console.output.edit edit }

/-- Make a change if a condition holds. -/
def changeIf (changed : Bool) (change : Console ω ε → Console ω ε) (console : Console ω ε) :
    Console ω ε :=
  if changed then change console else console

/-- Carry over what differs between two settings. What was changed otherwise since `before` stays if
the settings agree on it. -/
def applySettings (console : Console ω ε) (before after : Settings) : Console ω ε :=
  console
    |> changeIf (before.allowedInRelease != after.allowedInRelease)
        (·.setAllowedInRelease after.allowedInRelease)
    |> changeIf (before.pauseEnabled != after.pauseEnabled) (·.setPauseEnabled after.pauseEnabled)
    |> changeIf (before.fontSize != after.fontSize) (·.setFontSize after.fontSize)
    |> changeIf (before.historyCapacity != after.historyCapacity)
        (·.editHistory (.limit after.historyCapacity))
    |> changeIf (before.maxOutputRows != after.maxOutputRows)
        (·.editOutput (.limit after.maxOutputRows))
    |> changeIf (before.enabled != after.enabled)
        (fun console => if after.enabled then console.enable else console.disable)

/-! ## Commands -/

/-- Register a command. Replacing one is noted. -/
def register (console : Console ω ε) (command : Command (Handler ω)) :
    Except RegistryError Registration × Console ω ε :=
  let (result, registry) := console.registry.register command
  let told := match result with
    | .ok registration => registration.diagnostics command.name
    | .error _ => []
  (result, { console with registry, diagnostics := console.diagnostics ++ told })

/-- Take a command away. Answers whether there was one. -/
def remove (console : Console ω ε) (name : String) : Bool × Console ω ε :=
  let (removed, registry) := console.registry.remove name
  (removed.isSome, { console with registry })

/-- Offer `values` for the argument at `place` of a command. The suggestions given so far are
forgotten. -/
def offer (console : Console ω ε) (name : String) (place : Nat) (values : List String) :
    Except RegistryError Unit × Console ω ε :=
  let (result, registry) := console.registry.offer name place values
  match result with
  | .ok () => (.ok (), { console with registry, completion := console.completion.reset })
  | .error error => (.error error, console)

/-! ## The input line -/

/-- The next suggestion for the input. -/
def complete (console : Console ω ε) (input : String) : String × Console ω ε :=
  let (text, completion) := console.completion.complete console.registry input
  (text, { console with completion })

/-- Forget the suggestions given so far. -/
def resetCompletion (console : Console ω ε) : Console ω ε :=
  { console with completion := console.completion.reset }

/-- Show an older line in place of the input. -/
def older (console : Console ω ε) (input : String) : String × Console ω ε :=
  let (line, history) := console.history.older input
  (line, { console with history })

/-- Show a newer line, or the saved input. -/
def newer (console : Console ω ε) : String × Console ω ε :=
  let (line, history) := console.history.newer
  (line, { console with history })

/-- The input was edited by hand: browsing ends and completion starts over. -/
def inputEdited (console : Console ω ε) : Console ω ε :=
  (console.editHistory .leave).resetCompletion

/-! ## Output and requests -/

/-- The level at which a printed text is told to the log. -/
def printLevel : Style → Level
  | .plain | .info => .info
  | .warning => .warn
  | .error => .error

/-- Append a text to the output, and tell it to the log too if `toLog`. -/
def print (console : Console ω ε) (style : Style) (text : String) (toLog : Bool) : Console ω ε :=
  let console := console.editOutput (.push style text)
  if toLog then console.note (printLevel style) text else console

/-- Whether the display has been asked to show the newest row; the request is then forgotten. -/
def takeScroll (console : Console ω ε) : Bool × Console ω ε :=
  (console.output.takeScroll.1, console.editOutput .takeScroll)

/-- Take the requests to the host. -/
def takeRequests (console : Console ω ε) : List Request × Console ω ε :=
  (console.requests, { console with requests := [] })

/-- Take the messages for the log. -/
def takeDiagnostics (console : Console ω ε) : List Diagnostic × Console ω ε :=
  (console.diagnostics, { console with diagnostics := [] })

/-- Take what the observers recorded. -/
def takeNotices (console : Console ω ε) : List ε × Console ω ε :=
  (console.notices, { console with notices := [] })

end Console

end CommandConsole
