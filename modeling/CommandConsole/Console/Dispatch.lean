import CommandConsole.Console.Basic
import CommandConsole.Line.Basic
import CommandConsole.Spelling.Hint

/-!
# Running a submitted line

A line that names a command is echoed and recorded. Then its command is looked up, its arguments are
counted, and its handler is run; whatever goes wrong is reported in the output and does not leave the
console.

## Main definitions

- `Outcome` — how a line ended
- `Console.dispatch` — run a line, with or without the world of an application
- `Console.execute`, `Console.executeIn` — the two ways to call it
-/

namespace CommandConsole

/-- How a submitted line ended. -/
inductive Outcome where
  | empty
  | executed
  | unknownCommand
  /-- Required arguments are missing, and the handler was not run. -/
  | missingArguments (missing : List String)
  | handlerFailed (message : String)
  deriving DecidableEq, Repr

/-- Whether the handler was run and ended without a fault. -/
def Outcome.isSuccess : Outcome → Bool
  | executed => true
  | _ => false

namespace Console

variable {ω ε : Type}

/-- Echo and record a line that was submitted, and forget the suggestions. -/
def echo (console : Console ω ε) (line : String) : Console ω ε :=
  let submitted := Text.trim line
  { console with
    output := console.output.plain ("> " ++ submitted)
    history := console.history.record submitted
    completion := console.completion.reset }

/-- The visible command that may have been meant by an unknown name. -/
def hint? (console : Console ω ε) (name : String) : Option String :=
  Spelling.closest? name console.registry.visibleNames

/-- Report a line whose command `name` is not known: to the log, to the observers and in the output,
with a hint if there is one. -/
def reportUnknown (console : Console ω ε) (line name : String) : Console ω ε :=
  let console := console.note .debug ("Console: unknown command '" ++ name ++ "'")
  let console := console.notify (console.onUnknown.notify line)
  let output := console.output.error ("Command not found: '" ++ name ++ "'")
  { console with
    output := match console.hint? name with
      | none => output
      | some meant => output.info ("Did you mean '" ++ meant ++ "'?") }

/-- The report of missing arguments. -/
def missingText (signature : Signature) (missing : List String) : String :=
  let listed := String.intercalate ", " (missing.map fun name => "<" ++ name ++ ">")
  "Missing argument(s) for '" ++ signature.name ++ "': " ++ listed ++ ". Usage: " ++ signature.usage

/-- Report that required arguments are missing. -/
def reportMissing (console : Console ω ε) (signature : Signature) (missing : List String) :
    Console ω ε :=
  { console with output := console.output.error (missingText signature missing) }

/-- Report the fault of a handler to the log and in the output. -/
def reportFault (console : Console ω ε) (name : String) (fault : Fault) : Console ω ε :=
  let message := fault.message
  let (told, shown) := match fault with
    | .failed _ =>
      ("Console: command '" ++ name ++ "' failed: " ++ message, name ++ ": " ++ message)
    | .crashed _ =>
      ("Console: command '" ++ name ++ "' panicked: " ++ message,
        "Command '" ++ name ++ "' panicked: " ++ message)
  let console := console.note .warn told
  { console with output := console.output.error shown }

/-- What a handler of this console can reach. -/
def context (console : Console ω ε) (world : Option ω) : Context ω :=
  { catalogue := console.registry.catalogue
    output := console.output
    history := console.history
    requests := console.requests
    world }

/-- Take over what a handler has left. -/
def adopt (console : Console ω ε) (context : Context ω) : Console ω ε :=
  { console with
    output := context.output
    history := context.history
    requests := context.requests }

/-- Run the handler of a command. What it did before a fault stays done. -/
def invoke (console : Console ω ε) (command : Command (Handler ω)) (arguments : Arguments)
    (world : Option ω) : Outcome × Console ω ε × Option ω :=
  let (result, context) := (command.handler arguments).run (console.context world)
  let console := console.adopt context
  match result with
  | .ok () => (.executed, console, context.world)
  | .error fault =>
    (.handlerFailed fault.message, console.reportFault command.name fault, context.world)

/-- Run a submitted line. -/
def dispatch (console : Console ω ε) (line : String) (world : Option ω) :
    Outcome × Console ω ε × Option ω :=
  let said := Line.read line
  if said.isEmpty then (.empty, console, world)
  else
    let console := console.echo line
    match console.registry.find? said.command with
    | none => (.unknownCommand, console.reportUnknown line said.command, world)
    | some command =>
      if said.arguments.length < command.signature.required then
        let missing := command.signature.missing said.arguments.length
        (.missingArguments missing, console.reportMissing command.signature missing, world)
      else console.invoke command ⟨line, said.arguments⟩ world

/-- Run a submitted line without an application. -/
def execute (console : Console ω ε) (line : String) : Outcome × Console ω ε :=
  let (outcome, console, _) := console.dispatch line none
  (outcome, console)

/-- Run a submitted line in an application with the given world. -/
def executeIn (console : Console ω ε) (line : String) (world : ω) : Outcome × Console ω ε × ω :=
  let (outcome, console, left) := console.dispatch line (some world)
  (outcome, console, left.getD world)

end Console

end CommandConsole
