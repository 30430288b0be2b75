import CommandConsole.Console.Basic

/-!
# Built-in commands

The commands that every console can have: listings of the commands, the clearing of output and
history, and the requests to the host. The listings leave hidden commands out, but the overview of
`help` looks its commands up by name and shows them as they are registered.

## Main definitions

- `Builtin.commands` — the built-in commands in the order of their registration
- `Console.registerBuiltins`, `Console.withBuiltins`
-/

namespace CommandConsole

namespace Builtin

variable {ω : Type}

/-- The commands that the help overview describes, as far as they are registered. -/
def overviewNames : List String :=
  ["help", "commands_list", "commands", "clear", "delete_history", "quit"]

/-- A command in the help overview. -/
def overviewLine (signature : Signature) : String :=
  "  " ++ signature.usage ++ " - " ++ signature.description

/-- A command in the listing of all commands. -/
def listingLine (signature : Signature) : String :=
  if signature.description == "" then signature.usage
  else signature.usage ++ " - " ++ signature.description

/-- The arguments for which values are offered, each one with its values. -/
def offerLines (signature : Signature) : List String :=
  signature.arguments.zipIdx.filterMap fun (argument, place) =>
    let values := signature.offersAt place
    if values.isEmpty then none
    else some ("  " ++ argument ++ ": " ++ String.intercalate ", " values)

/-- Describe the built-in commands and the keys. A hidden command is described like any other. -/
def helpOverview : Action ω Unit := do
  Action.line "Built-in commands:"
  let catalogue ← Action.catalogue
  (overviewNames.filterMap catalogue.find?).forM fun command =>
    Action.line (overviewLine command.signature)
  Action.line "Controls:"
  Action.line "  Up/Down arrow keys browse the command history"
  Action.line "  Tab cycles through autocomplete suggestions"
  Action.info "Type 'help <command>' for details on one command."

/-- Describe one command that is not hidden. -/
def helpOn (name : String) : Action ω Unit := do
  let catalogue ← Action.catalogue
  match catalogue.findVisible? name with
  | none => Action.fail ("unknown command '" ++ name ++ "'")
  | some command =>
    let signature := command.signature
    Action.line ("Usage: " ++ signature.usage)
    if signature.description != "" then Action.info signature.description
    (offerLines signature).forM Action.line

/-- Describe the built-in commands, or the one command that is named. -/
def help : Handler ω := fun arguments =>
  match arguments.get? 0 with
  | none => helpOverview
  | some name => helpOn name

/-- List the names of the commands in byte order. -/
def listNames : Handler ω := fun _ => do
  let catalogue ← Action.catalogue
  (catalogue.visibleWithPrefix "").forM Action.line

/-- List the commands in the order of their registration, with their usage and description. -/
def listCommands : Handler ω := fun _ => do
  let catalogue ← Action.catalogue
  catalogue.visible.forM fun command => Action.line (listingLine command.signature)

/-- Drop the output. -/
def clearOutput : Handler ω := fun _ => Action.act (.output .clear)

/-- Forget the submitted lines. -/
def clearHistory : Handler ω := fun _ => Action.act (.history .clear)

/-- Ask the host to end. -/
def quit : Handler ω := fun _ => Action.request .quit

/-- Ask the host to stop the clock. -/
def pause : Handler ω := fun _ => do
  Action.request .pause
  Action.info "Paused"

/-- Ask the host to let the clock go on. -/
def unpause : Handler ω := fun _ => do
  Action.request .resume
  Action.info "Unpaused"

/-- The built-in commands in the order of their registration. -/
def commands : List (Command (Handler ω)) :=
  [.listed "help" help ["command"] 0 "Show help, or usage for one command",
   .listed "commands_list" listNames [] 0 "List command names, sorted",
   .listed "commands" listCommands [] 0 "List commands with their usage and description",
   .listed "clear" clearOutput [] 0 "Clear the console output",
   .listed "delete_history" clearHistory [] 0 "Forget all submitted commands",
   .listed "quit" quit [] 0 "Exit the application",
   .listed "pause" pause [] 0 "Pause simulation time",
   .listed "unpause" unpause [] 0 "Resume simulation time"]

end Builtin

namespace Console

variable {ω ε : Type}

/-- Register one built-in command. A refusal is noted. -/
def registerBuiltin (console : Console ω ε) (command : Command (Handler ω)) : Console ω ε :=
  match console.register command with
  | (.ok _, console) => console
  | (.error error, console) =>
    console.note .error
      ("Console: failed to register built-in '" ++ command.name ++ "': " ++ error.message)

/-- Register the built-in commands. -/
def registerBuiltins (console : Console ω ε) : Console ω ε :=
  Builtin.commands.foldl registerBuiltin console

/-- A console with the built-in commands. -/
def withBuiltins (settings : Settings) : Console ω ε :=
  (Console.new settings).registerBuiltins

end Console

end CommandConsole
