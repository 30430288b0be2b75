import CommandConsole.Diagnostic
import CommandConsole.Signature
import CommandConsole.Text.Blank
import CommandConsole.Trie.Basic

/-!
# The registry of commands

The known commands, found by name, listed in the order of their registration, and looked up by the
beginning of a name in byte order.

## Main definitions

- `Command κ` — a signature with what is filed under it
- `Registry κ` — the known commands
- `Registry.register`, `Registry.remove`, `Registry.offer` — the changes
- `Registry.commands`, `Registry.visible`, `Registry.visibleWithPrefix` — the listings
- `Registry.catalogue` — the registry without what is filed

## Design notes

A registry does not care what is filed under a signature. The console files the handlers of its
commands; a handler that runs is shown the catalogue, where nothing is filed.
-/

namespace CommandConsole

/-- A signature with what is filed under it. -/
structure Command (κ : Type) where
  signature : Signature
  /-- What is filed under it. -/
  handler : κ

namespace Command

variable {κ κ' : Type}

/-- The name by which a command is called. -/
def name (command : Command κ) : String := command.signature.name

/-- Whether a command is listed and suggested. -/
def isVisible (command : Command κ) : Bool := !command.signature.hidden

/-- A command that is listed. -/
def listed (name : String) (handler : κ) (arguments : List String) (required : Nat)
    (description : String) : Command κ :=
  ⟨{ name, arguments, required, description }, handler⟩

/-- A command that can be called and is not listed. -/
def unlisted (name : String) (handler : κ) (arguments : List String) (required : Nat) : Command κ :=
  ⟨{ name, arguments, required, hidden := true }, handler⟩

/-- File something else. -/
def map (f : κ → κ') (command : Command κ) : Command κ' :=
  ⟨command.signature, f command.handler⟩

end Command

/-- Why a registration, or a change to a command, is refused. -/
inductive RegistryError where
  | emptyName
  | blankInName (name : String)
  | tooManyRequired (name : String) (required declared : Nat)
  | unknown (name : String)
  deriving DecidableEq, Repr

/-- The wording of an error. -/
def RegistryError.message : RegistryError → String
  | emptyName => "invalid argument: command name is empty"
  | blankInName name => "invalid argument: command name '" ++ name ++ "' contains whitespace"
  | tooManyRequired name required declared =>
    "invalid argument: '" ++ name ++ "' requires " ++ toString required ++
      " arguments but declares only " ++ toString declared
  | unknown name => "unknown command '" ++ name ++ "'"

/-- What a registration has done. -/
inductive Registration where
  | added
  /-- It took the place of a command of the same name. -/
  | replaced
  deriving DecidableEq, Repr

/-- What the log is told of a registration under `name`. -/
def Registration.diagnostics (name : String) : Registration → List Diagnostic
  | added => []
  | replaced => [⟨.warn, "Console: Overwriting existing command '" ++ name ++ "'"⟩]

/-- The first reason to refuse a signature, if there is one. -/
def Signature.fault? (signature : Signature) : Option RegistryError :=
  if signature.name == "" then some .emptyName
  else if signature.name.toList.any Text.isBlank then some (.blankInName signature.name)
  else if signature.declared < signature.required then
    some (.tooManyRequired signature.name signature.required signature.declared)
  else none

/-- The known commands. -/
structure Registry (κ : Type) where
  /-- The names, for look-ups by prefix. -/
  index : Trie Unit := .empty
  /-- The commands by name. -/
  table : Dictionary String (Command κ) := .empty
  /-- The names in the order of registration. -/
  order : List String := []

namespace Registry

variable {κ κ' : Type}

/-- The registry without commands. -/
def empty : Registry κ := {}

instance : EmptyCollection (Registry κ) := ⟨empty⟩

instance : Inhabited (Registry κ) := ⟨empty⟩

/-- The number of commands, hidden ones included. -/
def size (registry : Registry κ) : Nat := registry.table.size

/-- Whether there is no command. -/
def isEmpty (registry : Registry κ) : Bool := registry.table.isEmpty

/-- The command of a name. -/
def find? (registry : Registry κ) (name : String) : Option (Command κ) :=
  registry.table.find? name

/-- Whether there is a command of a name. -/
def contains (registry : Registry κ) (name : String) : Bool := registry.table.contains name

/-- File a command under its name. A command of the same name is replaced and keeps its place in the
listings. A registry that refuses the command stays as it is. -/
def register (registry : Registry κ) (command : Command κ) :
    Except RegistryError Registration × Registry κ :=
  match command.signature.fault? with
  | some fault => (.error fault, registry)
  | none =>
    let name := command.name
    if registry.contains name then
      (.ok .replaced, { registry with table := registry.table.insert name command })
    else
      (.ok .added,
        { index := (registry.index.insert name ()).2
          table := registry.table.insert name command
          order := registry.order ++ [name] })

/-- Take a command away. Answers the command, if there was one. -/
def remove (registry : Registry κ) (name : String) : Option (Command κ) × Registry κ :=
  match registry.find? name with
  | none => (none, registry)
  | some command =>
    (some command,
      { index := (registry.index.erase name).2
        table := registry.table.erase name
        order := registry.order.filter (· ≠ name) })

/-- Offer `values` for the argument at `place` of a command, or nothing if there are none. -/
def offer (registry : Registry κ) (name : String) (place : Nat) (values : List String) :
    Except RegistryError Unit × Registry κ :=
  match registry.find? name with
  | none => (.error (.unknown name), registry)
  | some command =>
    let command := { command with signature := command.signature.offer place values }
    (.ok (), { registry with table := registry.table.insert name command })

/-- All commands in the order of registration. -/
def commands (registry : Registry κ) : List (Command κ) :=
  registry.order.filterMap registry.find?

/-- The names of all commands in the order of registration. -/
def names (registry : Registry κ) : List String := registry.commands.map (·.name)

/-- The commands that are not hidden, in the order of registration. -/
def visible (registry : Registry κ) : List (Command κ) :=
  registry.commands.filter (·.isVisible)

/-- The names of the commands that are not hidden, in the order of registration. -/
def visibleNames (registry : Registry κ) : List String := registry.visible.map (·.name)

/-- The command of a name, unless it is hidden. -/
def findVisible? (registry : Registry κ) (name : String) : Option (Command κ) :=
  (registry.find? name).filter (·.isVisible)

/-- The names that start with `text` of the commands that are not hidden, in byte order. -/
def visibleWithPrefix (registry : Registry κ) (text : String) : List String :=
  (registry.index.keysWithPrefix text).filter fun name => (registry.findVisible? name).isSome

/-- The registry with something else filed under each signature. -/
def map (f : κ → κ') (registry : Registry κ) : Registry κ' :=
  { registry with table := registry.table.map (·.map f) }

/-- The signatures, with nothing filed under them. -/
def catalogue (registry : Registry κ) : Registry Unit := registry.map fun _ => ()

/-- What is found in the catalogue is what is registered, without what is filed. -/
@[simp] theorem find?_map (f : κ → κ') (registry : Registry κ) (name : String) :
    (registry.map f).find? name = (registry.find? name).map (·.map f) :=
  Dictionary.find?_map _ _ _

end Registry

end CommandConsole
