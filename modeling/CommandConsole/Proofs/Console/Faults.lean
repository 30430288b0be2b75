import CommandConsole.Proofs.Console.Dispatch

/-!
# What a fault leaves behind

A handler that fails or crashes ends its line and nothing else. What it did before stays done, its fault is
reported in one row behind all that it printed, and whatever it did not reach is as it was.

## Main definitions

- `Console.EndsInFault` — a line calls a handler that ends with a fault
- `Console.leftByFault` — the console and the world that it leaves

## Main statements

- `Console.EndsInFault.dispatch_eq` — running such a line leaves just that
-/

namespace CommandConsole.Console

variable {ω ε : Type}

/-- The row that reports the fault of a command. -/
def faultRow (name : String) : Fault → String
  | .failed message => name ++ ": " ++ message
  | .crashed message? => "Command '" ++ name ++ "' panicked: " ++ message?.getD "Unknown panic"

/-- What the log is told of the fault of a command. -/
def faultNote (name : String) : Fault → String
  | .failed message => "Console: command '" ++ name ++ "' failed: " ++ message
  | .crashed message? =>
    "Console: command '" ++ name ++ "' panicked: " ++ message?.getD "Unknown panic"

/-- What the handler of a command does with the arguments of a line. -/
def called (line : String) (command : Command (Handler ω)) : Action ω Unit :=
  command.handler ⟨line, (Line.read line).arguments⟩

/-- A line names a command and has the arguments that it requires, and the handler, called when the line has
been echoed and recorded, ends with a fault. -/
structure EndsInFault (console : Console ω ε) (line : String) (world : Option ω)
    (command : Command (Handler ω)) (fault : Fault) : Prop where
  named : (Line.read line).command ≠ ""
  found : console.registry.find? (Line.read line).command = some command
  enough : command.signature.required ≤ (Line.read line).arguments.length
  ends : ((called line command).run ((console.echo line).context world)).1 = .error fault

/-- The console and the world that are left. The line is echoed and recorded, which ends the completion of
the input; then come the operations of the handler up to its fault, and then the report. -/
def leftByFault (console : Console ω ε) (line : String) (world : Option ω)
    (command : Command (Handler ω)) (fault : Fault) : Console ω ε × Option ω :=
  let echoed := (console.echo line).context world
  let left := ((called line command).performed echoed).foldl Context.apply echoed
  ({ console with
      output := left.output.push .error (faultRow command.name fault)
      history := left.history
      requests := left.requests
      completion := .empty
      diagnostics := console.diagnostics ++ [⟨.warn, faultNote command.name fault⟩] },
    left.world)

variable {console : Console ω ε} {line : String} {world : Option ω} {command : Command (Handler ω)}

theorem EndsInFault.dispatch_eq {fault : Fault} (h : EndsInFault console line world command fault) :
    console.dispatch line world =
      (.handlerFailed fault.message, leftByFault console line world command fault) := by
  have hends : ((command.handler ⟨line, (Line.read line).arguments⟩).run
      (console.reachedBy line world)).1 = .error fault := h.ends
  have hinvokes := invokes_of_find? h.named h.found h.enough world
  simp only [hends, List.foldl_append, foldl_openingDeeds, foldl_handle, foldl_reportDeeds] at hinvokes
  rw [hinvokes]
  cases fault with
  | failed message => rfl
  | crashed message? => cases message? <;> rfl

end CommandConsole.Console
