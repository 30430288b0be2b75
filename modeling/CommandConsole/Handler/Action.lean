import CommandConsole.Handler.Arguments
import CommandConsole.History
import CommandConsole.Registry
import CommandConsole.Request
import CommandConsole.Scrollback

/-!
# Actions of handlers

A handler is a program over its context. It may look at the context, change the output, the history
and the world, and put requests to the host; the registry it can only look at. It ends with a result
or with a fault, and what it did before a fault stays done.

## Main definitions

- `Context ω` — what a running handler can reach
- `Operation ω`, `Context.apply` — one change to it
- `Action ω α` — a program that ends with a value of `α`
- `Action.run` — what a program does to a context, and how it ends
- `Handler ω` — a program for each list of arguments

## Design notes

A program is a tree of operations and not a function on contexts, so that every handler, whatever it
decides on, reaches the console through the operations alone.
-/

namespace CommandConsole

/-- What a running handler can reach. The world of type `ω` belongs to the application; without an
application there is none. -/
structure Context (ω : Type) where
  catalogue : Registry Unit
  output : Scrollback
  history : History
  /-- The requests put to the host so far and not yet taken, oldest first. -/
  requests : List Request
  /-- The world of the application. -/
  world : Option ω

/-- A change to the context of a handler. -/
inductive Operation (ω : Type) where
  | output (edit : Scrollback.Edit)
  | history (edit : History.Edit)
  | request (request : Request)
  /-- Change the world, if there is one. -/
  | world (update : ω → ω)

/-- Carry out an operation. -/
def Context.apply {ω : Type} (context : Context ω) : Operation ω → Context ω
  | .output edit => { context with output := context.output.edit edit }
  | .history edit => { context with history := context.history.edit edit }
  | .request request => { context with requests := context.requests ++ [request] }
  | .world update => { context with world := context.world.map update }

/-- A program over a context that ends with a value of `α` or with a fault. -/
inductive Action (ω α : Type) where
  | done (value : α)
  | stop (fault : Fault)
  | perform (operation : Operation ω) (next : Action ω α)
  | inspect (next : Context ω → Action ω α)

/-- What is called when a command is run. -/
abbrev Handler (ω : Type) := Arguments → Action ω Unit

namespace Action

variable {ω α β : Type}

/-- Run a program in a context. Answers how it ends and the context that it leaves. -/
def run : Action ω α → Context ω → Except Fault α × Context ω
  | done value, context => (.ok value, context)
  | stop fault, context => (.error fault, context)
  | perform operation next, context => next.run (context.apply operation)
  | inspect next, context => (next context).run context

/-- The program that goes on with `next` where the first one ends with a value. -/
def andThen : Action ω α → (α → Action ω β) → Action ω β
  | done value, next => next value
  | stop fault, _ => stop fault
  | perform operation rest, next => perform operation (rest.andThen next)
  | inspect rest, next => inspect fun context => (rest context).andThen next

instance : Monad (Action ω) where
  pure := done
  bind := andThen

/-- Running two programs one after the other is running the first and then, unless it ends with a
fault, the second in the context that it leaves. -/
theorem run_andThen (first : Action ω α) (next : α → Action ω β) (context : Context ω) :
    (first.andThen next).run context =
      match first.run context with
      | (.ok value, context) => (next value).run context
      | (.error fault, context) => (.error fault, context) := by
  induction first generalizing context with
  | done value => rfl
  | stop fault => rfl
  | perform operation rest ih => exact ih _
  | inspect rest ih => exact ih context context

/-- One operation. -/
def act (operation : Operation ω) : Action ω Unit := perform operation (done ())

/-- End as a computation without a context has ended. -/
def ofExcept : Except Fault α → Action ω α
  | .ok value => done value
  | .error fault => stop fault

/-- Give up, for the reason `message`. -/
def fail (message : String) : Action ω α := stop (.failed message)

/-- Crash, with a text or without one. -/
def crash (message? : Option String) : Action ω α := stop (.crashed message?)

/-- Look at the context. -/
def context : Action ω (Context ω) := inspect done

/-- Look at the known commands. -/
def catalogue : Action ω (Registry Unit) := inspect fun context => done context.catalogue

/-- Whether there is a world. -/
def hasWorld : Action ω Bool := inspect fun context => done context.world.isSome

/-- Append a text to the output. -/
def print (style : Style) (text : String) : Action ω Unit := act (.output (.push style text))

/-- Append a text without a style. -/
def line (text : String) : Action ω Unit := print .plain text

/-- Append general information. -/
def info (text : String) : Action ω Unit := print .info text

/-- Append a warning. -/
def warning (text : String) : Action ω Unit := print .warning text

/-- Append an error. -/
def error (text : String) : Action ω Unit := print .error text

/-- Put a request to the host. -/
def request (request : Request) : Action ω Unit := act (.request request)

/-- Change the world. Without one this fails. -/
def updateWorld (update : ω → ω) : Action ω Unit :=
  inspect fun context =>
    if context.world.isSome then act (.world update) else stop .noWorld

end Action

end CommandConsole
