/-!
# Observers

Those who want to be told of an event. Each one is a callback that is given the value of the event
and answers what it records; each connection has an identifier of its own, by which it can be ended.

## Main definitions

- `Observers α ε` — callbacks from values of an event to what they record
- `Observers.connect`, `Observers.disconnect` — begin and end a connection
- `Observers.notify` — what all callbacks record of a value
-/

namespace CommandConsole

/-- Callbacks for one kind of event, in the order in which they were connected. -/
structure Observers (α ε : Type) where
  /-- The callbacks with their identifiers, the oldest connection first. -/
  connected : List (Nat × (α → ε)) := []
  /-- The identifier that the next connection gets: a counter of 64 bits, held as a natural number. -/
  nextId : Nat := 0

namespace Observers

variable {α ε : Type}

/-- No observers, and none before. -/
def empty : Observers α ε := {}

instance : EmptyCollection (Observers α ε) := ⟨empty⟩

instance : Inhabited (Observers α ε) := ⟨empty⟩

/-- The number of callbacks. -/
def size (observers : Observers α ε) : Nat := observers.connected.length

/-- Whether there is no callback. -/
def isEmpty (observers : Observers α ε) : Bool := observers.connected.isEmpty

/-- Add a callback. Answers the identifier of the connection. -/
def connect (observers : Observers α ε) (callback : α → ε) : Nat × Observers α ε :=
  (observers.nextId,
    { connected := observers.connected ++ [(observers.nextId, callback)]
      nextId := observers.nextId + 1 })

/-- End a connection. Answers whether there was one with this identifier. -/
def disconnect (observers : Observers α ε) (id : Nat) : Bool × Observers α ε :=
  (observers.connected.any (·.1 == id),
    { observers with connected := observers.connected.filter (·.1 != id) })

/-- What the callbacks record of `value`, in the order of their connections. -/
def notify (observers : Observers α ε) (value : α) : List ε :=
  observers.connected.map fun (_, callback) => callback value

/-- A one-line summary for log messages. -/
def summary (observers : Observers α ε) : String :=
  "Listeners \x7b len: " ++ toString observers.size ++ " \x7d"

end Observers

end CommandConsole
