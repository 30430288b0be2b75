/-!
# Requests to the host

What the console asks of the application around it. The console only lists its requests; the host
takes them and acts.

## Main definitions

- `Request` — a request
- `Request.name` — its name in log messages
-/

namespace CommandConsole

/-- A request to the host. -/
inductive Request where
  | pause
  | resume
  | quit
  deriving DecidableEq, Repr

/-- The name of a request in log messages. -/
def Request.name : Request → String
  | pause => "Pause"
  | resume => "Resume"
  | quit => "Quit"

end CommandConsole
