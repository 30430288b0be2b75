import CommandConsole.Proofs.Console.Requests
import CommandConsole.Proofs.Console.Uses
import CommandConsole.Proofs.Host.Lines
import CommandConsole.Proofs.Host.Parts

/-!
# The steps of an application

An application goes through frames, and in between its owner uses the console and changes the settings. A
frame is cut into its parts here, so that the settings may also change in the middle of a frame. Every step
but one does nothing to the clock. It makes moves of the visibility, or it runs lines, and what these ask of
the host waits until the requests are served.

## Main definitions

- `Host.Part`, `Host.Step` — a part of a frame, a step of the application
- `Host.step`, `Host.after` — what is left of the application by one step, and by many
- `Host.moves`, `Host.asked` — the moves that a step makes, and what its handlers ask for

## Main statements

- `Host.frame_eq_after` — a frame is its parts one after the other
- `Host.waits_step` — what is asked for in a step waits behind all that was asked for before
- `Host.clock_serveRequests` — serving puts the clock as the requests want it
- `Host.visibility_step` — every step leaves the visibility as its moves do
-/

namespace CommandConsole.Host

variable {ω ε : Type}

inductive Part where
  | readTyped
  | applySettings
  | queueInputs
  | runPending
  | serveRequests
  | sendNotifications
  | showCaptured
  | print
  deriving DecidableEq, Repr

/-- A part of a frame, or something that the owner of the application does. -/
inductive Step (ω : Type) where
  | part (part : Part)
  | move (move : Visibility.Move)
  | use (use : Console.Use ω)
  | configure (settings : Settings)
  | submit (line : String)
  | typeLine (line : String)
  | log (event : LogEvent)

def runPart (host : Host ω ε) : Part → Host ω ε
  | .readTyped => host.readTyped
  | .applySettings => host.applySettings
  | .queueInputs => host.queueInputs
  | .runPending => host.runPending
  | .serveRequests => host.serveRequests
  | .sendNotifications => host.sendNotifications
  | .showCaptured => host.showCaptured
  | .print => host.print

def step (host : Host ω ε) : Step ω → Host ω ε
  | .part part => host.runPart part
  | .move move => host.changeConsole (·.move move)
  | .use use => host.changeConsole (·.use use)
  | .configure settings => host.configure settings
  | .submit line => host.submit line
  | .typeLine line => host.typeLine line
  | .log event => host.log event

def after (host : Host ω ε) (steps : List (Step ω)) : Host ω ε := steps.foldl step host

theorem after_append (host : Host ω ε) (earlier later : List (Step ω)) :
    host.after (earlier ++ later) = (host.after earlier).after later := by
  simp [after]

theorem after_concat (host : Host ω ε) (steps : List (Step ω)) (last : Step ω) :
    host.after (steps ++ [last]) = (host.after steps).step last :=
  host.after_append steps [last]

/-- The parts of a frame in order. -/
def frameParts : List (Step ω) :=
  [.part .readTyped, .part .applySettings, .part .queueInputs, .part .runPending,
    .part .serveRequests, .part .sendNotifications, .part .showCaptured, .part .print]

/-- **A frame is its parts** one after the other. -/
theorem frame_eq_after (host : Host ω ε) : host.frame = host.after frameParts := rfl

/-- The moves of the visibility that a step makes. -/
def moves (host : Host ω ε) : Step ω → List Visibility.Move
  | .move move => [move]
  | .part .applySettings => host.applied.moves host.settings
  | _ => []

/-- What the handlers of lines ask for when the lines are run one after the other. -/
def askedByLines (host : Host ω ε) : List String → List Request
  | [] => []
  | line :: lines =>
    host.console.asked line (some host.world) ++ (host.runLine line).askedByLines lines

/-- What the handlers that a step calls ask of the host. -/
def asked (host : Host ω ε) : Step ω → List Request
  | .part .runPending => host.askedByLines host.pending
  | .use (.execute line world) => host.console.asked line world
  | _ => []

/-- What the handlers ask of the host in the course of steps. -/
def askedAlong (host : Host ω ε) : List (Step ω) → List Request
  | [] => []
  | first :: steps => host.asked first ++ (host.step first).askedAlong steps

-- ════════════════════════════════════════════════════════════════════════
-- Steps that ask
-- ════════════════════════════════════════════════════════════════════════

/-- Moves have been made and handlers have been called, and what they ask for waits behind what waits
already. The clock has not been touched. -/
structure Waits (before after : Host ω ε) (moves : List Visibility.Move) (asked : List Request) :
    Prop where
  visibility : after.console.visibility = before.console.visibility.after moves
  requests : after.console.requests =
    before.console.requests ++ (before.console.visibility.requests moves ++ asked)
  clock : after.clock = before.clock

theorem Waits.idle {before after : Host ω ε}
    (hvisibility : after.console.visibility = before.console.visibility)
    (hrequests : after.console.requests = before.console.requests)
    (hclock : after.clock = before.clock) : Waits before after [] [] :=
  ⟨hvisibility, hrequests.trans (List.append_nil _).symm, hclock⟩

/-- Collecting what leaves the console is no concern of the requests. -/
theorem waits_collect (host : Host ω ε) {console : Console ω (Notice ε)} (world : ω)
    {moves : List Visibility.Move} {asked : List Request}
    (hvisibility : console.visibility = host.console.visibility.after moves)
    (hrequests : console.requests =
      host.console.requests ++ (host.console.visibility.requests moves ++ asked)) :
    Waits host { host with console, world }.collect moves asked :=
  ⟨hvisibility, hrequests, rfl⟩

theorem waits_of_moved (host : Host ω ε) {console : Console ω (Notice ε)}
    {moves : List Visibility.Move} (h : host.console.Moved console moves) :
    Waits host { host with console }.collect moves [] :=
  host.waits_collect host.world h.visibility (by rw [h.requests, List.append_nil])

theorem waits_runLine (host : Host ω ε) (line : String) :
    Waits host (host.runLine line) [] (host.console.asked line (some host.world)) := by
  rw [runLine_eq_settle]
  exact host.waits_collect _ (host.console.unshaken_dispatch line (some host.world)).visibility
    (host.console.requests_dispatch line (some host.world))

theorem Waits.trans {first second third : Host ω ε} {earlier later : List Request}
    (h : Waits first second [] earlier) (h' : Waits second third [] later) :
    Waits first third [] (earlier ++ later) where
  visibility := h'.visibility.trans h.visibility
  requests := by
    rw [h'.requests, h.requests]
    simp [Visibility.requests, Visibility.turns]
  clock := h'.clock.trans h.clock

theorem waits_foldl_runLine (lines : List String) (host : Host ω ε) :
    Waits host (lines.foldl runLine host) [] (host.askedByLines lines) := by
  induction lines generalizing host with
  | nil => exact Waits.idle rfl rfl rfl
  | cons line lines ih => exact (host.waits_runLine line).trans (ih (host.runLine line))

theorem waits_runPending (host : Host ω ε) :
    Waits host host.runPending [] (host.askedByLines host.pending) := by
  have hlines := waits_foldl_runLine host.pending host
  exact ⟨hlines.visibility, hlines.requests, hlines.clock⟩

theorem waits_applySettings (host : Host ω ε) :
    Waits host host.applySettings (host.applied.moves host.settings) [] := by
  unfold applySettings
  split
  · rename_i hsame
    rw [hsame, Settings.moves_self]
    exact Waits.idle rfl rfl rfl
  · let noted := host.console.note .debug ("Console: applying config " ++ host.settings.summary)
    have hmoved := noted.moved_applySettings host.applied host.settings
    -- what the log is told of the settings is no part of the visibility or the requests
    have hwaits := host.waits_of_moved ⟨hmoved.visibility, hmoved.requests⟩
    exact ⟨hwaits.visibility, hwaits.requests, hwaits.clock⟩

theorem waits_use (host : Host ω ε) (next : Console.Use ω) :
    Waits host (host.step (.use next)) [] (host.asked (.use next)) := by
  cases next with
  | execute line world =>
    exact host.waits_collect host.world (host.console.unshaken_dispatch line world).visibility
      (host.console.requests_dispatch line world)
  | offer name place values =>
    obtain ⟨registry, completion, hoffer⟩ := host.console.offer_eq name place values
    exact Waits.idle (congrArg (·.visibility) hoffer) (congrArg (·.requests) hoffer) rfl
  | register | remove | complete | resetCompletion | inputEdited => exact Waits.idle rfl rfl rfl

theorem typeLine_eq (host : Host ω ε) (line : String) : ∃ typed, host.typeLine line = { host with typed } := by
  unfold typeLine
  dsimp only
  split <;> exact ⟨_, rfl⟩

theorem waits_typeLine (host : Host ω ε) (line : String) :
    Waits host (host.typeLine line) [] [] := by
  obtain ⟨typed, htyped⟩ := host.typeLine_eq line
  rw [htyped]
  exact Waits.idle rfl rfl rfl

/-- **What is asked for in a step waits** behind all that was asked for before, unless the step serves the
requests. -/
theorem waits_step (host : Host ω ε) (next : Step ω) (hnext : next ≠ .part .serveRequests) :
    Waits host (host.step next) (host.moves next) (host.asked next) := by
  cases next with
  | part part =>
    cases part with
    | applySettings => exact host.waits_applySettings
    | runPending => exact host.waits_runPending
    | serveRequests => exact absurd rfl hnext
    | readTyped | queueInputs | sendNotifications | showCaptured | print => exact Waits.idle rfl rfl rfl
  | move move => exact host.waits_of_moved (host.console.moved_move move)
  | use use => exact host.waits_use use
  | typeLine line => exact host.waits_typeLine line
  | configure | submit | log => exact Waits.idle rfl rfl rfl

-- ════════════════════════════════════════════════════════════════════════
-- The step that serves
-- ════════════════════════════════════════════════════════════════════════

theorem requests_serveRequests (host : Host ω ε) : host.serveRequests.console.requests = [] := by
  rw [serveRequests_eq]
  rfl

/-- **Serving puts the clock as the requests want it.** -/
theorem clock_serveRequests (host : Host ω ε) (stopped : Bool) (hclock : host.clock = some stopped) :
    host.serveRequests.clock = some (Request.clockAfter stopped host.console.requests) := by
  rw [serveRequests_eq]
  exact congrArg (Option.map (Request.clockAfter · host.console.requests)) hclock

/-- Every step leaves the visibility as its moves do. -/
theorem visibility_step (host : Host ω ε) (next : Step ω) :
    (host.step next).console.visibility = host.console.visibility.after (host.moves next) := by
  by_cases hserve : next = .part .serveRequests
  · rw [hserve]
    exact congrArg (·.console.visibility) host.serveRequests_eq
  · exact (host.waits_step next hserve).visibility

end CommandConsole.Host
