import CommandConsole.Host.Frame
import CommandConsole.Proofs.Console.Faults
import CommandConsole.Proofs.Registry.Stores

/-!
# The lines of a frame

A frame runs the lines that it has read one after the other. Each one finds the application as the line
before it has left it, and runs as if it had been submitted on its own, whether or not the line before it
ended in a fault.

## Main definitions

- `Host.runAlone` — run one line that is submitted on its own

## Main statements

- `Host.runPending_eq_foldl` — lines run together as they do one by one
- `Host.faults_contained` — a fault ends its own line and leaves all the rest as it was
-/

namespace CommandConsole.Host

variable {ω ε : Type}

/-- Run a line that is submitted on its own. -/
def runAlone (host : Host ω ε) (line : String) : Host ω ε :=
  { host with pending := [line] }.runPending

/-- The application with the console and the world that a line has left. -/
def settle (host : Host ω ε) (left : Console ω (Notice ε) × Option ω) : Host ω ε :=
  { host with console := left.1, world := left.2.getD host.world }.collect

theorem runLine_eq_settle (host : Host ω ε) (line : String) :
    host.runLine line = host.settle (host.console.dispatch line (some host.world)).2 := rfl

theorem foldl_runLine (lines : List String) (host : Host ω ε) :
    { lines.foldl runLine host with pending := [] } =
      lines.foldl runAlone { host with pending := [] } := by
  induction lines generalizing host with
  | nil => rfl
  | cons line lines ih =>
    -- running a line neither reads nor changes the lines that are still to come
    have hline : runAlone { host with pending := [] } line =
        { host.runLine line with pending := [] } := rfl
    rw [List.foldl_cons, List.foldl_cons, ih, hline]

/-- **Lines run together as they do one by one.** -/
theorem runPending_eq_foldl (host : Host ω ε) :
    host.runPending = host.pending.foldl runAlone { host with pending := [] } :=
  foldl_runLine host.pending host

theorem runAlone_eq_settle (host : Host ω ε) (line : String) :
    host.runAlone line =
      { host with pending := [] }.settle (host.console.dispatch line (some host.world)).2 := rfl

/-- **A fault stays with its line.** When a line calls a handler that fails or crashes, what is left is the
console that has echoed and recorded the line, carried out the operations of the handler up to the fault, and
reported the fault in one row behind them; the outcome says what is known of the fault. In a batch the lines
behind such a line run as if each of them were submitted on its own to the application that is left. -/
theorem faults_contained :
    (∀ (console : Console ω ε) (line : String) (world : Option ω) (command : Command (Handler ω))
      (fault : Fault), console.EndsInFault line world command fault →
        console.dispatch line world =
          (.handlerFailed fault.message, console.leftByFault line world command fault)) ∧
    (∀ (host : Host ω ε) (before after : List String) (line : String),
      host.pending = before ++ line :: after →
        let reached := before.foldl runAlone { host with pending := [] }
        ∀ command fault, reached.console.EndsInFault line (some reached.world) command fault →
          host.runPending = after.foldl runAlone
            (reached.settle (reached.console.leftByFault line (some reached.world) command fault))) := by
  refine ⟨fun _ _ _ _ _ h => h.dispatch_eq, ?_⟩
  intro host before after line hpending reached command fault h
  have hread : { reached with pending := [] } = reached := by
    show { before.foldl runAlone { host with pending := [] } with pending := [] } =
      before.foldl runAlone { host with pending := [] }
    rw [← foldl_runLine]
  rw [runPending_eq_foldl, hpending, List.foldl_append, List.foldl_cons]
  show after.foldl runAlone (reached.runAlone line) = _
  rw [runAlone_eq_settle, h.dispatch_eq, hread]

/-- A handler prints, drops the output, asks for the end and crashes without a text. -/
theorem crash_after_quit_contained :
    let boom : Command (Handler Unit) := ⟨{ name := "boom" }, fun _ => do
      Action.line "on my way"
      Action.act (.output .clear)
      Action.request .quit
      Action.crash none⟩
    let console : Console Unit Unit := ((Console.new {}).register boom).2
    let left := console.dispatch "boom" none
    left.1 = .handlerFailed "Unknown panic" ∧
      left.2.1.output.rows.map (·.text) = ["Command 'boom' panicked: Unknown panic"] ∧
      left.2.1.requests = [.quit] := by
  intro boom console left
  have hvalid : boom.signature.Valid := (Signature.fault?_eq_none_iff _).mp (by decide +kernel)
  have hregistered : console.registry = Registry.empty.enter "boom" boom := by
    show (Registry.empty.register boom).2 = _
    rw [Registry.register_of_valid _ hvalid]
    rfl
  have hname : (Line.read "boom").command = "boom" := by decide +kernel
  have hfound : console.registry.find? (Line.read "boom").command = some boom := by
    rw [hname, hregistered]
    exact Registry.find?_enter Registry.empty "boom" "boom" boom
  have hends : console.EndsInFault "boom" none boom (.crashed none) :=
    ⟨by decide +kernel, hfound, by decide +kernel, rfl⟩
  have hleft : left =
      (.handlerFailed "Unknown panic", console.leftByFault "boom" none boom (.crashed none)) :=
    faults_contained.1 console "boom" none boom (.crashed none) hends
  rw [hleft]
  exact ⟨rfl, by decide +kernel, by decide +kernel⟩

end CommandConsole.Host
