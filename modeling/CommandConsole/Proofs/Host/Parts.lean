import CommandConsole.Host.Frame
import CommandConsole.Proofs.Console.Notices

/-!
# Parts of a frame

Two parts of a frame are loops: one serves the requests of the console, and one sends on its notifications. What
such a part does is said here as a whole, so that whatever is asked about it can be read off.

## Main definitions

- `Host.Settled` — nothing has left the console that was not collected
- `Request.report?` — what the process log is told of a request that is served
- `Host.serving` — what is left of an application when requests have been served

## Main statements

- `Host.serveRequests_eq` — serving the requests touches the queue, the clock, the exits and the log
- `Host.sendNotifications_eq` — sending on the notifications empties the channel into the messages
-/

namespace CommandConsole

theorem Diagnostic.record?_event (diagnostic : Diagnostic) : diagnostic.event.record? = none := by
  simp [Diagnostic.event, LogEvent.record?]

/-- What the console says is not captured. -/
theorem Capture.observeAll_diagnostics (capture : Capture) (diagnostics : List Diagnostic) :
    capture.observeAll (diagnostics.map Diagnostic.event) = capture := by
  induction diagnostics with
  | nil => rfl
  | cons diagnostic diagnostics ih =>
    have hone : capture.observe diagnostic.event = capture := by
      simp [observe, diagnostic.record?_event]
    rw [List.map_cons, observeAll, List.foldl_cons, hone]
    exact ih

/-- What the process log is told of a request that is served. -/
def Request.report? (hasClock : Bool) : Request → Option Diagnostic
  | .quit => some ⟨.info, "Console: quit requested"⟩
  | request =>
    if hasClock then none
    else some ⟨.warn, "Console: " ++ request.name ++ " requested but there is no virtual clock"⟩

namespace Host

variable {ω ε : Type}

-- ════════════════════════════════════════════════════════════════════════
-- What is collected
-- ════════════════════════════════════════════════════════════════════════

/-- Nothing has left the console that was not collected. -/
def Settled (host : Host ω ε) : Prop := host.console.notices = [] ∧ host.console.diagnostics = []

theorem settled_collect (host : Host ω ε) : host.collect.Settled := ⟨rfl, rfl⟩

theorem Settled.collect_eq {host : Host ω ε} (h : host.Settled) : host.collect = host := by
  obtain ⟨console, world, clock, settings, applied, typed, inputs, pending, channel, terminal, capture,
    outbox⟩ := host
  obtain ⟨hnotices, hdiagnostics⟩ := h
  cases console
  cases hnotices
  cases hdiagnostics
  simp [collect, Console.takeNotices, Console.takeDiagnostics, Capture.observeAll]

-- ════════════════════════════════════════════════════════════════════════
-- Requests
-- ════════════════════════════════════════════════════════════════════════

/-- The application when requests have been served. -/
def serving (host : Host ω ε) (requests : List Request) : Host ω ε :=
  { host with
    clock := host.clock.map (Request.clockAfter · requests)
    outbox := { host.outbox with
      exits := host.outbox.exits + requests.count .quit
      diagnostics := host.outbox.diagnostics ++ requests.filterMap (Request.report? host.clock.isSome) } }

theorem serving_nil (host : Host ω ε) : host.serving [] = host := by
  simp [serving, Request.clockAfter]

theorem serving_append (host : Host ω ε) (earlier later : List Request) :
    host.serving (earlier ++ later) = (host.serving earlier).serving later := by
  simp [serving, Function.comp_def, Nat.add_assoc]

theorem Settled.changeConsole_note {host : Host ω ε} (h : host.Settled) (level : Level) (message : String) :
    host.changeConsole (·.note level message) =
      { host with outbox :=
        { host.outbox with diagnostics := host.outbox.diagnostics ++ [⟨level, message⟩] } } := by
  obtain ⟨console, world, clock, settings, applied, typed, inputs, pending, channel, terminal, capture,
    outbox⟩ := host
  obtain ⟨hnotices, hdiagnostics⟩ := h
  cases console
  cases hnotices
  cases hdiagnostics
  have hdeaf := capture.observeAll_diagnostics [⟨level, message⟩]
  simpa [changeConsole, collect, Console.note, Console.takeNotices, Console.takeDiagnostics] using hdeaf

theorem Settled.serve_eq {host : Host ω ε} (h : host.Settled) (request : Request) :
    host.serve request = host.serving [request] := by
  cases hclock : host.clock with
  | some stopped =>
    cases request with
    | quit =>
      simp [serve, serving, hclock, h.changeConsole_note, Request.report?, Request.clockAfter, Request.clock]
    | pause | resume =>
      simp [serve, serving, hclock, Request.report?, Request.clockAfter, Request.clock]
  | none =>
    cases request with
    | quit => simp [serve, serving, hclock, h.changeConsole_note, Request.report?]
    | pause | resume =>
      simp [serve, serving, hclock, noteMissingClock, h.changeConsole_note, Request.report?]

theorem Settled.foldl_serve_eq {host : Host ω ε} (h : host.Settled) (requests : List Request) :
    requests.foldl serve host = host.serving requests := by
  induction requests generalizing host with
  | nil => exact host.serving_nil.symm
  | cons request requests ih =>
    have hone : (host.serving [request]).Settled := h
    rw [List.foldl_cons, h.serve_eq, ih hone, ← serving_append]
    rfl

/-- **Serving the requests touches the queue, the clock, the exits and the log.** -/
theorem serveRequests_eq (host : Host ω ε) :
    host.serveRequests = (host.onConsole (·.takeRequests)).2.serving host.console.requests :=
  (settled_collect _).foldl_serve_eq host.console.requests

theorem Settled.serveRequests_eq {host : Host ω ε} (h : host.Settled) :
    host.serveRequests =
      { host with console := { host.console with requests := [] } : Host ω ε }.serving
        host.console.requests := by
  let taken : Host ω ε := { host with console := { host.console with requests := [] } }
  have htaken : taken.Settled := h
  rw [Host.serveRequests_eq]
  show taken.collect.serving host.console.requests = _
  rw [htaken.collect_eq]

-- ════════════════════════════════════════════════════════════════════════
-- Notifications
-- ════════════════════════════════════════════════════════════════════════

theorem foldl_send (notifications : List Notification) (outbox : Outbox ε) :
    notifications.foldl send outbox =
      { outbox with
        toggles := outbox.toggles ++ notifications.filterMap Notification.toggle?
        unknown := outbox.unknown ++ notifications.filterMap Notification.line? } := by
  induction notifications generalizing outbox with
  | nil => simp
  | cons notification notifications ih =>
    rw [List.foldl_cons, ih]
    cases notification with
    | toggled | unknownCommand =>
      simp only [send, List.append_assoc]
      rfl

/-- **Sending on the notifications** empties the channel into the messages. -/
theorem sendNotifications_eq (host : Host ω ε) :
    host.sendNotifications =
      { host with
        channel := []
        outbox :=
          { host.outbox with
            toggles := host.outbox.toggles ++ host.channel.filterMap Notification.toggle?
            unknown := host.outbox.unknown ++ host.channel.filterMap Notification.line? } } := by
  rw [sendNotifications, foldl_send]

end Host

end CommandConsole
