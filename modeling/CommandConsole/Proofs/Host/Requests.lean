import CommandConsole.Proofs.Host.Clock
import CommandConsole.Proofs.Host.Hearing

/-!
# Requests served

Handlers ask the application for something, and so do moves of the console that couple the clock to it. All of this
waits in one queue, and a part of each frame takes the queue and serves it. No request is lost, served twice or
overtaken. So when a frame has served its requests, the clock and the number of ends that were asked for follow
from the requests that were ever made.

## Main definitions

- `Host.requested` — what is asked of the application by something that happens
- `Host.served` — what the application serves then
- `Host.Serves` — requests made and requests served on the way from one state of the application to another

## Main statements

- `Host.waits_happen` — what is asked for waits, unless a frame serves the requests
- `Host.Settled.serves_afterRun` — in the course of a run the requests served are the first of those made
- `Host.requests_served_once` — each request is served once, in order
-/

namespace CommandConsole

/-- A clock that goes is stopped by the requests if the last one that is about it is to stop it. -/
theorem Request.clockAfter_false (requests : List Request) :
    clockAfter false requests = decide ((requests.filter (· ≠ quit)).getLast? = some pause) := by
  induction requests using List.reverseRecOn with
  | nil => rfl
  | append_singleton requests last ih =>
    rw [clockAfter_append, List.filter_append]
    cases last with
    | pause | resume => simp [clockAfter, clock]
    | quit => simpa [clockAfter, clock] using ih

namespace Host

variable {ω ε : Type}

/-- What the handlers ask for that are called when something happens. -/
def askedIn (host : Host ω ε) : Happening ω ε → List Request
  | .part part => host.asked (.part part)
  | .doing (.act (.step step _) _) => host.asked step
  | _ => []

/-- All that is asked of the application when something happens. -/
def requested (host : Host ω ε) (happening : Happening ω ε) : List Request :=
  host.console.visibility.requests (host.movesOf happening) ++ host.askedIn happening

/-- What the application serves when something happens. -/
def served (host : Host ω ε) : Happening ω ε → List Request
  | .part .serveRequests => host.console.requests
  | _ => []

theorem served_of_ne (host : Host ω ε) {happening : Happening ω ε}
    (hserve : happening ≠ .part .serveRequests) : host.served happening = [] := by
  unfold served
  split
  · exact absurd rfl hserve
  · rfl

-- ════════════════════════════════════════════════════════════════════════
-- What waits
-- ════════════════════════════════════════════════════════════════════════

theorem waits_does (host : Host ω ε) (doing : Doing ω ε) :
    Waits host (host.does doing) (host.movesOfDoing doing) (host.askedIn (.doing doing)) := by
  cases doing with
  | act activity own =>
    cases activity with
    | step step quiet =>
      have hstep : step ≠ .part .serveRequests := by
        rintro rfl
        cases own
      exact host.waits_step step hstep
    | applySettings before after =>
      exact host.waits_of_moved (host.console.moved_applySettings before after)
    | print style text toLog =>
      obtain ⟨diagnostics, hprint⟩ := host.console.print_eq style text toLog
      exact Waits.idle (congrArg (·.visibility) hprint) (congrArg (·.requests) hprint) rfl
    | editOutput | editHistory | setFontSize => exact Waits.idle rfl rfl rfl
  | connect listener => cases listener <;> exact Waits.idle rfl rfl rfl
  | disconnect event id => cases event <;> exact Waits.idle rfl rfl rfl

theorem waits_happen (host : Host ω ε) {happening : Happening ω ε}
    (hserve : happening ≠ .part .serveRequests) :
    Waits host (host.happen happening) (host.movesOf happening) (host.askedIn happening) := by
  cases happening with
  | part part => exact host.waits_step (.part part) (fun hpart => hserve (by cases hpart; rfl))
  | doing doing => exact host.waits_does doing

theorem exits_foldl_runLine (lines : List String) (host : Host ω ε) :
    (lines.foldl runLine host).outbox.exits = host.outbox.exits := by
  induction lines generalizing host with
  | nil => rfl
  | cons line lines ih =>
    rw [List.foldl_cons, ih]
    rfl

/-- Only the part of a frame that serves the requests asks for an end. -/
theorem exits_happen (host : Host ω ε) {happening : Happening ω ε}
    (hserve : happening ≠ .part .serveRequests) :
    (host.happen happening).outbox.exits = host.outbox.exits := by
  cases happening with
  | part part =>
    cases part with
    | applySettings =>
      show host.applySettings.outbox.exits = _
      unfold applySettings
      split <;> rfl
    | runPending => exact exits_foldl_runLine host.pending host
    | serveRequests => exact absurd rfl hserve
    | sendNotifications => exact congrArg (·.outbox.exits) host.sendNotifications_eq
    | readTyped | queueInputs | showCaptured | print => rfl
  | doing doing =>
    rcases host.does_cases doing with ⟨console, hdone⟩ | ⟨settings, typed, inputs, capture, hdone⟩
    · exact congrArg (·.outbox.exits) hdone
    · exact congrArg (·.outbox.exits) hdone

-- ════════════════════════════════════════════════════════════════════════
-- Runs
-- ════════════════════════════════════════════════════════════════════════

/-- On the way from the one application to the other, requests have been made and others have been served. The
queue holds what is left, and the clock and the exits show what was served. -/
structure Serves (before after : Host ω ε) (made served : List Request) : Prop where
  queue : before.console.requests ++ made = served ++ after.console.requests
  clock : after.clock = before.clock.map (Request.clockAfter · served)
  exits : after.outbox.exits = before.outbox.exits + served.count .quit

theorem Serves.refl (host : Host ω ε) : Serves host host [] [] where
  queue := List.append_nil _
  clock := by simp [Request.clockAfter]
  exits := rfl

theorem Serves.trans {first second third : Host ω ε} {made served made' served' : List Request}
    (h : Serves first second made served) (h' : Serves second third made' served') :
    Serves first third (made ++ made') (served ++ served') where
  queue := by
    rw [← List.append_assoc, h.queue, List.append_assoc, h'.queue, List.append_assoc]
  clock := by
    rw [h'.clock, h.clock]
    simp [Function.comp_def]
  exits := by rw [h'.exits, h.exits, List.count_append, Nat.add_assoc]

/-- **Requests wait until they are served**, and then all of them are. -/
theorem Settled.serves_happen {host : Host ω ε} (h : host.Settled) (happening : Happening ω ε) :
    Serves host (host.happen happening) (host.requested happening) (host.served happening) := by
  by_cases hserve : happening = .part .serveRequests
  · subst hserve
    show Serves host host.serveRequests [] host.console.requests
    rw [h.serveRequests_eq]
    exact ⟨rfl, rfl, rfl⟩
  · have hwaits := host.waits_happen hserve
    rw [host.served_of_ne hserve]
    exact ⟨hwaits.requests.symm, hwaits.clock.trans (Serves.refl host).clock, host.exits_happen hserve⟩

/-- In the course of a run the requests served are the first of those made, and the queue holds the others. -/
theorem Settled.serves_afterRun (run : List (Happening ω ε)) {host : Host ω ε} (h : host.Settled) :
    Serves host (host.afterRun run) (host.along requested run) (host.along served run) := by
  induction run generalizing host with
  | nil => exact Serves.refl host
  | cons first run ih => exact (h.serves_happen first).trans (ih (h.happen first))

/-- **Each request is served once, in order.** An application starts, with whatever settings, with a clock that
goes or without one. In its frames and between them anything happens in any order. Handlers make requests, and so
do the moves of the console. When a frame has then served its requests, those that were served are all that
were ever made, in the order in which they were made, and none waits. The end of the application was asked for as
often as a request for it was made. If there is a clock, it is stopped exactly if the last request about it was to
stop it. Without one, a request about it leaves a warning in the log, and nothing else comes of it. -/
theorem requests_served_once (hasClock : Bool) (settings : Settings) (world : ω) (terminal : Terminal)
    (capture : Capture) (run : List (Happening ω ε)) :
    let started : Host ω ε :=
      start settings world (if hasClock then some false else none) terminal capture
    let before := started.afterRun run
    let host := started.afterRun (run ++ [.part .serveRequests])
    let requests := started.along requested run
    started.along served (run ++ [.part .serveRequests]) = requests ∧
      host.console.requests = [] ∧
      host.outbox.exits = requests.count .quit ∧
      host.clock =
        (if hasClock then some (decide ((requests.filter (· ≠ .quit)).getLast? = some .pause)) else none) ∧
      host =
        { before with
          console := { before.console with requests := [] }
          clock := host.clock
          outbox :=
            { before.outbox with
              exits := before.outbox.exits + before.console.requests.count .quit
              diagnostics := before.outbox.diagnostics ++
                before.console.requests.filterMap (Request.report? hasClock) } } := by
  intro started before host requests
  have hsettled : started.Settled := settled_collect _
  have hnone : started.console.requests = [] :=
    (visibility_start settings world _ terminal capture).2
  have hserves := hsettled.serves_afterRun (run ++ [.part .serveRequests])
  have hmade : started.along requested (run ++ [.part .serveRequests]) = requests := by
    rw [along_append]
    exact List.append_nil _
  have hempty : host.console.requests = [] := by
    show (started.afterRun (run ++ [.part .serveRequests])).console.requests = []
    rw [afterRun_append]
    exact before.requests_serveRequests
  have hserved : started.along served (run ++ [.part .serveRequests]) = requests := by
    have hqueue := hserves.queue
    rw [hnone, List.nil_append, hmade, hempty, List.append_nil] at hqueue
    exact hqueue.symm
  rw [hserved] at hserves
  refine ⟨hserved, hempty, hserves.exits.trans (Nat.zero_add _), ?_, ?_⟩
  · rw [hserves.clock, ← Request.clockAfter_false]
    cases hasClock <;> rfl
  · have hbefore := hsettled.serves_afterRun run
    have hclock : before.clock.isSome = hasClock := by
      rw [hbefore.clock, Option.isSome_map]
      cases hasClock <;> rfl
    have hhost : host = before.serveRequests := started.afterRun_append run _
    rw [hhost, (hsettled.afterRun run).serveRequests_eq, ← hclock]
    rfl

/-- Without a clock a pause leaves the ends before and behind it to be served. -/
example :
    let started : Host Unit Unit := start {} () none {} {}
    let lines : List (Happening Unit Unit) :=
      ["quit", "pause", "quit"].map fun line => .doing (.act (.step (.submit line) nofun) rfl)
    started.along requested (lines ++ wholeFrame) = [.quit, .pause, .quit] ∧
      (started.afterRun (lines ++ wholeFrame)).outbox.exits = 2 := by
  decide +kernel

end Host

end CommandConsole
