import CommandConsole.Proofs.Host.Runs

/-!
# An application that hears the process log

An application may capture the log of its process and show it in its console. The console itself speaks to that
log, and what it says there must not come back to it. So what is captured is no concern of anything but the part
of a frame that shows it, and an application that captures the log differs from one that does not by nothing but
the records that its frames show.

## Main definitions

- `Host.hearing` — an application with another capture of the log
- `Host.Happening.isDeaf` — something that neither reaches the log from outside nor shows what was captured
- `Host.printed` — the run in which captured records are printed where a frame shows them

## Main statements

- `Host.happen_hearing` — what is captured is no concern of most that happens
- `Host.showCaptured_hearing` — a frame shows what was captured as if it were printed
- `Host.afterRun_hearing` — a run with the capture is a run without it in which the records are printed
-/

namespace CommandConsole

/-- The edit of the output that shows a record. -/
def LogRecord.edit (record : LogRecord) : Scrollback.Edit := .push record.style record.message

namespace Host

variable {ω ε : Type}

/-- The application with another capture of the log. -/
def hearing (host : Host ω ε) (capture : Capture) (captured : List LogRecord) : Host ω ε :=
  { host with capture, outbox := { host.outbox with captured } }

/-- The event that reaches the process log from elsewhere than the console. -/
def Happening.event? : Happening ω ε → Option LogEvent
  | .doing (.act (.step (.log event) _) _) => some event
  | _ => none

def Happening.isDeaf : Happening ω ε → Bool
  | .part .showCaptured | .doing (.act (.step (.log _) _) _) => false
  | _ => true

theorem Happening.cases_isDeaf (happening : Happening ω ε) :
    happening.isDeaf = true ∨ happening = .part .showCaptured ∨
      ∃ event quiet own, happening = .doing (.act (.step (.log event) quiet) own) := by
  cases happening with
  | part part =>
    cases part with
    | showCaptured => exact Or.inr (Or.inl rfl)
    | _ => exact Or.inl rfl
  | doing doing =>
    cases doing with
    | act activity own =>
      cases activity with
      | step step quiet =>
        cases step with
        | log event => exact Or.inr (Or.inr ⟨event, quiet, own, rfl⟩)
        | _ => exact Or.inl rfl
      | _ => exact Or.inl rfl
    | _ => exact Or.inl rfl

-- ════════════════════════════════════════════════════════════════════════
-- What does not hear
-- ════════════════════════════════════════════════════════════════════════

section Hearing

variable (capture : Capture) (captured : List LogRecord)

theorem collect_hearing (host : Host ω ε) :
    (host.hearing capture captured).collect = host.collect.hearing capture captured := by
  have hcollected : (host.hearing capture captured).collect =
      host.collect.hearing (capture.observeAll (host.console.diagnostics.map Diagnostic.event))
        captured := rfl
  rw [hcollected, Capture.observeAll_diagnostics]

theorem changeConsole_hearing (host : Host ω ε)
    (change : Console ω (Notice ε) → Console ω (Notice ε)) :
    (host.hearing capture captured).changeConsole change =
      (host.changeConsole change).hearing capture captured :=
  collect_hearing capture captured { host with console := change host.console }

theorem applySettings_hearing (host : Host ω ε) :
    (host.hearing capture captured).applySettings =
      host.applySettings.hearing capture captured := by
  unfold applySettings
  show (if host.applied = host.settings then _ else _) = _
  split
  · rfl
  · exact congrArg (fun left : Host ω ε => { left with applied := host.settings })
      (changeConsole_hearing capture captured host _)

theorem foldl_runLine_hearing (lines : List String) (host : Host ω ε) :
    lines.foldl runLine (host.hearing capture captured) =
      (lines.foldl runLine host).hearing capture captured := by
  induction lines generalizing host with
  | nil => rfl
  | cons line lines ih =>
    have hline : (host.hearing capture captured).runLine line =
        (host.runLine line).hearing capture captured := by
      let left := (host.console.executeIn line host.world).2
      exact collect_hearing capture captured { host with console := left.1, world := left.2 }
    rw [List.foldl_cons, hline]
    exact ih (host.runLine line)

theorem serveRequests_hearing (host : Host ω ε) :
    (host.hearing capture captured).serveRequests =
      host.serveRequests.hearing capture captured := by
  have htaken : ((host.hearing capture captured).onConsole (·.takeRequests)).2 =
      (host.onConsole (·.takeRequests)).2.hearing capture captured :=
    collect_hearing capture captured { host with console := host.console.takeRequests.2 }
  rw [serveRequests_eq, serveRequests_eq, htaken]
  rfl

theorem sendNotifications_hearing (host : Host ω ε) :
    (host.hearing capture captured).sendNotifications =
      host.sendNotifications.hearing capture captured := by
  rw [sendNotifications_eq, sendNotifications_eq]
  rfl

/-- **What is captured is no concern of anything else that happens.** -/
theorem happen_hearing (host : Host ω ε) {happening : Happening ω ε} (hdeaf : happening.isDeaf = true) :
    (host.hearing capture captured).happen happening =
      (host.happen happening).hearing capture captured := by
  cases happening with
  | part part =>
    cases part with
    | readTyped | queueInputs | print => rfl
    | applySettings => exact applySettings_hearing capture captured host
    | runPending =>
      exact congrArg (fun left : Host ω ε => { left with pending := [] })
        (foldl_runLine_hearing capture captured host.pending host)
    | serveRequests => exact serveRequests_hearing capture captured host
    | sendNotifications => exact sendNotifications_hearing capture captured host
    | showCaptured => cases hdeaf
  | doing doing =>
    cases doing with
    | act activity own =>
      cases activity with
      | step step quiet =>
        cases step with
        | part part => cases own
        | move move => exact changeConsole_hearing capture captured host (·.move move)
        | use use => exact changeConsole_hearing capture captured host (·.use use)
        | typeLine line =>
          show (host.hearing capture captured).typeLine line = (host.typeLine line).hearing _ _
          unfold typeLine
          dsimp only
          split <;> rfl
        | configure | submit => rfl
        | log => cases hdeaf
      | print style text toLog =>
        exact changeConsole_hearing capture captured host (·.print style text toLog)
      | editOutput edit => exact changeConsole_hearing capture captured host (·.editOutput edit)
      | editHistory edit => exact changeConsole_hearing capture captured host (·.editHistory edit)
      | setFontSize size => exact changeConsole_hearing capture captured host (·.setFontSize size)
      | applySettings before after =>
        exact changeConsole_hearing capture captured host (·.applySettings before after)
    | connect listener => exact changeConsole_hearing capture captured host (·.listen listener)
    | disconnect event id => exact changeConsole_hearing capture captured host (·.unlisten event id)

end Hearing

-- ════════════════════════════════════════════════════════════════════════
-- What is collected
-- ════════════════════════════════════════════════════════════════════════

theorem Settled.foldl_runLine {host : Host ω ε} (h : host.Settled) (lines : List String) :
    (lines.foldl runLine host).Settled :=
  List.foldlRecOn lines runLine h fun _ _ _ _ => settled_collect _

theorem Settled.happen {host : Host ω ε} (h : host.Settled) (happening : Happening ω ε) :
    (host.happen happening).Settled := by
  cases happening with
  | part part =>
    cases part with
    | applySettings =>
      show host.applySettings.Settled
      unfold applySettings
      split
      · exact h
      · exact ⟨rfl, rfl⟩
    | runPending => exact h.foldl_runLine host.pending
    | serveRequests =>
      show host.serveRequests.Settled
      rw [h.serveRequests_eq]
      exact h
    | readTyped | queueInputs | sendNotifications | showCaptured | print => exact h
  | doing doing =>
    show (host.does doing).Settled
    rcases host.does_cases doing with ⟨console, hdone⟩ | ⟨settings, typed, inputs, capture, hdone⟩
    · rw [hdone]
      exact settled_collect _
    · rw [hdone]
      exact h

theorem Settled.afterRun {host : Host ω ε} (h : host.Settled) (run : List (Happening ω ε)) :
    (host.afterRun run).Settled :=
  List.foldlRecOn run Host.happen h fun _ hleft happening _ => hleft.happen happening

-- ════════════════════════════════════════════════════════════════════════
-- Records printed
-- ════════════════════════════════════════════════════════════════════════

/-- The owner of the application prints a record on the console. -/
def printing (record : LogRecord) : Happening ω ε := .doing (.act (.editOutput record.edit) rfl)

/-- What happens instead without the capture, and the records that wait from then on. -/
def replaced (waiting : List LogRecord) :
    Happening ω ε → List (Happening ω ε) × List LogRecord
  | .part .showCaptured => (waiting.map printing, [])
  | .doing (.act (.step (.log event) _) _) => ([], waiting ++ event.record?.toList)
  | other => ([other], waiting)

/-- A run without the capture: what was captured and waits is printed where a frame would show it. -/
def printed (waiting : List LogRecord) : List (Happening ω ε) → List (Happening ω ε)
  | [] => []
  | first :: run => (replaced waiting first).1 ++ printed (replaced waiting first).2 run

theorem replaced_of_isDeaf (waiting : List LogRecord) {happening : Happening ω ε}
    (hdeaf : happening.isDeaf = true) : replaced waiting happening = ([happening], waiting) := by
  unfold replaced
  split
  · cases hdeaf
  · cases hdeaf
  · rfl

theorem afterRun_printing {host : Host ω ε} (h : host.Settled) (records : List LogRecord) :
    host.afterRun (records.map printing) =
      { host with console.output := LogRecord.showAll records host.console.output } := by
  induction records generalizing host with
  | nil => rfl
  | cons record records ih =>
    let next : Host ω ε := { host with console := host.console.editOutput record.edit }
    have hnext : next.Settled := h
    show next.collect.afterRun (records.map printing) = _
    rw [hnext.collect_eq, ih hnext]
    rfl

/-- **A frame shows what was captured as if it were printed.** -/
theorem showCaptured_hearing {host : Host ω ε} (h : host.Settled) (capture : Capture)
    (captured : List LogRecord) :
    (host.hearing capture captured).showCaptured =
      (host.afterRun (capture.records.map printing)).hearing { capture with records := [] }
        (captured ++ capture.records) := by
  rw [afterRun_printing h]
  rfl

/-- **A run with the capture is a run without it** in which what is captured is printed. -/
theorem afterRun_hearing (run : List (Happening ω ε)) {host : Host ω ε} (h : host.Settled)
    (waiting captured : List LogRecord) : ∃ waiting' captured',
    (host.hearing ⟨true, waiting⟩ captured).afterRun run =
      (host.afterRun (printed waiting run)).hearing ⟨true, waiting'⟩ captured' := by
  induction run generalizing host waiting captured with
  | nil => exact ⟨waiting, captured, rfl⟩
  | cons first run ih =>
    have hfirst : ∃ captured', (host.hearing ⟨true, waiting⟩ captured).happen first =
        (host.afterRun (replaced waiting first).1).hearing ⟨true, (replaced waiting first).2⟩
          captured' := by
      rcases first.cases_isDeaf with hdeaf | rfl | ⟨event, quiet, own, rfl⟩
      · rw [happen_hearing _ _ host hdeaf, replaced_of_isDeaf waiting hdeaf]
        exact ⟨captured, rfl⟩
      · exact ⟨_, showCaptured_hearing h ⟨true, waiting⟩ captured⟩
      · exact ⟨captured, rfl⟩
    obtain ⟨captured', hfirst⟩ := hfirst
    show ∃ waiting' captured',
      ((host.hearing ⟨true, waiting⟩ captured).happen first).afterRun run = _
    rw [hfirst, printed, afterRun_append]
    exact ih (h.afterRun _) (replaced waiting first).2 captured'

end Host

end CommandConsole
