import CommandConsole.Proofs.Host.Hearing

/-!
# The capture of the process log

Events that reach the process log from elsewhere than the console are shown in the output of the console: each
one once, in the order in which they came, in the style of its level. What the console itself says to the log,
and events without a message, are never shown. So what is printed and told to the log makes the same rows as it
does without the capture.

## Main definitions

- `LogEvent.shown?` — the edit of the output that shows an event
- `Host.revisionsOf` — the edits of the output when something happens
- `Host.toldLog`, `Host.emitted` — what the console tells the process log, and all that reaches the log

## Main statements

- `Host.shown_happen` — no captured event gets lost, repeated or overtaken by anything that happens
- `Host.printed_eq_of_own` — nothing is printed in place of what the console itself says
- `Host.captured_once` — every event of another origin is shown once, and the capture changes nothing else
-/

namespace CommandConsole

/-- The edit of the output that shows an event of the process log: none if the event comes from the console, or
has no message. Below the level of general information an event is shown without a style. -/
def LogEvent.shown? (event : LogEvent) : Option Scrollback.Edit :=
  if event.target = "dev_console" then none
  else event.message?.map fun message =>
    match event.level with
    | .error => .push .error message
    | .warn => .push .warning message
    | .info => .push .info message
    | .debug | .trace => .push .plain message

theorem LogEvent.shown?_eq (event : LogEvent) : event.shown? = event.record?.map LogRecord.edit := by
  obtain ⟨level, target, message?⟩ := event
  by_cases hown : target = "dev_console"
  · simp [shown?, record?, ownTarget, hown]
  · have hown' : target ≠ ownTarget := hown
    cases message? with
    | none => simp [shown?, record?, hown, hown']
    | some message =>
      cases level <;> simp [shown?, record?, hown, hown', LogRecord.edit, LogRecord.style, Level.style]

namespace Host

variable {ω ε : Type}

/-- The edits of the output when something happens. -/
def revisionsOf (host : Host ω ε) : Happening ω ε → List Revision
  | .part part =>
    if h : part = .print then [] else host.revisions (.step (.part part) (by simpa using h))
  | .doing (.act activity _) => host.revisions activity
  | .doing _ => []

/-- What the console tells the process log when something happens. -/
def toldLog (host : Host ω ε) (happening : Happening ω ε) : List Diagnostic :=
  (host.happen happening).outbox.diagnostics.drop host.outbox.diagnostics.length

/-- The events that reach the process log when something happens. -/
def emitted (host : Host ω ε) (happening : Happening ω ε) : List LogEvent :=
  happening.event?.toList ++ (host.toldLog happening).map Diagnostic.event

/-- The edits of the output that show what was captured. -/
def shown (host : Host ω ε) (happening : Happening ω ε) : List Scrollback.Edit :=
  ((host.revisionsOf happening).filter (·.source = .capture)).map (·.edit)

-- ════════════════════════════════════════════════════════════════════════
-- What happens once
-- ════════════════════════════════════════════════════════════════════════

theorem output_happen (host : Host ω ε) (happening : Happening ω ε) :
    (host.happen happening).console.output =
      host.console.output.after ((host.revisionsOf happening).map (·.edit)) := by
  cases happening with
  | part part =>
    by_cases hprint : part = .print
    · rw [revisionsOf, dif_pos hprint, hprint]
      rfl
    · rw [revisionsOf, dif_neg hprint]
      exact (host.writes_part part (by simpa using hprint)).output
  | doing doing =>
    cases doing with
    | act activity own => exact (host.writes_act activity).output
    | connect listener => cases listener <;> rfl
    | disconnect event id => cases event <;> rfl

theorem diagnostics_foldl_runLine (lines : List String) (host : Host ω ε) :
    host.outbox.diagnostics <+: (lines.foldl runLine host).outbox.diagnostics := by
  refine List.foldlRecOn lines runLine
    (motive := fun left : Host ω ε => host.outbox.diagnostics <+: left.outbox.diagnostics)
    (List.prefix_refl _) ?_
  intro left hleft line _
  exact hleft.trans (List.prefix_append _ _)

/-- What the console has told the process log stays told. -/
theorem diagnostics_prefix_happen (host : Host ω ε) (happening : Happening ω ε) :
    host.outbox.diagnostics <+: (host.happen happening).outbox.diagnostics := by
  cases happening with
  | part part =>
    cases part with
    | applySettings =>
      show host.outbox.diagnostics <+: host.applySettings.outbox.diagnostics
      unfold applySettings
      split
      · exact List.prefix_refl _
      · exact List.prefix_append _ _
    | runPending => exact diagnostics_foldl_runLine host.pending host
    | serveRequests =>
      show host.outbox.diagnostics <+: host.serveRequests.outbox.diagnostics
      rw [serveRequests_eq]
      exact (List.prefix_append _ _).trans (List.prefix_append _ _)
    | sendNotifications =>
      show _ <+: host.sendNotifications.outbox.diagnostics
      rw [sendNotifications_eq]
    | readTyped | queueInputs | showCaptured | print => exact List.prefix_refl _
  | doing doing =>
    show _ <+: (host.does doing).outbox.diagnostics
    rcases host.does_cases doing with ⟨console, hdone⟩ | ⟨settings, typed, inputs, capture, hdone⟩
    · rw [hdone]
      exact List.prefix_append _ _
    · rw [hdone]

theorem diagnostics_happen (host : Host ω ε) (happening : Happening ω ε) :
    (host.happen happening).outbox.diagnostics =
      host.outbox.diagnostics ++ host.toldLog happening := by
  obtain ⟨told, htold⟩ := host.diagnostics_prefix_happen happening
  rw [toldLog, ← htold, List.drop_left]

/-- What the console tells the process log is not shown. -/
theorem shown?_toldLog (host : Host ω ε) (happening : Happening ω ε) :
    ((host.toldLog happening).map Diagnostic.event).filterMap LogEvent.shown? = [] := by
  apply List.filterMap_eq_nil_iff.mpr
  intro event hevent
  obtain ⟨diagnostic, -, rfl⟩ := List.mem_map.mp hevent
  rw [LogEvent.shown?_eq, diagnostic.record?_event, Option.map_none]

theorem source_ne_capture_of_line {console : Console ω ε} {line : String} {world : Option ω}
    {revision : Revision} (h : revision ∈ console.revisions line world) :
    revision.source ≠ .capture := by
  unfold Console.revisions at h
  split at h
  · cases h
  · intro hcapture
    rcases List.mem_append.mp h with hopening | hrest
    · obtain ⟨deed, -, hdeed⟩ := List.mem_filterMap.mp hopening
      rcases Console.source_revision? hdeed with hsource | hsource
      · cases hcapture.symm.trans hsource
      · cases hcapture.symm.trans hsource
    · obtain ⟨deed, -, hdeed⟩ := List.mem_filterMap.mp hrest
      rcases Console.source_revision? hdeed with hsource | hsource
      · cases hcapture.symm.trans hsource
      · cases hcapture.symm.trans hsource

theorem source_ne_capture_of_lines (lines : List String) (host : Host ω ε) {revision : Revision}
    (h : revision ∈ host.revisionsByLines lines) : revision.source ≠ .capture := by
  induction lines generalizing host with
  | nil => cases h
  | cons line lines ih =>
    rcases List.mem_append.mp h with hline | hlater
    · exact source_ne_capture_of_line hline
    · exact ih (host.runLine line) hlater

theorem source_ne_capture_of_settings {before after : Settings} {revision : Revision}
    (h : revision ∈ before.revisions after) : revision.source ≠ .capture := by
  unfold Settings.revisions at h
  split at h
  · rw [List.mem_singleton.mp h]
    simp
  · cases h

theorem shown_of_isDeaf (host : Host ω ε) {happening : Happening ω ε}
    (hdeaf : happening.isDeaf = true) : host.shown happening = [] := by
  suffices hother : ∀ revision ∈ host.revisionsOf happening, revision.source ≠ .capture by
    rw [shown, List.filter_eq_nil_iff.mpr fun revision hmem => by simpa using hother revision hmem]
    rfl
  intro revision hmem
  cases happening with
  | part part =>
    cases part with
    | applySettings => exact source_ne_capture_of_settings hmem
    | runPending => exact source_ne_capture_of_lines host.pending host hmem
    | showCaptured => cases hdeaf
    | readTyped | queueInputs | serveRequests | sendNotifications | print => cases hmem
  | doing doing =>
    cases doing with
    | act activity own =>
      cases activity with
      | step step quiet =>
        cases step with
        | part part => cases own
        | use use =>
          cases use with
          | execute line world => exact source_ne_capture_of_line hmem
          | register | remove | offer | complete | resetCompletion | inputEdited => cases hmem
        | move | configure | submit | typeLine | log => cases hmem
      | print | editOutput =>
        rw [List.mem_singleton.mp hmem]
        simp
      | applySettings before after => exact source_ne_capture_of_settings hmem
      | editHistory | setFontSize => cases hmem
    | connect | disconnect => cases hmem

theorem Happening.event?_of_isDeaf {happening : Happening ω ε} (hdeaf : happening.isDeaf = true) :
    happening.event? = none := by
  unfold event?
  split
  · cases hdeaf
  · rfl

theorem capture_of_isDeaf (host : Host ω ε) {happening : Happening ω ε}
    (hdeaf : happening.isDeaf = true) : (host.happen happening).capture = host.capture :=
  congrArg (·.capture) (happen_hearing host.capture host.outbox.captured host hdeaf)

/-- **No captured event gets lost, repeated or overtaken** by anything that happens. -/
theorem shown_happen {host : Host ω ε} (h : host.capture.installed = true)
    (happening : Happening ω ε) :
    host.shown happening ++ (host.happen happening).capture.records.map LogRecord.edit =
        host.capture.records.map LogRecord.edit ++
          (host.emitted happening).filterMap LogEvent.shown? ∧
      (host.happen happening).capture.installed = true := by
  rw [emitted, List.filterMap_append, shown?_toldLog, List.append_nil]
  rcases happening.cases_isDeaf with hdeaf | rfl | ⟨event, quiet, own, rfl⟩
  · rw [host.shown_of_isDeaf hdeaf, host.capture_of_isDeaf hdeaf, Happening.event?_of_isDeaf hdeaf]
    exact ⟨by simp, h⟩
  · have hrecords : (host.capture.records.map fun record =>
        (⟨.capture, .push record.style record.message⟩ : Revision)).filter (·.source = .capture) =
        host.capture.records.map fun record => ⟨.capture, .push record.style record.message⟩ :=
      List.filter_eq_self.mpr (by simp)
    refine ⟨?_, h⟩
    show ((host.capture.records.map _).filter _).map _ ++ [] = _ ++ []
    rw [hrecords, List.map_map]
    rfl
  · have hobserved : (host.log event).capture =
        { host.capture with records := host.capture.records ++ event.record?.toList } := if_pos h
    show [] ++ (host.log event).capture.records.map LogRecord.edit = _ ∧
      (host.log event).capture.installed = true
    rw [hobserved]
    refine ⟨?_, h⟩
    have hone : [event].filterMap LogEvent.shown? = event.record?.toList.map LogRecord.edit := by
      rw [List.filterMap_cons, LogEvent.shown?_eq]
      cases event.record? <;> rfl
    rw [List.nil_append, List.map_append, ← hone]
    rfl

-- ════════════════════════════════════════════════════════════════════════
-- Runs
-- ════════════════════════════════════════════════════════════════════════

theorem output_afterRun (run : List (Happening ω ε)) (host : Host ω ε) :
    (host.afterRun run).console.output =
      host.console.output.after ((host.along revisionsOf run).map (·.edit)) := by
  induction run generalizing host with
  | nil => rfl
  | cons first run ih =>
    have hrest := ih (host.happen first)
    rwa [output_happen, ← Scrollback.after_append, ← List.map_append] at hrest

theorem along_shown (run : List (Happening ω ε)) (host : Host ω ε) :
    host.along shown run =
      ((host.along revisionsOf run).filter (·.source = .capture)).map (·.edit) := by
  induction run generalizing host with
  | nil => rfl
  | cons first run ih => rw [along, along, ih, List.filter_append, List.map_append, shown]

theorem diagnostics_afterRun (run : List (Happening ω ε)) (host : Host ω ε) :
    (host.afterRun run).outbox.diagnostics =
      host.outbox.diagnostics ++ host.along toldLog run := by
  induction run generalizing host with
  | nil => exact (List.append_nil _).symm
  | cons first run ih =>
    have hrest := ih (host.happen first)
    rwa [diagnostics_happen, List.append_assoc] at hrest

theorem shown_along (run : List (Happening ω ε)) {host : Host ω ε}
    (h : host.capture.installed = true) :
    host.along shown run ++ (host.afterRun run).capture.records.map LogRecord.edit =
      host.capture.records.map LogRecord.edit ++
        (host.along emitted run).filterMap LogEvent.shown? := by
  induction run generalizing host with
  | nil => exact (List.append_nil _).symm
  | cons first run ih =>
    obtain ⟨hfirst, hinstalled⟩ := shown_happen h first
    have hrest := ih hinstalled
    rw [along, along, List.filterMap_append, ← List.append_assoc, ← hfirst, List.append_assoc,
      List.append_assoc, ← hrest]
    rfl

/-- **Nothing is printed in place of what the console itself says.** -/
theorem printed_eq_of_own (run : List (Happening ω ε)) {host : Host ω ε} (hcapture : host.capture = {})
    (hown : ∀ event ∈ run.filterMap Happening.event?, event.record? = none) :
    host.afterRun (printed [] run) = host.afterRun run := by
  induction run generalizing host with
  | nil => rfl
  | cons first run ih =>
    rcases first.cases_isDeaf with hdeaf | rfl | ⟨event, quiet, own, rfl⟩
    · have hrest : ∀ event ∈ run.filterMap Happening.event?, event.record? = none := by
        rwa [List.filterMap_cons_none (Happening.event?_of_isDeaf hdeaf)] at hown
      rw [printed, replaced_of_isDeaf [] hdeaf]
      exact ih ((host.capture_of_isDeaf hdeaf).trans hcapture) hrest
    · have hidle : host.showCaptured = host := by
        cases host
        cases hcapture
        simp [showCaptured, Capture.take, LogRecord.showAll]
      show host.afterRun (printed [] run) = host.showCaptured.afterRun run
      rw [hidle]
      exact ih hcapture hown
    · obtain ⟨hnone, hrest⟩ := List.forall_mem_cons.mp hown
      have hidle : host.log event = host := by
        cases host
        cases hcapture
        rfl
      show host.afterRun (printed ([] ++ event.record?.toList) run) = (host.log event).afterRun run
      rw [hidle, hnone]
      exact ih hcapture hrest

/-- **Every event of another origin is shown once**, in the order in which the events came and in the style of
its level, and what the console itself says to the log never is. Two applications start alike, one of them with
the capture of the log. Whatever happens in the first one, the edits of its output that come from the capture, and
those of the records that still wait for a frame, are the ones that show the events that have reached the log, in
order; no record waits once a frame has shown the captured ones. The second one is left the same, apart from its
own capture, if the captured records are printed on it instead. So if nothing but the console speaks to the log,
the same run leaves both the same. -/
theorem captured_once (began : Host ω ε) (run : List (Happening ω ε)) :
    let heard := { began with capture := { installed := true } }.collect
    let deaf := { began with capture := {} }.collect
    let host := heard.afterRun run
    let revisions := heard.along revisionsOf run
    host.console.output = heard.console.output.after (revisions.map (·.edit)) ∧
      host.outbox.diagnostics = heard.outbox.diagnostics ++ heard.along toldLog run ∧
      (revisions.filter (·.source = .capture)).map (·.edit) ++
          host.capture.records.map LogRecord.edit =
        (heard.along emitted run).filterMap LogEvent.shown? ∧
      (host.happen (.part .showCaptured)).capture.records = [] ∧
      host = (deaf.afterRun (printed [] run)).hearing host.capture host.outbox.captured ∧
      ((∀ event ∈ run.filterMap Happening.event?, event.record? = none) →
        host = (deaf.afterRun run).hearing host.capture host.outbox.captured) := by
  intro heard deaf host revisions
  have hheard : heard = deaf.hearing ⟨true, []⟩ began.outbox.captured :=
    collect_hearing ⟨true, []⟩ began.outbox.captured { began with capture := {} }
  have hinstalled : heard.capture.installed = true := by rw [hheard]; rfl
  have hprinted : host = (deaf.afterRun (printed [] run)).hearing host.capture host.outbox.captured := by
    obtain ⟨waiting, captured, hleft⟩ :=
      afterRun_hearing run (settled_collect { began with capture := {} }) [] began.outbox.captured
    replace hleft : host = (deaf.afterRun (printed [] run)).hearing ⟨true, waiting⟩ captured := by
      show heard.afterRun run = _
      rw [hheard]
      exact hleft
    have hcapture : host.capture = ⟨true, waiting⟩ := congrArg (·.capture) hleft
    have hcaptured : host.outbox.captured = captured := congrArg (·.outbox.captured) hleft
    rw [hcapture, hcaptured]
    exact hleft
  refine ⟨output_afterRun run heard, diagnostics_afterRun run heard, ?_, rfl, hprinted, fun hown => ?_⟩
  · have haccount := shown_along run hinstalled
    have hnothing : heard.capture.records = [] := by rw [hheard]; rfl
    rw [along_shown, hnothing] at haccount
    exact haccount
  · have hdeaf : deaf.capture = {} := Capture.observeAll_diagnostics {} _
    rw [printed_eq_of_own run hdeaf hown] at hprinted
    exact hprinted

/-- An application that starts is one of those that start alike with and without the capture. -/
example (settings : Settings) (world : ω) (clock : Option Bool) (terminal : Terminal) (capture : Capture) :
    let began : Host ω ε := {
      console := connect (.withBuiltins settings), world, clock, settings, applied := settings, terminal }
    start settings world clock terminal capture = { began with capture }.collect := rfl

end Host

end CommandConsole
