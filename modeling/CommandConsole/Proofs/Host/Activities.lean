import CommandConsole.Proofs.Console.Changes
import CommandConsole.Proofs.Host.Steps

/-!
# What goes on in a frame

Before the new rows of a frame are printed, anything may have been done with the application and its console, in
any order. Each of these activities edits the output in a way that can be told beforehand, with the sources of
the edits, and none of them touches the terminal.

## Main definitions

- `Host.Activity`, `Host.act` — something that goes on before the rows are printed
- `Host.busy` — what a sequence of activities leaves
- `Host.afterFrames` — what a sequence of frames leaves, each of them ended by the printing of its rows
- `Host.revisions`, `Host.revisionsIn` — how the output is edited by an activity, and by many
- `Host.sourcedIn` — the rows that are pushed in the course of activities, each with its source

## Main statements

- `Host.frame_eq_busy` — a frame is a sequence of activities that ends with the printing
- `Host.writes_busy` — activities change the output by their revisions and leave the terminal alone
- `Host.exists_line_of_echo` — only lines that are run are echoed
-/

namespace CommandConsole

namespace Host

variable {ω ε : Type}

/-- Something that goes on in a frame before the new rows are printed. -/
inductive Activity (ω : Type) where
  /-- A part of the frame or a step of the owner, other than the printing. -/
  | step (step : Step ω) (quiet : step ≠ .part .print)
  /-- Print a text on the console. -/
  | print (style : Style) (text : String) (toLog : Bool)
  | editOutput (edit : Scrollback.Edit)
  | editHistory (edit : History.Edit)
  | setFontSize (size : Nat)
  | applySettings (before after : Settings)

def act (host : Host ω ε) : Activity ω → Host ω ε
  | .step step _ => host.step step
  | .print style text toLog => host.changeConsole (·.print style text toLog)
  | .editOutput edit => host.changeConsole (·.editOutput edit)
  | .editHistory edit => host.changeConsole (·.editHistory edit)
  | .setFontSize size => host.changeConsole (·.setFontSize size)
  | .applySettings before after => host.changeConsole (·.applySettings before after)

def busy (host : Host ω ε) (activities : List (Activity ω)) : Host ω ε := activities.foldl act host

/-- What is left by frames in which these activities go on. Each frame ends with the printing of its rows. -/
def afterFrames (host : Host ω ε) (frames : List (List (Activity ω))) : Host ω ε :=
  frames.foldl (fun host activities => (host.busy activities).print) host

/-- The parts of a frame before the printing. -/
def frameActivities : List (Activity ω) :=
  [.step (.part .readTyped) nofun, .step (.part .applySettings) nofun, .step (.part .queueInputs) nofun,
    .step (.part .runPending) nofun, .step (.part .serveRequests) nofun,
    .step (.part .sendNotifications) nofun, .step (.part .showCaptured) nofun]

/-- **A frame is a sequence of activities** that ends with the printing of its rows. -/
theorem frame_eq_busy (host : Host ω ε) : host.frame = (host.busy frameActivities).print := rfl

/-- The revisions that lines make when they are run one after the other. -/
def revisionsByLines (host : Host ω ε) : List String → List Revision
  | [] => []
  | line :: lines =>
    host.console.revisions line (some host.world) ++ (host.runLine line).revisionsByLines lines

def revisions (host : Host ω ε) : Activity ω → List Revision
  | .step (.part .applySettings) _ => host.applied.revisions host.settings
  | .step (.part .runPending) _ => host.revisionsByLines host.pending
  | .step (.part .showCaptured) _ =>
    host.capture.records.map fun record => ⟨.capture, .push record.style record.message⟩
  | .step (.use (.execute line world)) _ => host.console.revisions line world
  | .print style text _ => [⟨.owner, .push style text⟩]
  | .editOutput edit => [⟨.owner, edit⟩]
  | .applySettings before after => before.revisions after
  | _ => []

def revisionsIn (host : Host ω ε) : List (Activity ω) → List Revision
  | [] => []
  | first :: activities => host.revisions first ++ (host.act first).revisionsIn activities

/-- The rows that are pushed in the course of activities, each with its source. -/
def sourcedIn (host : Host ω ε) (activities : List (Activity ω)) : List (Source × Row) :=
  Revision.sourced host.console.output.nextSeq (host.revisionsIn activities)

end Host

-- ════════════════════════════════════════════════════════════════════════
-- Activities
-- ════════════════════════════════════════════════════════════════════════

namespace Host

variable {ω ε : Type}

/-- The output has been changed by these revisions. The terminal has not been touched. -/
structure Writes (before after : Host ω ε) (revisions : List Revision) : Prop where
  output : after.console.output = before.console.output.after (revisions.map (·.edit))
  terminal : after.terminal = before.terminal
  printed : after.outbox.printed = before.outbox.printed

theorem Writes.refl (host : Host ω ε) : Writes host host [] := ⟨rfl, rfl, rfl⟩

theorem Writes.trans {first second third : Host ω ε} {earlier later : List Revision}
    (h : Writes first second earlier) (h' : Writes second third later) :
    Writes first third (earlier ++ later) where
  output := by rw [h'.output, h.output, List.map_append, Scrollback.after_append]
  terminal := h'.terminal.trans h.terminal
  printed := h'.printed.trans h.printed

theorem writes_runLine (host : Host ω ε) (line : String) :
    Writes host (host.runLine line) (host.console.revisions line (some host.world)) :=
  ⟨host.console.output_dispatch line (some host.world), rfl, rfl⟩

theorem writes_foldl_runLine (lines : List String) (host : Host ω ε) :
    Writes host (lines.foldl runLine host) (host.revisionsByLines lines) := by
  induction lines generalizing host with
  | nil => exact Writes.refl host
  | cons line lines ih => exact (host.writes_runLine line).trans (ih (host.runLine line))

theorem writes_applySettings (host : Host ω ε) :
    Writes host host.applySettings (host.applied.revisions host.settings) := by
  unfold applySettings
  split
  · rename_i hsame
    rw [hsame]
    simpa [Settings.revisions] using Writes.refl host
  · let noted := host.console.note .debug ("Console: applying config " ++ host.settings.summary)
    exact ⟨noted.output_applySettings host.applied host.settings, rfl, rfl⟩

theorem writes_showCaptured (host : Host ω ε) :
    Writes host host.showCaptured
      (host.capture.records.map fun record => ⟨.capture, .push record.style record.message⟩) := by
  have hshow (records : List LogRecord) (output : Scrollback) :
      LogRecord.showAll records output =
        output.after (records.map fun record => .push record.style record.message) := by
    induction records generalizing output with
    | nil => rfl
    | cons record records ih => exact ih _
  refine ⟨?_, rfl, rfl⟩
  rw [List.map_map]
  exact hshow host.capture.records host.console.output

theorem writes_part (host : Host ω ε) (part : Part) (quiet : (.part part : Step ω) ≠ .part .print) :
    Writes host (host.runPart part) (host.revisions (.step (.part part) quiet)) := by
  cases part with
  | applySettings => exact host.writes_applySettings
  | runPending =>
    have hlines := writes_foldl_runLine host.pending host
    exact ⟨hlines.output, hlines.terminal, hlines.printed⟩
  | serveRequests =>
    show Writes host host.serveRequests []
    rw [serveRequests_eq]
    exact ⟨rfl, rfl, rfl⟩
  | sendNotifications =>
    show Writes host host.sendNotifications []
    rw [sendNotifications_eq]
    exact ⟨rfl, rfl, rfl⟩
  | showCaptured => exact host.writes_showCaptured
  | readTyped | queueInputs => exact ⟨rfl, rfl, rfl⟩
  | print => exact absurd rfl quiet

theorem writes_use (host : Host ω ε) (use : Console.Use ω)
    (quiet : (.use use : Step ω) ≠ .part .print) :
    Writes host (host.changeConsole (·.use use)) (host.revisions (.step (.use use) quiet)) := by
  cases use with
  | execute line world => exact ⟨host.console.output_dispatch line world, rfl, rfl⟩
  | offer name place values =>
    obtain ⟨registry, completion, hoffer⟩ := host.console.offer_eq name place values
    exact ⟨congrArg (·.output) hoffer, rfl, rfl⟩
  | register | remove | complete | resetCompletion | inputEdited => exact ⟨rfl, rfl, rfl⟩

theorem writes_act (host : Host ω ε) (activity : Activity ω) :
    Writes host (host.act activity) (host.revisions activity) := by
  cases activity with
  | step step quiet =>
    cases step with
    | part part => exact host.writes_part part quiet
    | move move => exact ⟨host.console.output_move move, rfl, rfl⟩
    | use use => exact host.writes_use use quiet
    | typeLine line =>
      obtain ⟨typed, htyped⟩ := host.typeLine_eq line
      show Writes host (host.typeLine line) []
      rw [htyped]
      exact ⟨rfl, rfl, rfl⟩
    | configure | submit | log => exact ⟨rfl, rfl, rfl⟩
  | print style text toLog =>
    obtain ⟨diagnostics, hprint⟩ := host.console.print_eq style text toLog
    exact ⟨congrArg (·.output) hprint, rfl, rfl⟩
  | applySettings before after => exact ⟨host.console.output_applySettings before after, rfl, rfl⟩
  | editOutput | editHistory | setFontSize => exact ⟨rfl, rfl, rfl⟩

/-- **Activities change the output by their revisions** and leave the terminal alone. -/
theorem writes_busy (activities : List (Activity ω)) (host : Host ω ε) :
    Writes host (host.busy activities) (host.revisionsIn activities) := by
  induction activities generalizing host with
  | nil => exact Writes.refl host
  | cons first activities ih => exact (host.writes_act first).trans (ih (host.act first))

-- ════════════════════════════════════════════════════════════════════════
-- Echoes
-- ════════════════════════════════════════════════════════════════════════

theorem exists_line_of_echo_lines (lines : List String) (host : Host ω ε) {revision : Revision}
    (hmem : revision ∈ host.revisionsByLines lines) (hecho : revision.source = .echo) :
    ∃ line, revision.edit = .push .plain ("> " ++ Text.trim line) := by
  induction lines generalizing host with
  | nil => cases hmem
  | cons line lines ih =>
    rcases List.mem_append.mp hmem with hline | hlater
    · exact ⟨line, Console.edit_of_echo hline hecho⟩
    · exact ih _ hlater

theorem exists_line_of_echo_act (host : Host ω ε) (activity : Activity ω) {revision : Revision}
    (hmem : revision ∈ host.revisions activity) (hecho : revision.source = .echo) :
    ∃ line, revision.edit = .push .plain ("> " ++ Text.trim line) := by
  have hsettings (before after : Settings) (h : revision ∈ before.revisions after) :
      revision.source = .owner := by
    unfold Settings.revisions at h
    split at h
    · rw [List.mem_singleton.mp h]
    · cases h
  cases activity with
  | step step quiet =>
    cases step with
    | part part =>
      cases part with
      | applySettings => cases hecho.symm.trans (hsettings _ _ hmem)
      | runPending => exact exists_line_of_echo_lines _ _ hmem hecho
      | showCaptured =>
        obtain ⟨record, -, rfl⟩ := List.mem_map.mp hmem
        cases hecho
      | readTyped | queueInputs | serveRequests | sendNotifications | print => cases hmem
    | use use =>
      cases use with
      | execute line world => exact ⟨line, Console.edit_of_echo hmem hecho⟩
      | register | remove | offer | complete | resetCompletion | inputEdited => cases hmem
    | move | configure | submit | typeLine | log => cases hmem
  | applySettings before after => cases hecho.symm.trans (hsettings _ _ hmem)
  | print | editOutput =>
    rw [List.mem_singleton.mp hmem] at hecho
    cases hecho
  | editHistory | setFontSize => cases hmem

/-- Only lines that are run are echoed. -/
theorem exists_line_of_echo (activities : List (Activity ω)) (host : Host ω ε) {revision : Revision}
    (hmem : revision ∈ host.revisionsIn activities) (hecho : revision.source = .echo) :
    ∃ line, revision.edit = .push .plain ("> " ++ Text.trim line) := by
  induction activities generalizing host with
  | nil => cases hmem
  | cons first activities ih =>
    rcases List.mem_append.mp hmem with hfirst | hlater
    · exact host.exists_line_of_echo_act first hfirst hecho
    · exact ih _ hlater

end Host

end CommandConsole
