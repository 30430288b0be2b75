import CommandConsole.Proofs.Console.Tuning
import CommandConsole.Proofs.Host.Runs

/-!
# Settings and setters side by side

The settings of an application may be edited at any time, and its console may be tuned at any time in other
ways: by its owner and by handlers. A frame tells the console what the settings say. It then takes over what
they say differently than when it was last told, and keeps the rest as it is.

## Main definitions

- `Host.changes` — the changes that are made to the console when something happens
- `Host.told` — the settings that a frame tells the console

## Main statements

- `Host.tuned_happen` — what happens tunes the console as its changes do
- `Host.applied_afterRun` — the application remembers the settings that the console was told last
- `Host.tuned_by_last_writer` — every choice is as it was made last
-/

namespace CommandConsole.Host

variable {ω ε : Type}

/-- The changes that lines make when they are run one after the other. -/
def changesByLines (host : Host ω ε) : List String → List Console.Change
  | [] => []
  | line :: lines =>
    host.console.changes line (some host.world) ++ (host.runLine line).changesByLines lines

/-- The changes to the console that can make a choice when something happens. -/
def changes (host : Host ω ε) : Happening ω ε → List Console.Change
  | .part .applySettings => host.applied.changes host.settings
  | .part .runPending => host.changesByLines host.pending
  | .doing (.act (.step (.move move) _) _) => [.move move]
  | .doing (.act (.step (.use (.execute line world)) _) _) => host.console.changes line world
  | .doing (.act (.editOutput edit) _) => [.editOutput edit]
  | .doing (.act (.editHistory edit) _) => [.editHistory edit]
  | .doing (.act (.setFontSize size) _) => [.setFontSize size]
  | .doing (.act (.applySettings before after) _) => before.changes after
  | _ => []

/-- The settings that a part of a frame tells the console. -/
def told (host : Host ω ε) : Happening ω ε → List Settings
  | .part .applySettings => [host.settings]
  | _ => []

-- ════════════════════════════════════════════════════════════════════════
-- What happens once
-- ════════════════════════════════════════════════════════════════════════

theorem tuned_foldl_runLine (lines : List String) (host : Host ω ε) :
    host.console.Tuned (lines.foldl runLine host).console (host.changesByLines lines) := by
  induction lines generalizing host with
  | nil => exact Console.Tuned.of_eq rfl
  | cons line lines ih =>
    have hline : host.console.Tuned (host.runLine line).console
        (host.console.changes line (some host.world)) :=
      host.console.tuned_dispatch line (some host.world)
    exact hline.trans (ih (host.runLine line))

theorem tuned_applySettings (host : Host ω ε) :
    host.console.Tuned host.applySettings.console (host.applied.changes host.settings) := by
  unfold applySettings
  split
  · rename_i hsame
    intro tunable
    simp [Tuning.written, Settings.filterMap_write?_changes, hsame]
  · let noted := host.console.note .debug ("Console: applying config " ++ host.settings.summary)
    have htuned : noted.Tuned (noted.applySettings host.applied host.settings)
        (host.applied.changes host.settings) := by
      rw [Console.applySettings_eq_foldl]
      exact noted.tuned_foldl_change _
    exact htuned

theorem tuned_part (host : Host ω ε) (part : Part) :
    host.console.Tuned (host.runPart part).console (host.changes (.part part)) := by
  cases part with
  | applySettings => exact host.tuned_applySettings
  | runPending => exact tuned_foldl_runLine host.pending host
  | serveRequests => exact Console.Tuned.of_eq (congrArg (·.console.tuning) host.serveRequests_eq)
  | showCaptured =>
    have hlimit : (LogRecord.showAll host.capture.records host.console.output).maxRows =
        host.console.output.maxRows := by
      generalize host.console.output = output
      induction host.capture.records generalizing output with
      | nil => rfl
      | cons record records ih => exact ih (record.showIn output)
    refine Console.Tuned.of_eq ?_
    simp only [Console.tuning, runPart, showCaptured, Capture.take, hlimit]
  | readTyped | queueInputs | sendNotifications | print => exact Console.Tuned.of_eq rfl

theorem tuned_step (host : Host ω ε) (step : Step ω) (quiet : step ≠ .part .print)
    (own : (Activity.step step quiet).isPart = false) :
    host.console.Tuned (host.step step).console (host.changes (.doing (.act (.step step quiet) own))) := by
  cases step with
  | part part => cases own
  | move move => exact host.console.tuned_change (.move move)
  | use use =>
    cases use with
    | execute line world => exact host.console.tuned_dispatch line world
    | offer name place values =>
      obtain ⟨registry, completion, hoffer⟩ := host.console.offer_eq name place values
      exact Console.Tuned.of_eq (congrArg (·.tuning) hoffer)
    | inputEdited => exact Console.Tuned.of_eq rfl
    | register | remove | complete | resetCompletion => exact Console.Tuned.of_eq rfl
  | typeLine line =>
    obtain ⟨typed, htyped⟩ := host.typeLine_eq line
    exact Console.Tuned.of_eq (congrArg (·.console.tuning) htyped)
  | configure | submit | log => exact Console.Tuned.of_eq rfl

theorem tuned_does (host : Host ω ε) (doing : Doing ω ε) :
    host.console.Tuned (host.does doing).console (host.changes (.doing doing)) := by
  cases doing with
  | act activity own =>
    cases activity with
    | step step quiet => exact host.tuned_step step quiet own
    | print style text toLog =>
      obtain ⟨diagnostics, hprint⟩ := host.console.print_eq style text toLog
      exact Console.Tuned.of_eq (congrArg (·.tuning) hprint)
    | editOutput edit => exact host.console.tuned_change (.editOutput edit)
    | editHistory edit => exact host.console.tuned_change (.editHistory edit)
    | setFontSize size => exact host.console.tuned_change (.setFontSize size)
    | applySettings before after =>
      show host.console.Tuned (host.console.applySettings before after) (before.changes after)
      rw [Console.applySettings_eq_foldl]
      exact host.console.tuned_foldl_change _
  | connect listener => cases listener <;> exact Console.Tuned.of_eq rfl
  | disconnect event id => cases event <;> exact Console.Tuned.of_eq rfl

/-- **What happens tunes the console as its changes do.** -/
theorem tuned_happen (host : Host ω ε) (happening : Happening ω ε) :
    host.console.Tuned (host.happen happening).console (host.changes happening) := by
  cases happening with
  | part part => exact host.tuned_part part
  | doing doing => exact host.tuned_does doing

theorem applied_foldl_runLine (lines : List String) (host : Host ω ε) :
    (lines.foldl runLine host).applied = host.applied := by
  refine List.foldlRecOn lines runLine (motive := fun left : Host ω ε => left.applied = host.applied) rfl ?_
  intro left hleft line _
  exact hleft

theorem applied_applySettings (host : Host ω ε) : host.applySettings.applied = host.settings := by
  unfold applySettings
  split
  · assumption
  · rfl

theorem applied_happen (host : Host ω ε) (happening : Happening ω ε) :
    (host.happen happening).applied = (host.told happening).getLastD host.applied := by
  cases happening with
  | part part =>
    cases part with
    | applySettings => exact host.applied_applySettings
    | runPending => exact applied_foldl_runLine host.pending host
    | serveRequests => exact congrArg (·.applied) host.serveRequests_eq
    | readTyped | queueInputs | sendNotifications | showCaptured | print => rfl
  | doing doing =>
    rcases host.does_cases doing with ⟨console, hdone⟩ | ⟨settings, typed, inputs, capture, hdone⟩
    · exact congrArg (·.applied) hdone
    · exact congrArg (·.applied) hdone

-- ════════════════════════════════════════════════════════════════════════
-- Runs
-- ════════════════════════════════════════════════════════════════════════

theorem tuned_afterRun (run : List (Happening ω ε)) (host : Host ω ε) :
    host.console.Tuned (host.afterRun run).console (host.along changes run) := by
  induction run generalizing host with
  | nil => exact Console.Tuned.of_eq rfl
  | cons first run ih => exact (host.tuned_happen first).trans (ih (host.happen first))

/-- **The application remembers the settings that the console was told last.** -/
theorem applied_afterRun (run : List (Happening ω ε)) (host : Host ω ε) :
    (host.afterRun run).applied = (host.along told run).getLastD host.applied := by
  induction run generalizing host with
  | nil => rfl
  | cons first run ih =>
    have hrest := ih (host.happen first)
    rw [applied_happen] at hrest
    rw [along, getLastD_append]
    exact hrest

theorem tuning_start (settings : Settings) (world : ω) (clock : Option Bool) (terminal : Terminal)
    (capture : Capture) :
    (start settings world clock terminal capture : Host ω ε).console.tuning = settings.tuning := by
  obtain ⟨registry, diagnostics, hregistered⟩ :=
    (Console.new settings : Console ω (Notice ε)).registerBuiltins_eq
  unfold start Console.withBuiltins
  rw [hregistered]
  exact Console.tuning_new settings

/-- **Every choice is as it was made last.** Whatever happens in an application and in which order, when a frame
tells the console the settings, each choice is taken from them if they differ in it from the settings that the
console was told before, or was made with, and stays as it is otherwise. Settings that are the same as then
change nothing at all. A choice is at any time the last one that settings in this way, the owner or a handler
have made. -/
theorem tuned_by_last_writer (settings : Settings) (world : ω) (clock : Option Bool)
    (terminal : Terminal) (capture : Capture) (run : List (Happening ω ε)) (tunable : Tunable) :
    let started : Host ω ε := start settings world clock terminal capture
    let host := started.afterRun run
    let previous := (started.along told run).getLastD settings
    let next := host.happen (.part .applySettings)
    next.console.tuning.value tunable =
        (if host.settings.tuning.value tunable = previous.tuning.value tunable then
          host.console.tuning.value tunable
        else host.settings.tuning.value tunable) ∧
      (host.settings = previous → next = host) ∧
      host.console.tuning.value tunable =
        settings.tuning.written (started.along changes run) tunable := by
  intro started host previous next
  have happlied : host.applied = previous := applied_afterRun run started
  refine ⟨?_, fun hsame => ?_, ?_⟩
  · have htuned := host.tuned_applySettings tunable
    rw [happlied, Tuning.written, Settings.filterMap_write?_changes] at htuned
    refine htuned.trans ?_
    by_cases hsame : host.settings.tuning.value tunable = previous.tuning.value tunable
    · rw [if_pos hsame, if_pos hsame.symm]
      rfl
    · rw [if_neg hsame, if_neg (Ne.symm hsame)]
      rfl
  · exact if_pos (happlied.trans hsame.symm)
  · rw [tuned_afterRun run started tunable, Tuning.written, tuning_start]
    rfl

end CommandConsole.Host
