import CommandConsole.Proofs.Console.Output
import CommandConsole.Proofs.Console.Requests
import CommandConsole.Proofs.History
import CommandConsole.Proofs.Visibility.Closing

/-!
# Changes of a console one after the other

Each change of a console touches its own part: the visibility, the letters, the history or the output. Only a
change of the visibility is announced. So what many changes do to one part can be read off the changes of that
part alone.

## Main definitions

- `Console.Change.edit?`, `Console.Change.historyEdit?` — the changes of the output, and of the history
- `Settings.revisions` — what a change of the settings does to the output

## Main statements

- `Console.foldl_change_eq` — changes leave the commands, the completion and the observers alone
- `Console.output_foldl_change` — what changes do to the output
- `Console.output_applySettings` — what new settings do to the output
-/

namespace CommandConsole

/-- What a change of the settings does to the output. -/
def Settings.revisions (before after : Settings) : List Revision :=
  if before.maxOutputRows != after.maxOutputRows then [⟨.owner, .limit after.maxOutputRows⟩] else []

namespace Console

variable {ω ε : Type}

/-- Printing changes the output, and it may tell the log. -/
theorem print_eq (console : Console ω ε) (style : Style) (text : String) (toLog : Bool) : ∃ diagnostics,
    console.print style text toLog =
      { console with output := console.output.push style text, diagnostics } := by
  unfold print
  cases toLog <;> exact ⟨_, rfl⟩

theorem output_move (console : Console ω ε) (move : Visibility.Move) :
    (console.move move).output = console.output := by
  obtain ⟨diagnostics, hmove⟩ := console.move_eq move
  rw [hmove]

def Change.edit? : Change → Option Scrollback.Edit
  | editOutput next => some next
  | _ => none

theorem output_foldl_change (changes : List Change) (console : Console ω ε) :
    (changes.foldl change console).output = console.output.after (changes.filterMap Change.edit?) := by
  induction changes generalizing console with
  | nil => rfl
  | cons next changes ih =>
    rw [List.foldl_cons, ih]
    cases next with
    | move next => exact congrArg (Scrollback.after · _) (console.output_move next)
    | setFontSize | editHistory | editOutput => rfl

theorem output_applySettings (console : Console ω ε) (before after : Settings) :
    (console.applySettings before after).output =
      console.output.after ((before.revisions after).map (·.edit)) := by
  have hedits : (before.changes after).filterMap Change.edit? =
      (before.revisions after).map (·.edit) := by
    rw [Settings.filterMap_changes]
    by_cases hsame : before.maxOutputRows = after.maxOutputRows <;>
      simp [Settings.revisions, Change.edit?, hsame]
  rw [applySettings_eq_foldl, output_foldl_change, hedits]

def Change.historyEdit? : Change → Option History.Edit
  | editHistory next => some next
  | _ => none

/-- **Changes leave the commands, the completion and the observers alone.** The history is changed by its own edits,
and the observers are called as the moves announce. -/
theorem foldl_change_eq (changes : List Change) (console : Console ω ε) :
    ∃ visibility fontSize output requests diagnostics,
      changes.foldl change console =
        { console with
          visibility, fontSize, output, requests, diagnostics
          history := console.history.after (changes.filterMap Change.historyEdit?)
          notices := console.notices ++
            (console.visibility.effects (changes.filterMap Change.move?)).flatMap console.recorded } := by
  induction changes generalizing console with
  | nil =>
    have hnone : console.notices = console.notices ++ [] := (List.append_nil _).symm
    exact ⟨_, _, _, _, _, congrArg (fun notices => { console with notices }) hnone⟩
  | cons next changes ih =>
    obtain ⟨visibility, fontSize, output, requests, diagnostics, hrest⟩ := ih (console.change next)
    refine ⟨visibility, fontSize, output, requests, diagnostics, ?_⟩
    rw [List.foldl_cons, hrest]
    cases next with
    | move next =>
      obtain ⟨diagnostics', hmove⟩ := console.move_eq next
      have hchange : console.change (.move next) = _ := hmove
      have hmoves : (Change.move next :: changes).filterMap Change.move? =
          next :: changes.filterMap Change.move? := rfl
      rw [hmoves, Visibility.effects_cons, List.flatMap_append, ← List.append_assoc,
        hchange]
      rfl
    | setFontSize | editHistory | editOutput => rfl

end Console

end CommandConsole
