import CommandConsole.Proofs.Console.Changes
import CommandConsole.Proofs.Console.Reachable
import CommandConsole.Proofs.Console.Tuning

/-!
# New settings

New settings are carried over to a console by up to six changes, two of which can close it. Only what differs
from the settings before is changed. However much differs at once, the console is closed at most once and says so
once, and a build that forbids it has the last word.

## Main definitions

- `Console.CarriesOver` — what becomes of a console when its settings change

## Main statements

- `Visibility.Consistent.state_after_moves` — whether the console can be seen under new settings
- `Visibility.Consistent.effects_moves` — what new settings announce
- `Console.carriesOver_applySettings` — applying new settings carries over what differs, and does nothing else
-/

namespace CommandConsole

namespace Visibility

variable {visibility : Visibility}

-- ════════════════════════════════════════════════════════════════════════
-- Where the moves of new settings lead
-- ════════════════════════════════════════════════════════════════════════

theorem Consistent.state_eq_ite (h : visibility.Consistent) :
    visibility.state = if visibility.isGated then .disabled else visibility.state := by
  split
  · rename_i hgated
    exact h.gated hgated
  · rfl

/-- Whether the console is allowed in a release build may be set anew. If the build then forbids it, it is
disabled. -/
theorem Consistent.state_allowed (h : visibility.Consistent) (changed on : Bool) :
    let next := visibility.after (if changed then [.allowInRelease on] else [])
    next.state = if next.isGated then .disabled else visibility.state := by
  cases changed with
  | false => exact h.state_eq_ite
  | true =>
    let allowing := { visibility with allowedInRelease := on }
    show allowing.enforceGate.2.state =
      if allowing.enforceGate.2.isGated then .disabled else allowing.state
    rw [isGated_enforceGate, state_enforceGate]

/-- Whether the console is enabled may be set anew. -/
theorem Consistent.state_enabled (h : visibility.Consistent) (before after : Bool) :
    let next := visibility.after (if before != after then [if after then .enable else .disable] else [])
    next.isGated = visibility.isGated ∧
      next.state =
        if visibility.isGated ∨ (before = true ∧ after = false) then .disabled
        else if (before = false ∧ after = true) ∧ visibility.state = .disabled then .closed
        else visibility.state := by
  match before, after with
  | false, false | true, true => exact ⟨rfl, h.state_eq_ite.trans (by simp)⟩
  | true, false =>
    have hdisabled : visibility.disable.2.state = .disabled := rfl
    exact ⟨visibility.isGated_disable, hdisabled.trans (by simp)⟩
  | false, true => exact ⟨visibility.isGated_enable, h.state_enable.trans (by simp)⟩

/-- **Whether the console can be seen under new settings.** If the build forbids it then, or if it is no longer
enabled, it is disabled. If it is newly enabled and was disabled, it can be opened. Otherwise it is as it was. -/
theorem Consistent.state_after_moves (h : visibility.Consistent) (before after : Settings) :
    (visibility.after (before.moves after)).state =
      if (visibility.after (before.moves after)).isGated ∨
          (before.enabled = true ∧ after.enabled = false) then .disabled
      else if (before.enabled = false ∧ after.enabled = true) ∧ visibility.state = .disabled then .closed
      else visibility.state := by
  have hpause (start : Visibility) (changed on : Bool) :
      (start.after (if changed then [.pauseEnabled on] else [])).isGated = start.isGated ∧
        (start.after (if changed then [.pauseEnabled on] else [])).state = start.state := by
    cases changed <;> exact ⟨rfl, rfl⟩
  rw [Settings.moves, after_append, after_append]
  generalize hallowed : visibility.after (if before.allowedInRelease != after.allowedInRelease then
    [.allowInRelease after.allowedInRelease] else []) = allowed
  have hconsistent : allowed.Consistent := hallowed ▸ h.after _
  have hstate : allowed.state = if allowed.isGated then .disabled else visibility.state :=
    hallowed ▸ h.state_allowed _ _
  obtain ⟨hsame, hkept⟩ := hpause allowed (before.pauseEnabled != after.pauseEnabled) after.pauseEnabled
  have hconsistent' := hconsistent.after
    (if before.pauseEnabled != after.pauseEnabled then [.pauseEnabled after.pauseEnabled] else [])
  obtain ⟨hgated, hfinal⟩ := hconsistent'.state_enabled before.enabled after.enabled
  rw [hfinal, hgated, hsame, hkept, hstate]
  by_cases hforbidden : allowed.isGated = true <;> simp [hforbidden]

/-- **What new settings announce**: a closing if they leave an open console disabled, and nothing otherwise. -/
theorem Consistent.effects_moves (h : visibility.Consistent) (before after : Settings) :
    visibility.effects (before.moves after) =
      if visibility.state = .opened ∧ (visibility.after (before.moves after)).state = .disabled then
        (Block.closing visibility.holdsPause).effects
      else [] := by
  have hdisabled (hopen : visibility.state = .opened) :
      (visibility.after (before.moves after)).state ≠ .opened ↔
        (visibility.after (before.moves after)).state = .disabled := by
    rw [h.state_after_moves before after, hopen]
    split <;> simp
  rw [h.effects_of_mayOpen (before.mayOpen_moves after)]
  exact if_congr (and_congr_right hdisabled) rfl rfl

/-- New settings ask for the clock to go on if they close a console that holds a pause. -/
theorem Consistent.requests_moves (h : visibility.Consistent) (before after : Settings) :
    visibility.requests (before.moves after) =
      if visibility.state = .opened ∧ (visibility.after (before.moves after)).state = .disabled ∧
          visibility.holdsPause = true then [.resume]
      else [] := by
  have hpicked := visibility.filterMap_effects Effect.request? (before.moves after)
  rw [h.effects_moves before after] at hpicked
  refine hpicked.symm.trans ?_
  by_cases hcloses : visibility.state = .opened ∧ (visibility.after (before.moves after)).state = .disabled
  · rw [if_pos hcloses]
    cases hholds : visibility.holdsPause <;> simp [hcloses.1, hcloses.2, Block.effects, Effect.request?]
  · rw [if_neg hcloses, if_neg fun hall => hcloses ⟨hall.1, hall.2.1⟩]
    rfl

end Visibility

/-- New settings limit the history if they choose another capacity. -/
theorem History.after_changes (history : History) (before after : Settings) :
    history.after ((before.changes after).filterMap Console.Change.historyEdit?) =
      if before.historyCapacity = after.historyCapacity then history
      else { entries := history.entries.rtake after.historyCapacity, capacity := after.historyCapacity } := by
  have hedits : (before.changes after).filterMap Console.Change.historyEdit? =
      if before.historyCapacity = after.historyCapacity then [] else [.limit after.historyCapacity] := by
    rw [Settings.filterMap_changes]
    by_cases hsame : before.historyCapacity = after.historyCapacity <;>
      simp [Console.Change.historyEdit?, hsame]
  rw [hedits]
  split <;> rfl

/-- New settings limit the output if they choose another number of rows. -/
theorem Scrollback.after_revisions (output : Scrollback) (before after : Settings) :
    output.after ((before.revisions after).map (·.edit)) =
      if before.maxOutputRows = after.maxOutputRows then output
      else
        { output with
          maxRows := after.maxOutputRows
          rows := if after.maxOutputRows = 0 then output.rows else output.rows.rtake after.maxOutputRows } := by
  have hrevisions : before.revisions after =
      if before.maxOutputRows = after.maxOutputRows then [] else [⟨.owner, .limit after.maxOutputRows⟩] := by
    by_cases hsame : before.maxOutputRows = after.maxOutputRows <;> simp [Settings.revisions, hsame]
  rw [hrevisions]
  split <;> rfl

/-- No change of the settings says what build this is. -/
theorem Settings.releaseBuild_notMem_moves (before after : Settings) (on : Bool) :
    Visibility.Move.releaseBuild on ∉ before.moves after := by
  cases henabled : after.enabled <;> simp [moves, henabled]

namespace Console

variable {ω ε : Type} {console : Console ω ε}

-- ════════════════════════════════════════════════════════════════════════
-- What new settings do to a console
-- ════════════════════════════════════════════════════════════════════════

/-- The one console is left by the other when its settings change. -/
structure CarriesOver (before after : Settings) (old new : Console ω ε) : Prop where
  /-- What the settings differ in is as they say now, and what they agree on is as it was. -/
  tuning : ∀ tunable, new.tuning.value tunable =
    if before.tuning.value tunable = after.tuning.value tunable then old.tuning.value tunable
    else after.tuning.value tunable
  releaseBuild : new.visibility.releaseBuild = old.visibility.releaseBuild
  /-- A build that forbids the console then has the last word. -/
  state : new.visibility.state =
    if new.visibility.isGated ∨ (before.enabled = true ∧ after.enabled = false) then .disabled
    else if (before.enabled = false ∧ after.enabled = true) ∧ old.visibility.state = .disabled then .closed
    else old.visibility.state
  holdsPause : new.visibility.holdsPause = (new.visibility.isOpen && old.visibility.holdsPause)
  /-- A pause that was held is taken back once. -/
  requests : new.requests = old.requests ++
    if old.visibility.state = .opened ∧ new.visibility.state = .disabled ∧
        old.visibility.holdsPause = true then [.resume]
    else []
  /-- Of all observers, only those of a closing can be called, and each of them once. -/
  notices : new.notices = old.notices ++
    if old.visibility.state = .opened ∧ new.visibility.state = .disabled then old.onClosed.notify () else []
  registry : new.registry = old.registry
  completion : new.completion = old.completion
  onOpened : new.onOpened = old.onOpened
  onClosed : new.onClosed = old.onClosed
  onUnknown : new.onUnknown = old.onUnknown
  /-- The newest lines stay, and browsing ends only if the capacity is chosen anew. -/
  history : new.history =
    if before.historyCapacity = after.historyCapacity then old.history
    else
      { entries := old.history.entries.rtake after.historyCapacity, capacity := after.historyCapacity }
  /-- The newest rows stay with their numbers. -/
  output : new.output =
    if before.maxOutputRows = after.maxOutputRows then old.output
    else
      { old.output with
        maxRows := after.maxOutputRows
        rows := if after.maxOutputRows = 0 then old.output.rows
          else old.output.rows.rtake after.maxOutputRows }

theorem value_applySettings (console : Console ω ε) (before after : Settings) (tunable : Tunable) :
    (console.applySettings before after).tuning.value tunable =
      if before.tuning.value tunable = after.tuning.value tunable then console.tuning.value tunable
      else after.tuning.value tunable := by
  rw [applySettings_eq_foldl, tuned_foldl_change, Tuning.written, Settings.filterMap_write?_changes]
  split <;> rfl

theorem recorded_closing (console : Console ω ε) (resumes : Bool) :
    (Visibility.Block.closing resumes).effects.flatMap console.recorded = console.onClosed.notify () := by
  cases resumes <;> exact List.append_nil _

/-- **New settings carry over what differs, and do nothing else.** However much differs at once, a console that was
made and used is left by them as `CarriesOver` says. -/
theorem carriesOver_applySettings (hreach : console.Reachable) (before after : Settings) :
    CarriesOver before after console (console.applySettings before after) := by
  have hconsistent := hreach.consistent
  have hmoved := console.moved_applySettings before after
  obtain ⟨visibility, fontSize, output, requests, diagnostics, hframe⟩ :=
    console.foldl_change_eq (before.changes after)
  rw [← applySettings_eq_foldl, Settings.moves_changes] at hframe
  exact {
    tuning := console.value_applySettings before after
    releaseBuild := by
      rw [hmoved.visibility]
      exact console.visibility.releaseBuild_after (before.releaseBuild_notMem_moves after)
    state := by
      rw [hmoved.visibility]
      exact hconsistent.state_after_moves before after
    holdsPause := by
      rw [hmoved.visibility]
      exact hconsistent.holdsPause_of_mayOpen (before.mayOpen_moves after)
    requests := by
      rw [hmoved.requests, hmoved.visibility, hconsistent.requests_moves]
    notices := by
      have hnotices := congrArg (·.notices) hframe
      rw [hmoved.visibility]
      rw [hconsistent.effects_moves before after] at hnotices
      refine hnotices.trans (congrArg (console.notices ++ ·) ?_)
      split
      · exact console.recorded_closing _
      · rfl
    registry := congrArg (·.registry) hframe
    completion := congrArg (·.completion) hframe
    onOpened := congrArg (·.onOpened) hframe
    onClosed := congrArg (·.onClosed) hframe
    onUnknown := congrArg (·.onUnknown) hframe
    history := (congrArg (·.history) hframe).trans (console.history.after_changes before after)
    output :=
      (console.output_applySettings before after).trans (console.output.after_revisions before after) }

/-- A console of a release build is open and holds a pause. The new settings forbid it in release builds, turn it
off and uncouple it from the clock, all at once: it is closed once, and the pause is taken back. -/
theorem closed_once_when_forbidden_and_disabled :
    let before : Settings := { allowedInRelease := true, pauseEnabled := true }
    let after : Settings := { enabled := false, fontSize := 20, maxOutputRows := 0 }
    let told : Observers Unit String := (Observers.connect .empty fun _ => "hidden").2
    let made : Console Unit String := { (fresh false before : Console Unit String) with onClosed := told }
    let console := (made.move (.releaseBuild true)).move .openUp
    let final := console.applySettings before after
    console.Reachable ∧ console.visibility.state = .opened ∧ console.requests = [.pause] ∧
      CarriesOver before after console final ∧
      final.visibility.state = .disabled ∧ final.requests = [.pause, .resume] ∧
      final.notices = ["hidden"] ∧ final.tuning = after.tuning := by
  intro before after told made console final
  have hmade : made.Reachable := (Reachable.fresh false before).observers .empty told .empty
  have hreach : console.Reachable := (hmade.change (.move (.releaseBuild true))).change (.move .openUp)
  exact ⟨hreach, by decide, by decide, carriesOver_applySettings hreach before after, by decide, by decide,
    by decide, by decide⟩

end Console

end CommandConsole
