import CommandConsole.Proofs.Console.Output
import CommandConsole.Proofs.Console.Requests
import CommandConsole.Proofs.Console.Uses
import CommandConsole.Proofs.History

/-!
# What a console is tuned to

Five choices are made for a console by its settings, and any of them can be made anew while it runs, by its
owner or by a handler. Each choice is independent of the others: it is as it was made last, whoever made it.
New settings make a choice only where they differ from the settings before.

## Main definitions

- `Tunable`, `Tuning` — the five choices, and one way to make them all
- `Settings.tuning`, `Console.tuning` — how settings make them, and how they are made in a console
- `Console.Change.write?` — the choice that a change makes
- `Tuning.written` — a choice as some changes leave it
- `Console.Tuned` — a console differs from another one by the choices that some changes make

## Main statements

- `Console.tuned_change` — a change of a console makes one choice or none
- `Console.tuned_dispatch` — a line that is run makes the choices of its handler
- `Settings.filterMap_write?_changes` — new settings make the choices in which they differ from the old ones
-/

namespace CommandConsole

inductive Tunable where
  | allowedInRelease
  | pauseEnabled
  | fontSize
  | historyCapacity
  | maxOutputRows
  deriving DecidableEq, Repr

def Tunable.Value : Tunable → Type
  | allowedInRelease | pauseEnabled => Bool
  | fontSize | historyCapacity | maxOutputRows => Nat

instance (tunable : Tunable) : DecidableEq tunable.Value :=
  match tunable with
  | .allowedInRelease | .pauseEnabled => inferInstanceAs (DecidableEq Bool)
  | .fontSize | .historyCapacity | .maxOutputRows => inferInstanceAs (DecidableEq Nat)

/-- What can be chosen by settings and chosen anew while a console runs. -/
structure Tuning where
  allowedInRelease : Bool
  pauseEnabled : Bool
  fontSize : Nat
  historyCapacity : Nat
  maxOutputRows : Nat
  deriving DecidableEq, Repr

def Tuning.value (tuning : Tuning) : (tunable : Tunable) → tunable.Value
  | .allowedInRelease => tuning.allowedInRelease
  | .pauseEnabled => tuning.pauseEnabled
  | .fontSize => tuning.fontSize
  | .historyCapacity => tuning.historyCapacity
  | .maxOutputRows => tuning.maxOutputRows

def Settings.tuning (settings : Settings) : Tuning :=
  { allowedInRelease := settings.allowedInRelease
    pauseEnabled := settings.pauseEnabled
    fontSize := settings.fontSize
    historyCapacity := settings.historyCapacity
    maxOutputRows := settings.maxOutputRows }

variable {ω ε : Type}

def Console.tuning (console : Console ω ε) : Tuning :=
  { allowedInRelease := console.visibility.allowedInRelease
    pauseEnabled := console.visibility.pauseEnabled
    fontSize := console.fontSize
    historyCapacity := console.history.capacity
    maxOutputRows := console.output.maxRows }

/-- The choice that a change makes, if it makes this one. -/
def Console.Change.write? : Console.Change → (tunable : Tunable) → Option tunable.Value
  | .move (.allowInRelease on), .allowedInRelease => some on
  | .move (.pauseEnabled on), .pauseEnabled => some on
  | .setFontSize size, .fontSize => some size
  | .editHistory (.limit capacity), .historyCapacity => some capacity
  | .editOutput (.limit maxRows), .maxOutputRows => some maxRows
  | _, _ => none

theorem getLastD_append {α : Type} (earlier later : List α) (first : α) :
    (earlier ++ later).getLastD first = later.getLastD (earlier.getLastD first) := by
  simp only [List.getLastD_eq_getLast?, List.getLast?_append]
  cases later.getLast? <;> rfl

/-- The choice that was made last by some changes, or the one before them. -/
def Tuning.written (tuning : Tuning) (changes : List Console.Change) (tunable : Tunable) :
    tunable.Value :=
  (changes.filterMap (·.write? tunable)).getLastD (tuning.value tunable)

-- ════════════════════════════════════════════════════════════════════════
-- One change
-- ════════════════════════════════════════════════════════════════════════

theorem History.capacity_edit (history : History) (edit : History.Edit)
    (h : ∀ capacity, edit ≠ .limit capacity) : (history.edit edit).capacity = history.capacity := by
  cases edit with
  | record line => exact history.capacity_record line
  | older input =>
    show (history.older input).2.capacity = history.capacity
    unfold older
    split
    · rfl
    · split <;> rfl
  | newer =>
    show history.newer.2.capacity = history.capacity
    unfold newer
    split
    · rfl
    · split <;> rfl
  | leave | clear => rfl
  | limit capacity => exact absurd rfl (h capacity)

namespace Visibility

/-- The two switches of one visibility are set as in the other one. -/
def SameSwitches (before after : Visibility) : Prop :=
  after.allowedInRelease = before.allowedInRelease ∧ after.pauseEnabled = before.pauseEnabled

theorem sameSwitches_openUp (visibility : Visibility) : visibility.SameSwitches visibility.openUp.2 := by
  unfold openUp
  split
  · split <;> exact ⟨rfl, rfl⟩
  · exact ⟨rfl, rfl⟩

theorem sameSwitches_close (visibility : Visibility) : visibility.SameSwitches visibility.close.2 := by
  unfold close
  split <;> exact ⟨rfl, rfl⟩

theorem sameSwitches_toggle (visibility : Visibility) : visibility.SameSwitches visibility.toggle.2 := by
  unfold toggle
  split
  · exact visibility.sameSwitches_close
  · exact visibility.sameSwitches_openUp

theorem sameSwitches_enable (visibility : Visibility) : visibility.SameSwitches visibility.enable.2 := by
  unfold enable
  split
  · exact ⟨rfl, rfl⟩
  · dsimp only
    split <;> exact ⟨rfl, rfl⟩

theorem sameSwitches_enforceGate (visibility : Visibility) :
    visibility.SameSwitches visibility.enforceGate.2 := by
  unfold enforceGate
  split
  · exact visibility.sameSwitches_close
  · exact ⟨rfl, rfl⟩

end Visibility

namespace Console

theorem value_of_sameSwitches {before after : Visibility} (h : before.SameSwitches after)
    (console : Console ω ε) (tunable : Tunable) :
    { console with visibility := after }.tuning.value tunable =
      { console with visibility := before }.tuning.value tunable := by
  cases tunable with
  | allowedInRelease => exact h.1
  | pauseEnabled => exact h.2
  | fontSize | historyCapacity | maxOutputRows => rfl

theorem value_move (console : Console ω ε) (next : Visibility.Move) (tunable : Tunable) :
    (console.move next).tuning.value tunable =
      ((Change.move next).write? tunable).getD (console.tuning.value tunable) := by
  obtain ⟨diagnostics, hmove⟩ := console.move_eq next
  have hvalue : (console.move next).tuning.value tunable =
      { console with visibility := (console.visibility.move next).2 }.tuning.value tunable := by
    rw [hmove]
    rfl
  rw [hvalue]
  cases next with
  | enable => exact value_of_sameSwitches console.visibility.sameSwitches_enable console tunable
  | disable => exact value_of_sameSwitches console.visibility.sameSwitches_close console tunable
  | openUp => exact value_of_sameSwitches console.visibility.sameSwitches_openUp console tunable
  | close => exact value_of_sameSwitches console.visibility.sameSwitches_close console tunable
  | toggle => exact value_of_sameSwitches console.visibility.sameSwitches_toggle console tunable
  | releaseBuild on =>
    have hgate := { console.visibility with releaseBuild := on }.sameSwitches_enforceGate
    exact value_of_sameSwitches hgate console tunable
  | allowInRelease on =>
    have hgate := { console.visibility with allowedInRelease := on }.sameSwitches_enforceGate
    refine (value_of_sameSwitches hgate console tunable).trans ?_
    cases tunable <;> rfl
  | pauseEnabled on => cases tunable <;> rfl

/-- A change makes one choice or none. -/
theorem value_change (console : Console ω ε) (next : Change) (tunable : Tunable) :
    (console.change next).tuning.value tunable =
      (next.write? tunable).getD (console.tuning.value tunable) := by
  cases next with
  | move next => exact console.value_move next tunable
  | setFontSize size => cases tunable <;> rfl
  | editHistory edit =>
    have hother : ∀ edit : History.Edit, (∀ capacity, edit ≠ .limit capacity) →
        (console.editHistory edit).tuning.value tunable = console.tuning.value tunable := by
      intro edit hedit
      cases tunable with
      | historyCapacity => exact console.history.capacity_edit edit hedit
      | allowedInRelease | pauseEnabled | fontSize | maxOutputRows => rfl
    cases edit with
    | limit capacity => cases tunable <;> rfl
    | record | older | newer | leave | clear =>
      refine (hother _ (by simp)).trans ?_
      cases tunable <;> rfl
  | editOutput edit => cases edit <;> cases tunable <;> rfl

-- ════════════════════════════════════════════════════════════════════════
-- Many changes
-- ════════════════════════════════════════════════════════════════════════

/-- The choices of the one console are those of the other as these changes leave them. -/
def Tuned (before after : Console ω ε) (changes : List Change) : Prop :=
  ∀ tunable, after.tuning.value tunable = before.tuning.written changes tunable

theorem Tuned.of_eq {before after : Console ω ε} (h : after.tuning = before.tuning) :
    Tuned before after [] := fun tunable => congrArg (·.value tunable) h

theorem Tuned.trans {first second third : Console ω ε} {earlier later : List Change}
    (h : Tuned first second earlier) (h' : Tuned second third later) :
    Tuned first third (earlier ++ later) := by
  intro tunable
  rw [h' tunable, Tuning.written, h tunable, Tuning.written, Tuning.written, List.filterMap_append,
    getLastD_append]

theorem tuned_change (console : Console ω ε) (next : Change) :
    Tuned console (console.change next) [next] := by
  intro tunable
  rw [value_change, Tuning.written]
  cases hwrite : next.write? tunable <;> simp [hwrite]

theorem tuned_foldl_change (changes : List Change) (console : Console ω ε) :
    Tuned console (changes.foldl change console) changes := by
  induction changes generalizing console with
  | nil => exact Tuned.of_eq rfl
  | cons next changes ih => exact (console.tuned_change next).trans (ih (console.change next))

/-- A console that has just been made is tuned to its settings. -/
theorem tuning_new (settings : Settings) :
    (new settings : Console ω ε).tuning = settings.tuning := by
  obtain ⟨enabled, allowed, pause, fontSize, capacity, maxRows⟩ := settings
  cases enabled <;> cases allowed <;> cases pause <;> rfl

end Console

/-- **New settings make the choices in which they differ from the settings before**, and no others. -/
theorem Settings.filterMap_write?_changes (before after : Settings) (tunable : Tunable) :
    (before.changes after).filterMap (·.write? tunable) =
      if before.tuning.value tunable = after.tuning.value tunable then []
      else [after.tuning.value tunable] := by
  have hswitch (on : Bool) :
      (Console.Change.move (if on then .enable else .disable)).write? tunable = none := by
    cases on <;> cases tunable <;> rfl
  rw [filterMap_changes, hswitch]
  by_cases hsame : before.tuning.value tunable = after.tuning.value tunable
  · rw [if_pos hsame]
    cases tunable <;> simp only [Tuning.value, Settings.tuning] at hsame <;>
      simp [hsame, Console.Change.write?]
  · rw [if_neg hsame]
    cases tunable <;> simp [Console.Change.write?, Tuning.value, Settings.tuning] <;>
      exact if_neg hsame

-- ════════════════════════════════════════════════════════════════════════
-- Lines
-- ════════════════════════════════════════════════════════════════════════

/-- A step in the running of a line, as far as it changes the output or the history. -/
def Deed.change? : Deed ω → Option Console.Change
  | .push style text => some (.editOutput (.push style text))
  | .record line => some (.editHistory (.record line))
  | .handle (.output edit) => some (.editOutput edit)
  | .handle (.history edit) => some (.editHistory edit)
  | _ => none

namespace Console

/-- The changes that a line makes to the output and to the history. -/
def changes (console : Console ω ε) (line : String) (world : Option ω) : List Change :=
  if (Line.read line).isEmpty then []
  else (openingDeeds line ++ console.concluding line world).filterMap Deed.change?

theorem tuned_perform (state : Console ω ε × Option ω) (deed : Deed ω) :
    Tuned state.1 (perform state deed).1 deed.change?.toList := by
  cases deed with
  | push style text => exact state.1.tuned_change (.editOutput (.push style text))
  | record line => exact state.1.tuned_change (.editHistory (.record line))
  | handle operation =>
    cases operation with
    | output edit => exact state.1.tuned_change (.editOutput edit)
    | history edit => exact state.1.tuned_change (.editHistory edit)
    | request | world => exact Tuned.of_eq rfl
  | forget | tell | log => exact Tuned.of_eq rfl

theorem tuned_foldl_perform (deeds : List (Deed ω)) (state : Console ω ε × Option ω) :
    Tuned state.1 (deeds.foldl perform state).1 (deeds.filterMap Deed.change?) := by
  induction deeds generalizing state with
  | nil => exact Tuned.of_eq rfl
  | cons deed deeds ih =>
    have hboth := (tuned_perform state deed).trans (ih (perform state deed))
    rw [List.foldl_cons]
    cases hchange : deed.change? <;> simpa [hchange] using hboth

/-- **A line that is run makes the choices of its handler.** -/
theorem tuned_dispatch (console : Console ω ε) (line : String) (world : Option ω) :
    Tuned console (console.dispatch line world).2.1 (console.changes line world) := by
  unfold changes
  by_cases hname : (Line.read line).command = ""
  · have hempty : (Line.read line).isEmpty = true := by simpa [Line.isEmpty] using hname
    rw [console.dispatch_unnamed world hname, if_pos hempty]
    exact Tuned.of_eq rfl
  · have hnamed : (Line.read line).isEmpty = false := by simpa [Line.isEmpty] using hname
    rw [console.dispatch_eq_foldl line world hname, if_neg (by simp [hnamed])]
    exact tuned_foldl_perform _ (console, world)

end Console

end CommandConsole
