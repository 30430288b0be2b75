import CommandConsole.Proofs.Console.Requests
import CommandConsole.Proofs.Console.Uses

/-!
# Consoles in use

A console is made from settings and then used: commands come and go, lines are run, its owner opens and closes it
and changes what it shows and keeps, observers are connected, and what leaves it is taken. Through all of this it
stays disabled while its build forbids it.

## Main definitions

- `Console.Reachable` — the consoles that come of making one and using it

## Main statements

- `Console.visibility_new` — the moves by which a console is made
- `Console.Reachable.consistent` — a console in use is disabled if its build forbids it
-/

namespace CommandConsole.Console

variable {ω ε : Type}

/-- A console that was made at some time and has been used since. It may have been changed by its owner, which new
settings do, too. Observers may have come and gone, and what waits to leave the console may have been taken. -/
inductive Reachable : Console ω ε → Prop where
  | fresh (builtins : Bool) (settings : Settings) : Reachable (fresh builtins settings)
  | use {console : Console ω ε} (h : Reachable console) (next : Use ω) : Reachable (console.use next)
  | change {console : Console ω ε} (h : Reachable console) (next : Change) : Reachable (console.change next)
  | observers {console : Console ω ε} (h : Reachable console) (onOpened onClosed : Observers Unit ε)
      (onUnknown : Observers String ε) : Reachable { console with onOpened, onClosed, onUnknown }
  | waiting {console : Console ω ε} (h : Reachable console) (requests : List Request)
      (diagnostics : List Diagnostic) (notices : List ε) :
      Reachable { console with requests, diagnostics, notices }

theorem visibility_use (console : Console ω ε) (next : Use ω) :
    (console.use next).visibility = console.visibility := by
  cases next with
  | execute line world => exact (console.unshaken_dispatch line world).visibility
  | offer name place values =>
    obtain ⟨registry, completion, hoffer⟩ := console.offer_eq name place values
    exact congrArg (·.visibility) hoffer
  | register | remove | complete | resetCompletion | inputEdited => rfl

/-- A console that has just been made is enabled as far as its settings and its build allow. -/
theorem visibility_new (settings : Settings) :
    (new settings : Console ω ε).visibility =
      (Visibility.new false).after ([.pauseEnabled settings.pauseEnabled,
        .allowInRelease settings.allowedInRelease] ++ if settings.enabled then [.enable] else []) := by
  unfold new enable
  cases settings.enabled with
  | false => rfl
  | true =>
    simp only [if_true]
    split <;> rfl

theorem visibility_fresh (builtins : Bool) (settings : Settings) :
    (fresh builtins settings : Console ω ε).visibility = (new settings : Console ω ε).visibility := by
  cases builtins with
  | false => rfl
  | true =>
    obtain ⟨registry, diagnostics, hregistered⟩ := (new settings : Console ω ε).registerBuiltins_eq
    exact congrArg (·.visibility) hregistered

/-- **A console that was made and used is disabled if its build forbids it**, and holds a pause only while it is
open. -/
theorem Reachable.consistent {console : Console ω ε} (h : console.Reachable) :
    console.visibility.Consistent := by
  induction h with
  | fresh builtins settings =>
    rw [visibility_fresh, visibility_new]
    exact (Visibility.Consistent.new false).after _
  | use _ next ih =>
    rw [visibility_use]
    exact ih
  | @change console _ next ih =>
    rw [(console.moved_change next).visibility]
    exact ih.after _
  | observers _ _ _ _ ih => exact ih
  | waiting _ _ _ _ ih => exact ih

end CommandConsole.Console
