import CommandConsole.Proofs.Console.Output
import CommandConsole.Proofs.Registry.Listing
import CommandConsole.Proofs.Spelling.Hint

/-!
# What hidden commands can be told from

Suggestions, and the hint for a name that is not known, are the help that a console gives before a command is
called. Both depend on the set of the visible commands and on nothing else of the registry: neither a hidden
command nor the order of the registrations can be told from them.

## Main definitions

- `Console.notFound` — what a line writes whose command is not known

## Main statements

- `Registry.SameListing.suggestions_eq` — the same visible commands give the same suggestions
- `Registry.SameListing.closest?_eq` — and the same hint
- `Console.assistance_of_listing` — suggestions, listings by prefix and hints depend on the set of the
  visible commands
-/

namespace CommandConsole

section Listing

variable {κ κ' : Type} {registry : Registry κ} {registry' : Registry κ'}

/-- Values are offered by the signature of a visible command. -/
theorem Completion.values_eq_elim (registry : Registry κ) (command : String) (place : Nat)
    (typed : String) :
    values registry command place typed =
      ((registry.findVisible? command).map (·.signature)).elim [] fun signature =>
        Text.sortedDistinct
          ((signature.offersAt place).filter fun value => typed.toList.isPrefixOf value.toList) := by
  unfold values
  cases registry.findVisible? command <;> rfl

/-- The same visible commands give the same suggestions. -/
theorem Registry.SameListing.suggestions_eq (hsame : registry.SameListing registry')
    (hsound : registry.Sound) (hsound' : registry'.Sound) (input : String) :
    Completion.suggestions registry input = Completion.suggestions registry' input := by
  unfold Completion.suggestions
  cases Completion.target input with
  | name typed => exact hsame.visibleWithPrefix_eq hsound hsound' typed
  | argument command place typed head =>
    simp only [Completion.values_eq_elim, hsame.findVisible?_eq hsound hsound' command]

/-- The same visible commands give the same hint. -/
theorem Registry.SameListing.closest?_eq (hsame : registry.SameListing registry') (name : String) :
    Spelling.closest? name registry.visibleNames = Spelling.closest? name registry'.visibleNames :=
  Spelling.closest?_congr name hsame.mem_visibleNames

end Listing

namespace Console

variable {ω ε : Type}

/-- What a line writes whose command is not known, if `meant?` is the hint. -/
def notFound (line : String) (meant? : Option String) : List Scrollback.Edit :=
  [.push .plain ("> " ++ Text.trim line),
    .push .error ("Command not found: '" ++ (Line.read line).command ++ "'")] ++
  (meant?.map fun meant => .push .info ("Did you mean '" ++ meant ++ "'?")).toList

/-- A line whose command is not known writes its echo, an error, and the hint if there is one. -/
theorem output_dispatch_unknown (console : Console ω ε) (line : String) (world : Option ω)
    (hnamed : (Line.read line).isEmpty = false)
    (hunknown : console.registry.find? (Line.read line).command = none) :
    (console.dispatch line world).2.1.output =
      console.output.after (notFound line (console.hint? (Line.read line).command)) := by
  rw [output_dispatch, revisions, concluding, hunknown]
  simp only [hnamed, Bool.false_eq_true, if_false]
  cases console.hint? (Line.read line).command <;> rfl

/-- **Suggestions and hints depend on the set of the visible commands.** Let two registries, reached by
whatever registrations, removals and offers, have the same visible commands. Then the same lines are suggested
for every input, and the same names are listed for every beginning. For every line whose command neither of
them knows there is one hint, or none, that every console with one of them writes behind the echo and the
error. A line without a command writes nothing. -/
theorem assistance_of_listing {registry registry' : Registry (Handler ω)}
    (hreach : registry.Reachable) (hreach' : registry'.Reachable)
    (hsame : registry.SameListing registry') :
    (∀ input, Completion.suggestions registry input = Completion.suggestions registry' input) ∧
    (∀ text, registry.visibleWithPrefix text = registry'.visibleWithPrefix text) ∧
    (∀ line, registry.find? (Line.read line).command = none →
      registry'.find? (Line.read line).command = none →
      ∃ meant? : Option String, ∀ console : Console ω ε,
        console.registry = registry ∨ console.registry = registry' → ∀ world,
          (console.dispatch line world).2.1.output =
            if (Line.read line).isEmpty then console.output
            else console.output.after (notFound line meant?)) := by
  have hsound : registry.Sound := hreach.sound
  have hsound' : registry'.Sound := hreach'.sound
  refine ⟨hsame.suggestions_eq hsound hsound', hsame.visibleWithPrefix_eq hsound hsound', ?_⟩
  intro line hunknown hunknown'
  refine ⟨Spelling.closest? (Line.read line).command registry.visibleNames, ?_⟩
  intro console hregistry world
  have hnone : console.registry.find? (Line.read line).command = none := by
    rcases hregistry with heq | heq <;> rwa [heq]
  have hhint : console.hint? (Line.read line).command =
      Spelling.closest? (Line.read line).command registry.visibleNames := by
    rcases hregistry with heq | heq
    · rw [hint?, heq]
    · rw [hint?, heq, hsame.closest?_eq]
  cases hempty : (Line.read line).isEmpty with
  | true =>
    have hname : (Line.read line).command = "" := by simpa [Line.isEmpty] using hempty
    rw [console.dispatch_unnamed world hname]
    rfl
  | false =>
    rw [console.output_dispatch_unknown line world hempty hnone, hhint]
    rfl

/-- Among all names the hidden one would be the hint. Among the visible ones it is not, and the order in which
these were registered makes no difference. -/
theorem assistance_beside_hidden_hello : ∃ registry registry' : Registry (Handler Unit),
    registry.Reachable ∧ registry'.Reachable ∧ registry.SameListing registry' ∧
    registry.contains "hello" = false ∧ registry'.contains "hello" = true ∧
    registry.visibleNames = ["help", "heal"] ∧ registry'.visibleNames = ["heal", "help"] ∧
    Spelling.closest? "helo" registry'.names = some "hello" ∧
    Spelling.closest? "helo" registry'.visibleNames = some "help" ∧
    registry.find? (Line.read "helo").command = none ∧
    registry'.find? (Line.read "helo").command = none ∧
    Completion.suggestions registry "he" = Completion.suggestions registry' "he" ∧
    registry.visibleWithPrefix "hel" = registry'.visibleWithPrefix "hel" ∧
    ∃ meant? : Option String, ∀ console : Console Unit Unit,
      console.registry = registry ∨ console.registry = registry' → ∀ world,
        (console.dispatch "helo" world).2.1.output =
          if (Line.read "helo").isEmpty then console.output
          else console.output.after (notFound "helo" meant?) := by
  let quiet : Handler Unit := fun _ => .done ()
  let changes : List (Registry.Change (Handler Unit)) :=
    [.register ⟨{ name := "help" }, quiet⟩, .register ⟨{ name := "heal" }, quiet⟩]
  let changes' : List (Registry.Change (Handler Unit)) :=
    [.register ⟨{ name := "hello", hidden := true }, quiet⟩, .register ⟨{ name := "heal" }, quiet⟩,
      .register ⟨{ name := "held" }, quiet⟩, .register ⟨{ name := "help" }, quiet⟩, .remove "held"]
  let registry := Registry.after changes
  let registry' := Registry.after changes'
  have hreach : registry.Reachable := ⟨changes, rfl⟩
  have hreach' : registry'.Reachable := ⟨changes', rfl⟩
  have hperm : (registry.visible.map (·.signature)).Perm (registry'.visible.map (·.signature)) := by
    decide +kernel
  have hsame : registry.SameListing registry' := fun signature => hperm.mem_iff
  have hunknown : registry.find? (Line.read "helo").command = none :=
    Option.isNone_iff_eq_none.mp (by decide +kernel)
  have hunknown' : registry'.find? (Line.read "helo").command = none :=
    Option.isNone_iff_eq_none.mp (by decide +kernel)
  obtain ⟨hsuggested, hlisted, hhint⟩ := assistance_of_listing hreach hreach' hsame
  exact ⟨registry, registry', hreach, hreach', hsame, by decide +kernel, by decide +kernel,
    by decide +kernel, by decide +kernel, by decide +kernel, by decide +kernel, hunknown, hunknown',
    hsuggested "he", hlisted "hel", hhint "helo" hunknown hunknown'⟩

end Console

end CommandConsole
