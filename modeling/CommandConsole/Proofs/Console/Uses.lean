import CommandConsole.Console.Builtin
import CommandConsole.Proofs.Console.Dispatch
import CommandConsole.Proofs.Registry.Stores

/-!
# Suggestions while commands come and go

The suggestions that a console cycles through are computed once, for the commands that are known at the
time. Values that are offered for an argument end the cycle, and so does a line that is run. A command that
is registered or removed does not: from then on, suggestions may be given that are none any more.

## Main definitions

- `Console.Use`, `Console.use` — what is done with the commands and the input line, as data
- `Console.Use.editsCommands` — the uses that register or remove a command
- `Console.afterUses` — the console that a sequence of uses leaves
- `Console.fresh` — a console that has just been made

## Main statements

- `Console.completion_use` — what one use does to the suggestions
- `Console.exists_computed` — which use has computed the suggestions that a sequence of uses leaves
- `Console.complete_suggested` — what is given was suggested once, and still is unless commands came or went
-/

namespace CommandConsole

namespace Console

variable {ω ε : Type}

/-- What is done with the commands and the input line of a console. -/
inductive Use (ω : Type) where
  /-- Register a command, a listed or an unlisted one. -/
  | register (command : Command (Handler ω))
  | remove (name : String)
  | offer (name : String) (place : Nat) (values : List String)
  | execute (line : String) (world : Option ω)
  | complete (input : String)
  | resetCompletion
  | inputEdited

/-- Whether a use registers or removes a command. -/
def Use.editsCommands : Use ω → Bool
  | register _ | remove _ => true
  | _ => false

def use (console : Console ω ε) : Use ω → Console ω ε
  | .register command => (console.register command).2
  | .remove name => (console.remove name).2
  | .offer name place values => (console.offer name place values).2
  | .execute line world => (console.dispatch line world).2.1
  | .complete input => (console.complete input).2
  | .resetCompletion => console.resetCompletion
  | .inputEdited => console.inputEdited

def afterUses (console : Console ω ε) (uses : List (Use ω)) : Console ω ε :=
  uses.foldl use console

theorem afterUses_concat (console : Console ω ε) (uses : List (Use ω)) (last : Use ω) :
    console.afterUses (uses ++ [last]) = (console.afterUses uses).use last := by
  simp [afterUses]

-- ════════════════════════════════════════════════════════════════════════
-- Consoles that have just been made
-- ════════════════════════════════════════════════════════════════════════

/-- Registering the built-in commands touches the commands and the log alone. -/
theorem registerBuiltins_eq (console : Console ω ε) : ∃ registry diagnostics,
    console.registerBuiltins = { console with registry, diagnostics } := by
  unfold registerBuiltins
  generalize Builtin.commands = commands
  induction commands generalizing console with
  | nil => exact ⟨console.registry, console.diagnostics, rfl⟩
  | cons command commands ih =>
    have hone : ∃ registry diagnostics,
        console.registerBuiltin command = { console with registry, diagnostics } := by
      simp only [registerBuiltin, register]
      cases (console.registry.register command).1 <;> exact ⟨_, _, rfl⟩
    obtain ⟨registry, diagnostics, hone⟩ := hone
    rw [List.foldl_cons, hone]
    exact ih _

/-- A console that has just been made has run, shown, asked for and told its observers nothing. -/
theorem new_eq (settings : Settings) : ∃ visibility diagnostics,
    (new settings : Console ω ε) =
      { history := .new settings.historyCapacity
        output := .new settings.maxOutputRows
        visibility
        fontSize := settings.fontSize
        diagnostics } := by
  unfold new enable
  cases settings.enabled with
  | false => exact ⟨_, _, rfl⟩
  | true =>
    simp only [if_true]
    split <;> exact ⟨_, _, rfl⟩

theorem withBuiltins_eq (settings : Settings) : ∃ registry visibility diagnostics,
    (withBuiltins settings : Console ω ε) =
      { registry
        history := .new settings.historyCapacity
        output := .new settings.maxOutputRows
        visibility
        fontSize := settings.fontSize
        diagnostics } := by
  obtain ⟨visibility, diagnostics, hnew⟩ := new_eq (ω := ω) (ε := ε) settings
  obtain ⟨registry, diagnostics, hregistered⟩ := (new settings : Console ω ε).registerBuiltins_eq
  refine ⟨registry, visibility, diagnostics, ?_⟩
  rw [withBuiltins, hregistered, hnew]

/-- A console that has just been made, with or without the built-in commands. -/
def fresh (builtins : Bool) (settings : Settings) : Console ω ε :=
  if builtins then withBuiltins settings else new settings

theorem completion_fresh (builtins : Bool) (settings : Settings) :
    (fresh builtins settings : Console ω ε).completion = .empty := by
  cases builtins with
  | false =>
    obtain ⟨visibility, diagnostics, hnew⟩ := new_eq (ω := ω) (ε := ε) settings
    exact congrArg (·.completion) hnew
  | true =>
    obtain ⟨registry, visibility, diagnostics, hmade⟩ := withBuiltins_eq (ω := ω) (ε := ε) settings
    exact congrArg (·.completion) hmade

-- ════════════════════════════════════════════════════════════════════════
-- One use
-- ════════════════════════════════════════════════════════════════════════

/-- Offering values touches the commands and the suggestions alone. -/
theorem offer_eq (console : Console ω ε) (name : String) (place : Nat) (values : List String) :
    ∃ registry completion,
      (console.offer name place values).2 = { console with registry, completion } := by
  unfold offer
  generalize console.registry.offer name place values = result
  obtain ⟨answer, registry⟩ := result
  cases answer <;> exact ⟨_, _, rfl⟩

/-- Running a line keeps the suggestions or forgets them. -/
theorem completion_dispatch (console : Console ω ε) (line : String) (world : Option ω) :
    (console.dispatch line world).2.1.completion = console.completion ∨
      (console.dispatch line world).2.1.completion = .empty := by
  by_cases hname : (Line.read line).command = ""
  · rw [console.dispatch_unnamed world hname]
    exact Or.inl rfl
  · obtain ⟨rest, -, hfinal⟩ := dispatch_concluded console line world hname
    rw [hfinal, List.foldl_append, foldl_openingDeeds]
    exact Or.inr (completion_foldl rest rfl)

theorem completion_complete (console : Console ω ε) (input : String) :
    (console.completion.isCycling input = false ∧
      (console.complete input).2.completion = Completion.start console.registry input) ∨
    (console.completion.isCycling input = true ∧
      (console.complete input).2.completion.typed = console.completion.typed ∧
      (console.complete input).2.completion.candidates = console.completion.candidates) := by
  cases hcycling : console.completion.isCycling input with
  | false => exact Or.inl ⟨rfl, by simp [complete, Completion.complete, hcycling]⟩
  | true => exact Or.inr (by simp [complete, Completion.complete, hcycling, Completion.advance])

/-- **What a use does to the suggestions**: it forgets them, or computes them for the commands that are known,
or keeps them. If it keeps them and neither registers nor removes a command, it changes no command. -/
theorem completion_use (console : Console ω ε) (next : Use ω) :
    (console.use next).completion = .empty ∨
    (∃ typed, next = .complete typed ∧ console.completion.isCycling typed = false ∧
      (console.use next).completion = Completion.start console.registry typed) ∨
    ((console.use next).completion.typed = console.completion.typed ∧
      (console.use next).completion.candidates = console.completion.candidates ∧
      (next.editsCommands = false → (console.use next).registry = console.registry)) := by
  cases next with
  | register command => exact Or.inr (Or.inr ⟨rfl, rfl, by simp [Use.editsCommands]⟩)
  | remove name => exact Or.inr (Or.inr ⟨rfl, rfl, by simp [Use.editsCommands]⟩)
  | offer name place values =>
    show (console.offer name place values).2.completion = _ ∨ _
    unfold use offer
    cases hfind : console.registry.find? name with
    | none => exact Or.inr (Or.inr (by simp [Registry.offer_eq, hfind]))
    | some command => exact Or.inl (by simp [Registry.offer_eq, hfind, Completion.reset])
  | execute line world =>
    rcases console.completion_dispatch line world with hkept | hforgotten
    · have hregistry := (console.unshaken_dispatch line world).registry
      exact Or.inr (Or.inr ⟨congrArg _ hkept, congrArg _ hkept, fun _ => hregistry⟩)
    · exact Or.inl hforgotten
  | complete input =>
    rcases console.completion_complete input with ⟨hcycling, hstarted⟩ | ⟨-, htyped, hcandidates⟩
    · exact Or.inr (Or.inl ⟨input, rfl, hcycling, hstarted⟩)
    · exact Or.inr (Or.inr ⟨htyped, hcandidates, fun _ => rfl⟩)
  | resetCompletion => exact Or.inl rfl
  | inputEdited => exact Or.inl rfl

-- ════════════════════════════════════════════════════════════════════════
-- All uses
-- ════════════════════════════════════════════════════════════════════════

/-- The suggestions that are left by a sequence of uses were computed by one of them. Only uses that register
or remove commands have changed the commands since. -/
theorem exists_computed {console : Console ω ε} (hfresh : console.completion = .empty)
    (uses : List (Use ω)) :
    (console.afterUses uses).completion.typed = none ∨
    ∃ typed earlier later, uses = earlier ++ .complete typed :: later ∧
      (console.afterUses earlier).completion.isCycling typed = false ∧
      (console.afterUses uses).completion.typed = some typed ∧
      (console.afterUses uses).completion.candidates =
        Completion.suggestions (console.afterUses earlier).registry typed ∧
      ((∀ use ∈ later, use.editsCommands = false) →
        (console.afterUses uses).registry = (console.afterUses earlier).registry) := by
  induction uses using List.reverseRecOn with
  | nil => exact Or.inl (by simp [afterUses, hfresh, Completion.empty])
  | append_singleton uses last ih =>
    rw [afterUses_concat]
    rcases (console.afterUses uses).completion_use last with
      hforgotten | ⟨typed, rfl, hcycling, hstarted⟩ | ⟨htyped, hcandidates, hregistry⟩
    · exact Or.inl (by rw [hforgotten]; rfl)
    · refine Or.inr ⟨typed, uses, [], rfl, hcycling, ?_, ?_, fun _ => rfl⟩
      · rw [hstarted]
        rfl
      · rw [hstarted]
        rfl
    · rcases ih with hnone | ⟨typed, earlier, later, rfl, hcycling, hcached, hcomputed, hsame⟩
      · exact Or.inl (htyped.trans hnone)
      · refine Or.inr ⟨typed, earlier, later ++ [last], by simp, hcycling, htyped.trans hcached,
          hcandidates.trans hcomputed, fun hquiet => ?_⟩
        have hlater : ∀ use ∈ later, use.editsCommands = false :=
          fun use huse => hquiet use (List.mem_append_left [last] huse)
        exact (hregistry (hquiet last (by simp))).trans (hsame hlater)

/-- What is given is the input itself or one of the suggestions that are cycled through. -/
theorem complete_mem (console : Console ω ε) (input : String) :
    (console.complete input).1 = input ∨
      (console.complete input).1 ∈ (console.complete input).2.completion.candidates := by
  show (Option.getD (console.complete input).2.completion.current? input) = input ∨
    Option.getD (console.complete input).2.completion.current? input ∈ _
  cases hcurrent : (console.complete input).2.completion.current? with
  | none => exact Or.inl rfl
  | some current => exact Or.inr (List.mem_of_getElem? hcurrent)

theorem typed_complete (console : Console ω ε) (input : String) :
    (console.complete input).2.completion.typed ≠ none := by
  rcases console.completion_complete input with ⟨-, hstarted⟩ | ⟨hcycling, htyped, -⟩
  · rw [hstarted]
    exact Option.some_ne_none input
  · intro hnone
    rw [htyped] at hnone
    simp [Completion.isCycling, hnone] at hcycling

/-- A name that is suggested is the name of a command that is not hidden. -/
theorem findVisible?_of_mem_suggestions {κ : Type} {registry : Registry κ} {typed begun name : String}
    (htarget : Completion.target typed = .name begun)
    (h : name ∈ Completion.suggestions registry typed) : (registry.findVisible? name).isSome := by
  rw [Completion.suggestions, htarget] at h
  exact (List.mem_filter.mp h).2

/-- **What is given was suggested, and still is unless commands came or went.** Whatever has been done with a
console, what it gives for an input is the input itself or a suggestion that was computed, for the text that
it remembers, by this call or an earlier one. If no command has been registered or removed since that call,
it is a suggestion for the commands that are known now; a name is then the name of a command that is known
and not hidden. -/
theorem complete_suggested (builtins : Bool) (settings : Settings) (uses : List (Use ω))
    (input : String) :
    let former : List (Use ω) → Console ω ε := (fresh builtins settings).afterUses
    let console := former uses
    let given := (console.complete input).1
    ∃ typed earlier later, uses ++ [.complete input] = earlier ++ .complete typed :: later ∧
      (console.complete input).2.completion.typed = some typed ∧
      (former earlier).completion.isCycling typed = false ∧
      (given = input ∨ given ∈ Completion.suggestions (former earlier).registry typed) ∧
      ((∀ use ∈ later, use.editsCommands = false) →
        given = input ∨ (given ∈ Completion.suggestions console.registry typed ∧
          ∀ begun, Completion.target typed = .name begun →
            (console.registry.findVisible? given).isSome)) := by
  intro former console given
  have hfresh : (fresh builtins settings : Console ω ε).completion = .empty :=
    completion_fresh builtins settings
  have hcomputed := exists_computed hfresh (uses ++ [.complete input])
  rw [afterUses_concat] at hcomputed
  rcases hcomputed with hnone | ⟨typed, earlier, later, huses, hcycling, htyped, hcandidates, hsame⟩
  · exact absurd hnone (console.typed_complete input)
  · have hgiven : given = input ∨ given ∈ Completion.suggestions (former earlier).registry typed :=
      hcandidates ▸ console.complete_mem input
    refine ⟨typed, earlier, later, huses, htyped, hcycling, hgiven, fun hquiet => ?_⟩
    have hregistry : console.registry = (former earlier).registry := hsame hquiet
    rcases hgiven with hinput | hmem
    · exact Or.inl hinput
    · rw [← hregistry] at hmem
      exact Or.inr ⟨hmem, fun begun htarget => findVisible?_of_mem_suggestions htarget hmem⟩

/-- A command that is removed while its name is being cycled through is given all the same. -/
theorem stale_help_after_removal :
    let named (name : String) : Use Unit := .register ⟨{ name }, fun _ => .done ()⟩
    let console : Console Unit Unit := (fresh false {}).afterUses
      [named "heal", named "help", .complete "he", .remove "help"]
    (console.complete "he").1 = "help" ∧
      (console.complete "he").2.completion.typed = some "he" ∧
      Completion.suggestions console.registry "he" = ["heal"] ∧
      console.registry.find? "help" = none := by
  intro named console
  refine ⟨?_, ?_, ?_, ?_⟩
  · decide +kernel
  · decide +kernel
  · decide +kernel
  · exact Option.isNone_iff_eq_none.mp (by decide +kernel)

end Console

end CommandConsole
