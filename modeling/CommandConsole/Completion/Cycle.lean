import CommandConsole.Completion.Suggestions

/-!
# Cycling through the suggestions

Who asks for a completion again, for the same input or for the one just given, gets the next
suggestion, and after the last one the first. Any other input starts over with suggestions of its own.

## Main definitions

- `Completion` — the suggestions that are cycled through
- `Completion.complete` — the next suggestion
- `Completion.selected?` — the place of the suggestion given last
-/

namespace CommandConsole

/-- The suggestions that are cycled through. -/
structure Completion where
  /-- The input that they are for; none before the first one and after a reset. -/
  typed : Option String := none
  candidates : List String := []
  /-- The place of the suggestion given last. -/
  index : Nat := 0
  deriving DecidableEq, Repr

namespace Completion

/-- Nothing to cycle through. -/
def empty : Completion := {}

instance : Inhabited Completion := ⟨empty⟩

/-- The suggestion given last. -/
def current? (completion : Completion) : Option String :=
  completion.candidates[completion.index]?

/-- The place of the suggestion given last, if there are suggestions. -/
def selected? (completion : Completion) : Option Nat :=
  if completion.candidates.isEmpty then none else some completion.index

/-- Whether an input goes on with the cycle: it is the input that the suggestions are for, or the
suggestion given last. -/
def isCycling (completion : Completion) (input : String) : Bool :=
  match completion.typed with
  | none => false
  | some typed => typed == input || completion.current? == some input

/-- Go on to the next suggestion, from the last one to the first. -/
def advance (completion : Completion) : Completion :=
  { completion with
    index :=
      if completion.candidates.isEmpty then completion.index
      else (completion.index + 1) % completion.candidates.length }

/-- Start over with the suggestions for an input. -/
def start {κ : Type} (registry : Registry κ) (input : String) : Completion :=
  { typed := some input, candidates := suggestions registry input, index := 0 }

/-- The next suggestion for an input, or the input itself if there is none. -/
def complete {κ : Type} (completion : Completion) (registry : Registry κ) (input : String) :
    String × Completion :=
  let completion :=
    if completion.isCycling input then completion.advance else start registry input
  (completion.current?.getD input, completion)

/-- Forget the input and its suggestions. -/
def reset (_ : Completion) : Completion := empty

end Completion

end CommandConsole
