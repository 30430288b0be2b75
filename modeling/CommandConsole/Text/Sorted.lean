/-!
# Sorted lists of texts

A list of texts in strictly increasing byte order, without repetitions.

## Main definitions

- `Text.addInOrder` — put a text into its place, unless it is there
- `Text.sortedDistinct` — the texts of a list in order, each one once
-/

namespace CommandConsole.Text

/-- Put a text into its place in a sorted list, unless it is there. -/
def addInOrder (text : String) : List String → List String
  | [] => [text]
  | first :: rest =>
    if text < first then text :: first :: rest
    else if text = first then first :: rest
    else first :: addInOrder text rest

/-- The texts of a list in increasing byte order, each one once. -/
def sortedDistinct (texts : List String) : List String :=
  texts.foldr addInOrder []

/-- A text that is put into its place is there, beside all that were there before. -/
theorem mem_addInOrder {text other : String} {texts : List String} :
    other ∈ addInOrder text texts ↔ other = text ∨ other ∈ texts := by
  induction texts with
  | nil => simp [addInOrder]
  | cons first rest ih =>
    simp only [addInOrder]
    split
    · simp
    · split
      · rename_i h; subst h; simp
      · simp [ih]; grind

/-- Sorting loses nothing and adds nothing. -/
@[simp] theorem mem_sortedDistinct {text : String} {texts : List String} :
    text ∈ sortedDistinct texts ↔ text ∈ texts := by
  induction texts with
  | nil => simp [sortedDistinct]
  | cons first rest ih =>
    simp only [sortedDistinct, List.foldr_cons, mem_addInOrder, List.mem_cons]
    exact or_congr_right ih

end CommandConsole.Text
