import CommandConsole.Spelling.Distance

/-!
# Hints for misspelled names

The known name that someone who typed an unknown one may have meant.

## Main definitions

- `Spelling.maxHintDistance` — how far a hint may be from what was typed
- `Spelling.closest?` — the best hint
-/

namespace CommandConsole.Spelling

/-- A name at a larger distance than this is no hint. -/
def maxHintDistance : Nat := 2

/-- A name with its distance from what was typed. -/
structure Candidate where
  /-- The distance from what was typed. -/
  distance : Nat
  name : String
  deriving DecidableEq, Repr

/-- Whether a candidate comes before another: it is closer, or as close and smaller in byte order. -/
def Candidate.precedes (a b : Candidate) : Bool :=
  a.distance < b.distance || (a.distance == b.distance && a.name < b.name)

/-- The better one of the best candidate so far and the next one. -/
def Candidate.better (best : Option Candidate) (next : Candidate) : Option Candidate :=
  match best with
  | none => some next
  | some best => some (if next.precedes best then next else best)

/-- The names that may be offered for `typed`: all that differ from it and are close enough. -/
def candidates (typed : String) (names : List String) : List Candidate :=
  (names.filter (· ≠ typed)).map (fun name => ⟨distance typed name, name⟩)
    |>.filter (·.distance ≤ maxHintDistance)

/-- The closest name that differs from `typed` and is close enough; of equally close ones the smallest
in byte order. -/
def closest? (typed : String) (names : List String) : Option String :=
  ((candidates typed names).foldl Candidate.better none).map (·.name)

end CommandConsole.Spelling
