/-!
# Forests of byte-labelled trees

The branches below one node of a prefix tree. A forest is a list of trees in increasing order of
their labels, written as one inductive type: each tree is given by its label, the entry that ends at
it and the forest below it, and is followed by its siblings.

A forest is searched along a path, which is never empty: its first byte picks a tree and the rest
leads down from there.

## Main definitions

- `Forest.find?` — the entry at a path
- `Forest.insert` — put an entry at a path, growing the branch that leads there
- `Forest.erase` — take the entry at a path away, with the branch that led only there
- `Forest.below?` — the entry at a path together with the forest below it
- `Forest.toList` — all entries, a node before what is below it, siblings in order
-/

namespace CommandConsole

/-- Trees with byte labels and entries of type `α`, siblings in increasing order of their labels. -/
inductive Forest (α : Type) where
  | nil
  /-- The first tree, with its label, its entry and the forest below it, then its siblings. -/
  | cons (label : UInt8) (entry : Option α) (below siblings : Forest α)
  deriving DecidableEq, Repr

namespace Forest

variable {α : Type}

/-- Whether there is no tree. -/
def isNil : Forest α → Bool
  | nil => true
  | cons .. => false

/-- A tree that is one branch: the path `b :: path`, with an entry at its end only. -/
def branch (a : α) (b : UInt8) : List UInt8 → Forest α → Forest α
  | [], siblings => cons b (some a) nil siblings
  | b' :: path, siblings => cons b none (branch a b' path nil) siblings

/-- Put `a` at the path `b :: path`. Missing nodes are grown, and a tree with a new label goes before
the first one with a larger label. -/
def insert (a : α) : Forest α → UInt8 → List UInt8 → Forest α
  | nil, b, path => branch a b path nil
  | cons label entry below siblings, b, path =>
    if b < label then branch a b path (cons label entry below siblings)
    else if b = label then
      match path with
      | [] => cons label (some a) below siblings
      | b' :: path' => cons label entry (insert a below b' path') siblings
    else cons label entry below (insert a siblings b path)

/-- A tree in front of its siblings, left out if it has neither an entry nor anything below it. -/
def prune (label : UInt8) (entry : Option α) (below siblings : Forest α) : Forest α :=
  if entry.isNone && below.isNil then siblings else cons label entry below siblings

/-- Take the entry at the path `b :: path` away, and every node on the path that then leads to no
entry. -/
def erase : Forest α → UInt8 → List UInt8 → Forest α
  | nil, _, _ => nil
  | cons label entry below siblings, b, path =>
    if b = label then
      match path with
      | [] => prune label none below siblings
      | b' :: path' => prune label entry (erase below b' path') siblings
    else cons label entry below (erase siblings b path)

/-- The node at the path `b :: path`: its entry and the forest below it. -/
def below? : Forest α → UInt8 → List UInt8 → Option (Option α × Forest α)
  | nil, _, _ => none
  | cons label entry below siblings, b, path =>
    if b = label then
      match path with
      | [] => some (entry, below)
      | b' :: path' => below? below b' path'
    else below? siblings b path

/-- The entry at the path `b :: path`. -/
def find? (forest : Forest α) (b : UInt8) (path : List UInt8) : Option α :=
  (forest.below? b path).bind (·.1)

/-- All entries: that of a node before those below it, and these before those of its siblings. -/
def toList : Forest α → List α
  | nil => []
  | cons _ entry below siblings => entry.toList ++ below.toList ++ siblings.toList

end Forest

end CommandConsole
