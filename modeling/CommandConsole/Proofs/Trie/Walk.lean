import CommandConsole.Trie.Forest

/-!
# Walks through a forest

A listing that is asked for one entry at a time. A walk keeps the nodes that it has still to visit.
Asked for an entry, it visits nodes until it comes to one that has an entry, and puts the nodes below
each visited node in front of the others.

## Main definitions

- `Forest.Walk` — the nodes that are still to be visited, the next one first
- `Forest.Walk.next` — the next entry, with the rest of the walk
- `Forest.Walk.Yields` — the entries that a walk gives until it ends

## Main statements

- `Forest.Walk.yields_remaining` — every walk ends, and gives the listings of its nodes
-/

namespace CommandConsole.Forest

variable {α : Type}

/-- The trees of the first level, each as the node at its root. -/
def trees : Forest α → List (Option α × Forest α)
  | nil => []
  | cons _ entry below siblings => (entry, below) :: siblings.trees

/-- The number of nodes. -/
def count : Forest α → Nat
  | nil => 0
  | cons _ _ below siblings => 1 + below.count + siblings.count

/-- A walk: the nodes that are still to be visited, the next one first. -/
abbrev Walk (α : Type) := List (Option α × Forest α)

namespace Walk

/-- The number of nodes that a walk will visit. -/
def length : Walk α → Nat
  | [] => 0
  | (_, below) :: walk => 1 + below.count + length walk

theorem length_append (walk walk' : Walk α) : length (walk ++ walk') = length walk + length walk' := by
  induction walk with
  | nil => simp [length]
  | cons node walk ih =>
    simp only [List.cons_append, length, ih]
    omega

theorem length_trees (forest : Forest α) : length forest.trees = forest.count := by
  induction forest with
  | nil => rfl
  | cons label entry below siblings _ ih => simp only [trees, length, count, ih]

/-- A visit leaves one node fewer to be visited. -/
theorem length_visit (node : Option α × Forest α) (walk : Walk α) :
    length (node.2.trees ++ walk) + 1 = length (node :: walk) := by
  rw [length_append, length_trees, length]
  omega

/-- The next entry of a walk, with the rest of the walk. Nodes without an entry are passed by. -/
def next : Walk α → Option (α × Walk α)
  | [] => none
  | (some a, below) :: walk => some (a, below.trees ++ walk)
  | (none, below) :: walk => next (below.trees ++ walk)
termination_by walk => walk.length
decreasing_by
  have hvisit := length_visit (none, below) walk
  simp only at hvisit
  omega

/-- A walk gives some entries, one at each question, and then ends. -/
inductive Yields : Walk α → List α → Prop where
  | stop {walk : Walk α} (h : walk.next = none) : Yields walk []
  | step {walk rest : Walk α} {a : α} {as : List α} (h : walk.next = some (a, rest))
      (hrest : Yields rest as) : Yields walk (a :: as)

theorem Yields.congr {walk walk' : Walk α} {as : List α} (h : Yields walk' as)
    (hnext : walk.next = walk'.next) : Yields walk as := by
  cases h with
  | stop hstop => exact Yields.stop (hnext.trans hstop)
  | step hstep hrest => exact Yields.step (hnext.trans hstep) hrest

/-- The entries of the nodes that are still to be visited and of all nodes below them. -/
def remaining (walk : Walk α) : List α :=
  walk.flatMap fun node => node.1.toList ++ node.2.toList

theorem remaining_trees (forest : Forest α) : remaining forest.trees = forest.toList := by
  induction forest with
  | nil => rfl
  | cons label entry below siblings _ ih => simp [trees, toList, remaining, ← ih]

/-- A visited node gives its entry and is replaced by the nodes below it. -/
theorem remaining_cons (node : Option α × Forest α) (walk : Walk α) :
    remaining (node :: walk) = node.1.toList ++ remaining (node.2.trees ++ walk) := by
  have htrees : remaining (node.2.trees ++ walk) = node.2.toList ++ remaining walk := by
    rw [← remaining_trees node.2]
    simp [remaining]
  rw [htrees]
  simp [remaining]

/-- **Every walk ends**, and gives the entries of its nodes in the order of the listing. -/
theorem yields_remaining (walk : Walk α) : Yields walk walk.remaining := by
  -- every visit leaves fewer nodes to be visited
  induction h : walk.length using Nat.strongRecOn generalizing walk with
  | _ n ih =>
    cases walk with
    | nil => exact Yields.stop (by rw [next])
    | cons node walk =>
      have hvisit := length_visit node walk
      have hrest := ih (length (node.2.trees ++ walk)) (by omega) (node.2.trees ++ walk) rfl
      obtain ⟨entry, below⟩ := node
      rw [remaining_cons]
      cases entry with
      | some a => exact Yields.step (by rw [next]) hrest
      | none =>
        have hnext : next ((none, below) :: walk) = next (below.trees ++ walk) := by rw [next]
        exact hrest.congr hnext

end Walk

end CommandConsole.Forest
