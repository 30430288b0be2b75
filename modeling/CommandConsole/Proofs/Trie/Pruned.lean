import CommandConsole.Proofs.Trie.Forest

/-!
# Forests without dead branches

In a pruned forest every node has an entry or a node below it. Since forests are finite, the paths that lead to
nodes are then the beginnings of the paths that lead to entries. Insertion and erasure keep forests pruned, and
an ordered and pruned forest has the only shape that answers all look-ups as it does.

## Main definitions

- `Forest.Pruned` — every node has an entry or a node below it

## Main statements

- `Forest.Pruned.insert`, `Forest.Pruned.erase` — pruned forests stay pruned
- `Forest.Pruned.exists_node_iff` — the nodes are those on the way to what is found
- `Forest.eq_of_find?_eq` — ordered and pruned forests in which the same is found are the same
-/

namespace CommandConsole.Forest

variable {α : Type}

/-- Every node has an entry or a node below it. -/
def Pruned (forest : Forest α) : Prop :=
  ∀ node ∈ forest.nodes, node.2.1.isSome ∨ node.2.2 ≠ nil

theorem Pruned.nil : (nil : Forest α).Pruned := by
  intro node hnode
  cases hnode

theorem pruned_cons {label : UInt8} {entry : Option α} {below siblings : Forest α} :
    (cons label entry below siblings).Pruned ↔
      (entry.isSome ∨ below ≠ nil) ∧ below.Pruned ∧ siblings.Pruned := by
  simp only [Pruned, nodes, List.cons_append, List.forall_mem_cons, List.forall_mem_append,
    List.forall_mem_map]

-- ════════════════════════════════════════════════════════════════════════
-- Changes
-- ════════════════════════════════════════════════════════════════════════

theorem branch_ne_nil (a : α) (b : UInt8) (path : List UInt8) (siblings : Forest α) :
    branch a b path siblings ≠ nil := by
  cases path <;> simp [branch]

theorem insert_ne_nil (a : α) (forest : Forest α) (b : UInt8) (path : List UInt8) :
    forest.insert a b path ≠ nil := by
  cases forest with
  | nil => exact branch_ne_nil a b path nil
  | cons label entry below siblings =>
    simp only [insert]
    split
    · exact branch_ne_nil a b path _
    · split
      · cases path <;> simp
      · simp

/-- A branch ends at an entry, so none of its nodes is dead. -/
theorem Pruned.branch {siblings : Forest α} (h : siblings.Pruned) (a : α) (b : UInt8)
    (path : List UInt8) : (branch a b path siblings).Pruned := by
  induction path generalizing b siblings with
  | nil => exact pruned_cons.mpr ⟨Or.inl rfl, Pruned.nil, h⟩
  | cons b₁ path ih =>
    exact pruned_cons.mpr ⟨Or.inr (branch_ne_nil a b₁ path .nil), ih Pruned.nil b₁, h⟩

theorem Pruned.insert {forest : Forest α} (h : forest.Pruned) (a : α) (b : UInt8)
    (path : List UInt8) : (forest.insert a b path).Pruned := by
  induction forest generalizing b path with
  | nil => exact Pruned.nil.branch a b path
  | cons label entry below siblings ihbelow ihsiblings =>
    obtain ⟨hlive, hbelow, hsiblings⟩ := pruned_cons.mp h
    simp only [Forest.insert]
    split
    · exact h.branch a b path
    · split
      · cases path with
        | nil => exact pruned_cons.mpr ⟨Or.inl rfl, hbelow, hsiblings⟩
        | cons b₁ path =>
          exact pruned_cons.mpr ⟨Or.inr (insert_ne_nil a below b₁ path), ihbelow hbelow b₁ path, hsiblings⟩
      · exact pruned_cons.mpr ⟨hlive, hbelow, ihsiblings hsiblings b path⟩

/-- The tree that is left out is the only one that could have been dead at its root. -/
theorem Pruned.prune {below siblings : Forest α} (hbelow : below.Pruned) (hsiblings : siblings.Pruned)
    (label : UInt8) (entry : Option α) : (prune label entry below siblings).Pruned := by
  unfold Forest.prune
  split
  · exact hsiblings
  · rename_i hlive
    refine pruned_cons.mpr ⟨?_, hbelow, hsiblings⟩
    cases entry with
    | some a => exact Or.inl rfl
    | none =>
      refine Or.inr fun hnil => hlive ?_
      rw [hnil]
      rfl

/-- Whether or not the path leads to an entry, no node on it is left dead. -/
theorem Pruned.erase {forest : Forest α} (h : forest.Pruned) (b : UInt8) (path : List UInt8) :
    (forest.erase b path).Pruned := by
  induction forest generalizing b path with
  | nil => exact h
  | cons label entry below siblings ihbelow ihsiblings =>
    obtain ⟨hlive, hbelow, hsiblings⟩ := pruned_cons.mp h
    simp only [Forest.erase]
    split
    · cases path with
      | nil => exact hbelow.prune hsiblings label none
      | cons b₁ path => exact (ihbelow hbelow b₁ path).prune hsiblings label entry
    · exact pruned_cons.mpr ⟨hlive, hbelow, ihsiblings hsiblings b path⟩

-- ════════════════════════════════════════════════════════════════════════
-- Paths of nodes
-- ════════════════════════════════════════════════════════════════════════

/-- The first tree of a pruned forest has an entry. -/
theorem Pruned.exists_entry {label : UInt8} {entry : Option α} {below siblings : Forest α}
    (h : (cons label entry below siblings).Pruned) :
    ∃ path a lower, (label :: path, some a, lower) ∈ (cons label entry below siblings).nodes := by
  obtain ⟨hlive, hbelow, -⟩ := pruned_cons.mp h
  -- down the first tree of each forest, until there is nothing below a node
  induction below generalizing label entry siblings with
  | nil =>
    have hentry : entry.isSome := hlive.resolve_right fun hne => hne rfl
    obtain ⟨a, rfl⟩ := Option.isSome_iff_exists.mp hentry
    exact ⟨[], a, .nil, mem_nodes_cons.mpr (Or.inl rfl)⟩
  | cons label' entry' below' siblings' ih _ =>
    obtain ⟨hlive', hbelow', -⟩ := pruned_cons.mp hbelow
    obtain ⟨path, a, lower, hmem⟩ := ih hbelow hlive' hbelow'
    exact ⟨label' :: path, a, lower, mem_nodes_cons.mpr (Or.inr (Or.inl ⟨_, hmem, rfl⟩))⟩

/-- From every node of a pruned forest a path leads on to an entry. -/
theorem Pruned.exists_entry_append {forest : Forest α} (h : forest.Pruned)
    {node : List UInt8 × Option α × Forest α} (hnode : node ∈ forest.nodes) :
    ∃ rest a lower, (node.1 ++ rest, some a, lower) ∈ forest.nodes := by
  induction forest generalizing node with
  | nil => cases hnode
  | cons label entry below siblings ihbelow ihsiblings =>
    obtain ⟨-, hbelow, hsiblings⟩ := pruned_cons.mp h
    rcases mem_nodes_cons.mp hnode with rfl | ⟨node', hnode', rfl⟩ | hnode
    · exact h.exists_entry
    · obtain ⟨rest, a, lower, hmem⟩ := ihbelow hbelow hnode'
      exact ⟨rest, a, lower, mem_nodes_cons.mpr (Or.inr (Or.inl ⟨_, hmem, rfl⟩))⟩
    · obtain ⟨rest, a, lower, hmem⟩ := ihsiblings hsiblings hnode
      exact ⟨rest, a, lower, mem_nodes_cons.mpr (Or.inr (Or.inr hmem))⟩

/-- The nodes of an ordered and pruned forest are those on the way to what is found. -/
theorem Pruned.exists_node_iff {forest : Forest α} (h : forest.Pruned) (hordered : forest.Ordered)
    (b : UInt8) (path : List UInt8) :
    (∃ node, (b :: path, node) ∈ forest.nodes) ↔ ∃ rest a, forest.find? b (path ++ rest) = some a := by
  constructor
  · rintro ⟨node, hnode⟩
    obtain ⟨rest, a, lower, hmem⟩ := h.exists_entry_append hnode
    have hlower : forest.below? b (path ++ rest) = some (some a, lower) :=
      (mem_nodes hordered b (path ++ rest) _).mp hmem
    exact ⟨rest, a, (find?_of_below? hlower).1⟩
  · rintro ⟨rest, a, hfound⟩
    cases hnode : forest.below? b path with
    | none =>
      rw [find?_of_below?_eq_none hnode] at hfound
      cases hfound
    | some node => exact ⟨node, (mem_nodes hordered b path node).mpr hnode⟩

-- ════════════════════════════════════════════════════════════════════════
-- Uniqueness
-- ════════════════════════════════════════════════════════════════════════

/-- In a forest in which the same is found not all labels are larger than the first one of a pruned forest. -/
theorem Pruned.not_above {label : UInt8} {entry : Option α} {below siblings forest : Forest α}
    (h : (cons label entry below siblings).Pruned) (hordered : (cons label entry below siblings).Ordered)
    (hfind : ∀ b path, (cons label entry below siblings).find? b path = forest.find? b path) :
    ¬ forest.Above label := by
  intro habove
  obtain ⟨path, a, lower, hmem⟩ := h.exists_entry
  have hlower := (mem_nodes hordered label path _).mp hmem
  have hfound := (find?_of_below? hlower).1
  rw [hfind, find?_eq_none_of_above habove] at hfound
  cases hfound

theorem Pruned.label_le {label label' : UInt8} {entry entry' : Option α}
    {below siblings below' siblings' : Forest α} (h : (cons label entry below siblings).Pruned)
    (hordered : (cons label entry below siblings).Ordered)
    (hordered' : (cons label' entry' below' siblings').Ordered)
    (hfind : ∀ b path, (cons label entry below siblings).find? b path =
      (cons label' entry' below' siblings').find? b path) : label' ≤ label := by
  refine UInt8.not_lt.mp fun hlt => h.not_above hordered hfind ?_
  exact ⟨hlt, hordered'.2.2.trans hlt⟩

/-- What is found behind the first tree is what is found at other labels than its own. -/
theorem find?_siblings {label : UInt8} {siblings : Forest α} (habove : siblings.Above label)
    (entry : Option α) (below : Forest α) (b : UInt8) (path : List UInt8) :
    siblings.find? b path =
      if b = label then none else (cons label entry below siblings).find? b path := by
  split
  · rename_i hb
    rw [hb, find?_eq_none_of_above habove]
  · rename_i hb
    rw [find?_cons_of_ne hb]

/-- **Ordered and pruned forests in which the same is found are the same.** -/
theorem eq_of_find?_eq {forest forest' : Forest α} (hordered : forest.Ordered)
    (hordered' : forest'.Ordered) (hpruned : forest.Pruned) (hpruned' : forest'.Pruned)
    (hfind : ∀ b path, forest.find? b path = forest'.find? b path) : forest = forest' := by
  induction forest generalizing forest' with
  | nil =>
    cases forest' with
    | nil => rfl
    | cons label' entry' below' siblings' =>
      exact absurd (Above.nil label') (hpruned'.not_above hordered' fun b path => (hfind b path).symm)
  | cons label entry below siblings ihbelow ihsiblings =>
    cases forest' with
    | nil => exact absurd (Above.nil label) (hpruned.not_above hordered hfind)
    | cons label' entry' below' siblings' =>
      -- below each of the first labels something is found, so the other forest has it as well
      have hle : label' ≤ label := hpruned.label_le hordered hordered' hfind
      have hge : label ≤ label' :=
        hpruned'.label_le hordered' hordered fun b path => (hfind b path).symm
      obtain rfl : label = label' := UInt8.le_antisymm hge hle
      obtain ⟨hbelow, hsiblings, habove⟩ := hordered
      obtain ⟨hbelow', hsiblings', habove'⟩ := hordered'
      obtain ⟨-, hpbelow, hpsiblings⟩ := pruned_cons.mp hpruned
      obtain ⟨-, hpbelow', hpsiblings'⟩ := pruned_cons.mp hpruned'
      have hentry : entry = entry' := by simpa using hfind label []
      have hlower : below = below' :=
        ihbelow hbelow hbelow' hpbelow hpbelow' fun b path => by simpa using hfind label (b :: path)
      have hnext : siblings = siblings' :=
        ihsiblings hsiblings hsiblings' hpsiblings hpsiblings' fun b path => by
          rw [find?_siblings habove entry below, find?_siblings habove' entry' below', hfind]
      rw [hentry, hlower, hnext]

end CommandConsole.Forest
