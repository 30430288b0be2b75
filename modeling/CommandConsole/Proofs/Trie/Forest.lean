import CommandConsole.Trie.Forest

/-!
# Ordered forests

In an ordered forest siblings have strictly increasing labels. There a path leads to at most one node,
so that a forest is determined by what is found at its paths: insertion and erasure change what is found
at one path and nothing else, and the listing holds what is found, in the byte order of the paths.

## Main definitions

- `Forest.Above` — all labels of the first level are larger than a bound
- `Forest.Ordered` — siblings are in strictly increasing order, on every level
- `Forest.nodes` — all nodes with the paths that lead to them
- `Forest.spelled` — all entries with the paths that lead to them

## Main statements

- `Forest.find?_insert`, `Forest.find?_erase` — what is found after a change
- `Forest.mem_nodes`, `Forest.nodes_sorted` — which nodes there are, and in which order
- `Forest.mem_spelled`, `Forest.spelled_sorted` — what is listed, and in which order
-/

namespace CommandConsole.Forest

variable {α : Type}

/-- Every label of the first level is larger than `bound`. -/
def Above (bound : UInt8) : Forest α → Prop
  | nil => True
  | cons label _ _ siblings => bound < label ∧ siblings.Above bound

/-- Siblings have strictly increasing labels, on every level. -/
def Ordered : Forest α → Prop
  | nil => True
  | cons label _ below siblings => below.Ordered ∧ siblings.Ordered ∧ siblings.Above label

theorem Above.nil (bound : UInt8) : (nil : Forest α).Above bound := trivial

theorem Ordered.nil : (nil : Forest α).Ordered := trivial

theorem Above.trans {a b : UInt8} {forest : Forest α} (hab : a < b) (h : forest.Above b) :
    forest.Above a := by
  induction forest with
  | nil => trivial
  | cons label entry below siblings _ ih => exact ⟨UInt8.lt_trans hab h.1, ih h.2⟩

-- ════════════════════════════════════════════════════════════════════════
-- Looking up
-- ════════════════════════════════════════════════════════════════════════

@[simp] theorem below?_cons_root (label : UInt8) (entry : Option α) (below siblings : Forest α) :
    (cons label entry below siblings).below? label [] = some (entry, below) := by
  simp [below?]

@[simp] theorem below?_cons_below (label b : UInt8) (path : List UInt8) (entry : Option α)
    (below siblings : Forest α) :
    (cons label entry below siblings).below? label (b :: path) = below.below? b path := by
  simp [below?]

theorem below?_cons_of_ne {label b : UInt8} (h : b ≠ label) (path : List UInt8) (entry : Option α)
    (below siblings : Forest α) :
    (cons label entry below siblings).below? b path = siblings.below? b path := by
  simp [below?, h]

@[simp] theorem find?_nil (b : UInt8) (path : List UInt8) : (nil : Forest α).find? b path = none :=
  rfl

@[simp] theorem find?_cons_root (label : UInt8) (entry : Option α) (below siblings : Forest α) :
    (cons label entry below siblings).find? label [] = entry := by
  simp [find?]

@[simp] theorem find?_cons_below (label b : UInt8) (path : List UInt8) (entry : Option α)
    (below siblings : Forest α) :
    (cons label entry below siblings).find? label (b :: path) = below.find? b path := by
  simp [find?]

theorem find?_cons_of_ne {label b : UInt8} (h : b ≠ label) (path : List UInt8) (entry : Option α)
    (below siblings : Forest α) :
    (cons label entry below siblings).find? b path = siblings.find? b path := by
  rw [find?, below?_cons_of_ne h, find?]

/-- Nothing is found at a label below all labels. -/
theorem find?_eq_none_of_above {b : UInt8} {forest : Forest α} (h : forest.Above b)
    (path : List UInt8) : forest.find? b path = none := by
  induction forest with
  | nil => rfl
  | cons label entry below siblings _ ih =>
    have hne : b ≠ label := UInt8.ne_of_lt h.1
    rw [find?_cons_of_ne hne, ih h.2]

/-- The entry of a node is what is found there, and the forest below it answers the longer paths. -/
theorem find?_of_below? {forest below : Forest α} {b : UInt8} {path : List UInt8} {entry : Option α}
    (h : forest.below? b path = some (entry, below)) :
    forest.find? b path = entry ∧
      ∀ b' path', below.find? b' path' = forest.find? b (path ++ b' :: path') := by
  induction forest generalizing b path with
  | nil => simp [below?] at h
  | cons label entry' below' siblings ihbelow ihsiblings =>
    by_cases hb : b = label
    · subst hb
      cases path with
      | nil =>
        rw [below?_cons_root] at h
        cases h
        simp
      | cons b₂ path =>
        rw [below?_cons_below] at h
        simpa using ihbelow h
    · rw [below?_cons_of_ne hb] at h
      obtain ⟨hentry, hlonger⟩ := ihsiblings h
      refine ⟨?_, fun b' path' => ?_⟩
      · rw [find?_cons_of_ne hb, hentry]
      · rw [find?_cons_of_ne hb, hlonger]

/-- Where no path leads, no longer path leads either. -/
theorem find?_of_below?_eq_none {forest : Forest α} {b : UInt8} {path : List UInt8}
    (h : forest.below? b path = none) (path' : List UInt8) : forest.find? b (path ++ path') = none := by
  induction forest generalizing b path with
  | nil => rfl
  | cons label entry below siblings ihbelow ihsiblings =>
    by_cases hb : b = label
    · subst hb
      cases path with
      | nil => simp at h
      | cons b₂ path =>
        rw [below?_cons_below] at h
        simpa using ihbelow h
    · rw [below?_cons_of_ne hb] at h
      rw [find?_cons_of_ne hb, ihsiblings h]

theorem Ordered.below? {forest below : Forest α} (h : forest.Ordered) {b : UInt8}
    {path : List UInt8} {entry : Option α} (hnode : forest.below? b path = some (entry, below)) :
    below.Ordered := by
  induction forest generalizing b path with
  | nil => simp [Forest.below?] at hnode
  | cons label entry' below' siblings ihbelow ihsiblings =>
    by_cases hb : b = label
    · subst hb
      cases path with
      | nil =>
        rw [below?_cons_root] at hnode
        cases hnode
        exact h.1
      | cons b₂ path =>
        rw [below?_cons_below] at hnode
        exact ihbelow h.1 hnode
    · rw [below?_cons_of_ne hb] at hnode
      exact ihsiblings h.2.1 hnode

-- ════════════════════════════════════════════════════════════════════════
-- Insertion
-- ════════════════════════════════════════════════════════════════════════

/-- On a branch in front of a forest its own path leads to its entry. -/
theorem find?_branch (a : α) (b b' : UInt8) (path path' : List UInt8) (siblings : Forest α) :
    (branch a b path siblings).find? b' path' =
      if b = b' then if path = path' then some a else none else siblings.find? b' path' := by
  induction path generalizing b b' path' siblings with
  | nil =>
    by_cases hb : b = b'
    · subst hb
      cases path' with
      | nil => simp [branch]
      | cons b₂ path' => simp [branch]
    · simp [branch, hb, find?_cons_of_ne (Ne.symm hb)]
  | cons b₁ path ih =>
    by_cases hb : b = b'
    · subst hb
      cases path' with
      | nil => simp [branch]
      | cons b₂ path' =>
        by_cases hb₂ : b₁ = b₂ <;> simp [branch, ih, hb₂]
    · simp [branch, hb, find?_cons_of_ne (Ne.symm hb)]

/-- After an insertion into an ordered forest the path leads to the new entry, and every other path
where it led before. -/
theorem find?_insert {forest : Forest α} (h : forest.Ordered) (a : α) (b b' : UInt8)
    (path path' : List UInt8) :
    (forest.insert a b path).find? b' path' =
      if b = b' ∧ path = path' then some a else forest.find? b' path' := by
  induction forest generalizing b b' path path' with
  | nil =>
    simp only [insert, find?_branch, find?_nil]
    split <;> simp_all
  | cons label entry below siblings ihbelow ihsiblings =>
    obtain ⟨hbelow, hsiblings, habove⟩ := h
    simp only [insert]
    split
    · -- the label is new: a branch goes in front, and nothing was found at its label
      rename_i hlt
      have hall : (cons label entry below siblings).Above b := ⟨hlt, habove.trans hlt⟩
      have hnone : (cons label entry below siblings).find? b path' = none :=
        find?_eq_none_of_above hall path'
      rw [find?_branch]
      by_cases hb : b = b'
      · subst hb
        by_cases hpath : path = path' <;> simp [hpath, hnone]
      · simp [hb]
    · split
      · rename_i hlabel
        subst hlabel
        by_cases hb : b = b'
        · subst hb
          cases path with
          | nil => cases path' <;> simp
          | cons b₁ path =>
            cases path' with
            | nil => simp
            | cons b₂ path' => simp [ihbelow hbelow]
        · cases path <;> simp [hb, find?_cons_of_ne (Ne.symm hb)]
      · rename_i hne
        by_cases hb' : b' = label
        · subst hb'
          cases path' <;> simp [hne]
        · rw [find?_cons_of_ne hb', find?_cons_of_ne hb', ihsiblings hsiblings]

theorem Ordered.branch {siblings : Forest α} (h : siblings.Ordered) (a : α) {b : UInt8}
    (habove : siblings.Above b) (path : List UInt8) : (branch a b path siblings).Ordered := by
  induction path generalizing b siblings with
  | nil => exact ⟨trivial, h, habove⟩
  | cons b₁ path ih => exact ⟨ih Ordered.nil (Above.nil b₁), h, habove⟩

theorem Above.branch {siblings : Forest α} {bound b : UInt8} (h : siblings.Above bound) (a : α)
    (hb : bound < b) (path : List UInt8) : (branch a b path siblings).Above bound := by
  cases path with
  | nil => exact ⟨hb, h⟩
  | cons b₁ path => exact ⟨hb, h⟩

theorem Above.insert {forest : Forest α} {bound b : UInt8} (h : forest.Above bound) (a : α)
    (hb : bound < b) (path : List UInt8) : (forest.insert a b path).Above bound := by
  induction forest with
  | nil => exact (Above.nil bound).branch a hb path
  | cons label entry below siblings _ ih =>
    simp only [Forest.insert]
    split
    · exact h.branch a hb path
    · split
      · cases path with
        | nil => exact h
        | cons b₁ path => exact h
      · exact ⟨h.1, ih h.2⟩

theorem Ordered.insert {forest : Forest α} (h : forest.Ordered) (a : α) (b : UInt8)
    (path : List UInt8) : (forest.insert a b path).Ordered := by
  induction forest generalizing b path with
  | nil => exact Ordered.nil.branch a (Above.nil b) path
  | cons label entry below siblings ihbelow ihsiblings =>
    obtain ⟨hbelow, hsiblings, habove⟩ := h
    simp only [Forest.insert]
    split
    · rename_i hlt
      have hold : (cons label entry below siblings).Ordered := ⟨hbelow, hsiblings, habove⟩
      have hall : (cons label entry below siblings).Above b := ⟨hlt, habove.trans hlt⟩
      exact hold.branch a hall path
    · split
      · cases path with
        | nil => exact ⟨hbelow, hsiblings, habove⟩
        | cons b₁ path => exact ⟨ihbelow hbelow b₁ path, hsiblings, habove⟩
      · rename_i hlt hne
        have hlabel : label < b := UInt8.lt_of_le_of_ne (UInt8.not_lt.mp hlt) (Ne.symm hne)
        exact ⟨hbelow, ihsiblings hsiblings b path, habove.insert a hlabel path⟩

-- ════════════════════════════════════════════════════════════════════════
-- Erasure
-- ════════════════════════════════════════════════════════════════════════

/-- Leaving out an empty tree does not change what is found. -/
theorem find?_prune {label : UInt8} {siblings : Forest α} (habove : siblings.Above label)
    (entry : Option α) (below : Forest α) (b : UInt8) (path : List UInt8) :
    (prune label entry below siblings).find? b path =
      (cons label entry below siblings).find? b path := by
  cases entry with
  | some a => simp [prune]
  | none =>
    cases below with
    | cons l e f g => simp [prune, isNil]
    | nil =>
      by_cases hb : b = label
      · subst hb
        cases path <;> simp [prune, isNil, find?_eq_none_of_above habove]
      · simp [prune, isNil, find?_cons_of_ne hb]

/-- After an erasure from an ordered forest the path leads nowhere, and every other path where it led
before. -/
theorem find?_erase {forest : Forest α} (h : forest.Ordered) (b b' : UInt8)
    (path path' : List UInt8) :
    (forest.erase b path).find? b' path' =
      if b = b' ∧ path = path' then none else forest.find? b' path' := by
  induction forest generalizing b b' path path' with
  | nil => simp [erase]
  | cons label entry below siblings ihbelow ihsiblings =>
    obtain ⟨hbelow, hsiblings, habove⟩ := h
    by_cases hlabel : b = label
    · subst hlabel
      cases path with
      | nil =>
        simp only [erase, if_true, find?_prune habove]
        by_cases hb : b = b'
        · subst hb
          cases path' <;> simp
        · simp [hb, find?_cons_of_ne (Ne.symm hb)]
      | cons b₁ path =>
        simp only [erase, if_true, find?_prune habove]
        by_cases hb : b = b'
        · subst hb
          cases path' with
          | nil => simp
          | cons b₂ path' => simp [ihbelow hbelow]
        · simp [hb, find?_cons_of_ne (Ne.symm hb)]
    · simp only [erase, hlabel, if_false]
      by_cases hb' : b' = label
      · subst hb'
        cases path' <;> simp [hlabel]
      · rw [find?_cons_of_ne hb', find?_cons_of_ne hb', ihsiblings hsiblings]

theorem Above.prune {bound label : UInt8} {siblings : Forest α} (h : siblings.Above bound)
    (hlabel : bound < label) (entry : Option α) (below : Forest α) :
    (prune label entry below siblings).Above bound := by
  unfold Forest.prune
  split
  · exact h
  · exact ⟨hlabel, h⟩

theorem Above.erase {forest : Forest α} {bound : UInt8} (h : forest.Above bound) (b : UInt8)
    (path : List UInt8) : (forest.erase b path).Above bound := by
  induction forest with
  | nil => exact h
  | cons label entry below siblings _ ih =>
    simp only [Forest.erase]
    split
    · cases path with
      | nil => exact h.2.prune h.1 none below
      | cons b₁ path => exact h.2.prune h.1 entry (below.erase b₁ path)
    · exact ⟨h.1, ih h.2⟩

theorem Ordered.prune {label : UInt8} {below siblings : Forest α} (hbelow : below.Ordered)
    (hsiblings : siblings.Ordered) (habove : siblings.Above label) (entry : Option α) :
    (prune label entry below siblings).Ordered := by
  unfold Forest.prune
  split
  · exact hsiblings
  · exact ⟨hbelow, hsiblings, habove⟩

theorem Ordered.erase {forest : Forest α} (h : forest.Ordered) (b : UInt8) (path : List UInt8) :
    (forest.erase b path).Ordered := by
  induction forest generalizing b path with
  | nil => exact h
  | cons label entry below siblings ihbelow ihsiblings =>
    obtain ⟨hbelow, hsiblings, habove⟩ := h
    simp only [Forest.erase]
    split
    · cases path with
      | nil => exact hbelow.prune hsiblings habove none
      | cons b₁ path => exact (ihbelow hbelow b₁ path).prune hsiblings habove entry
    · exact ⟨hbelow, ihsiblings hsiblings b path, habove.erase b path⟩

-- ════════════════════════════════════════════════════════════════════════
-- Listing
-- ════════════════════════════════════════════════════════════════════════

/-- All nodes with the paths that lead to them, in the order of the listing: each with its entry and the forest
below it. -/
def nodes : Forest α → List (List UInt8 × Option α × Forest α)
  | nil => []
  | cons label entry below siblings =>
    ([label], entry, below) :: below.nodes.map (fun node => (label :: node.1, node.2)) ++ siblings.nodes

/-- All entries with the paths that lead to them, in the order of the listing. -/
def spelled : Forest α → List (List UInt8 × α)
  | nil => []
  | cons label entry below siblings =>
    entry.toList.map (fun a => ([label], a)) ++
      below.spelled.map (fun item => (label :: item.1, item.2)) ++ siblings.spelled

theorem map_snd_spelled (forest : Forest α) : forest.spelled.map (·.2) = forest.toList := by
  induction forest with
  | nil => rfl
  | cons label entry below siblings ihbelow ihsiblings =>
    simp [spelled, toList, ← ihbelow, ← ihsiblings, Function.comp_def]

theorem spelled_eq_filterMap (forest : Forest α) :
    forest.spelled = forest.nodes.filterMap fun node => node.2.1.map fun a => (node.1, a) := by
  induction forest with
  | nil => rfl
  | cons label entry below siblings ihbelow ihsiblings =>
    cases entry <;> simp [spelled, nodes, ihbelow, ihsiblings, List.map_filterMap, List.filterMap_map,
      Function.comp_def]

/-- The entries that are listed are those of the nodes. -/
theorem mem_spelled_iff_mem_nodes {forest : Forest α} {path : List UInt8} {a : α} :
    (path, a) ∈ forest.spelled ↔ ∃ below, (path, some a, below) ∈ forest.nodes := by
  rw [spelled_eq_filterMap, List.mem_filterMap]
  constructor
  · rintro ⟨⟨path', entry, below⟩, hnode, heq⟩
    obtain ⟨a', rfl, heq⟩ := Option.map_eq_some_iff.mp heq
    cases heq
    exact ⟨below, hnode⟩
  · rintro ⟨below, hnode⟩
    exact ⟨_, hnode, rfl⟩

theorem mem_nodes_cons {label : UInt8} {entry : Option α} {below siblings : Forest α}
    {node : List UInt8 × Option α × Forest α} :
    node ∈ (cons label entry below siblings).nodes ↔
      node = ([label], entry, below) ∨
        (∃ lower ∈ below.nodes, node = (label :: lower.1, lower.2)) ∨ node ∈ siblings.nodes := by
  simp only [nodes, List.cons_append, List.mem_cons, List.mem_append, List.mem_map, eq_comm]

/-- The paths of a forest above a bound start with labels above it. -/
theorem Above.of_mem_nodes {forest : Forest α} {bound : UInt8} (h : forest.Above bound)
    {node : List UInt8 × Option α × Forest α} (hnode : node ∈ forest.nodes) :
    ∃ b path, node.1 = b :: path ∧ bound < b := by
  induction forest with
  | nil => cases hnode
  | cons label entry below siblings _ ih =>
    rcases mem_nodes_cons.mp hnode with rfl | ⟨lower, -, rfl⟩ | hnode
    · exact ⟨label, [], rfl, h.1⟩
    · exact ⟨label, lower.1, rfl, h.1⟩
    · exact ih h.2 hnode

theorem ne_nil_of_mem_nodes {forest : Forest α} {node : List UInt8 × Option α × Forest α}
    (hnode : node ∈ forest.nodes) : node.1 ≠ [] := by
  induction forest with
  | nil => cases hnode
  | cons label entry below siblings _ ih =>
    rcases mem_nodes_cons.mp hnode with rfl | ⟨lower, -, rfl⟩ | hnode
    · simp
    · simp
    · exact ih hnode

theorem ne_nil_of_mem_spelled {forest : Forest α} {item : List UInt8 × α}
    (hitem : item ∈ forest.spelled) : item.1 ≠ [] := by
  obtain ⟨below, hnode⟩ := mem_spelled_iff_mem_nodes.mp hitem
  exact ne_nil_of_mem_nodes hnode

/-- The nodes of an ordered forest are those that its paths lead to. -/
theorem mem_nodes {forest : Forest α} (h : forest.Ordered) (b : UInt8) (path : List UInt8)
    (node : Option α × Forest α) :
    (b :: path, node) ∈ forest.nodes ↔ forest.below? b path = some node := by
  induction forest generalizing b path with
  | nil => simp [nodes, Forest.below?]
  | cons label entry below siblings ihbelow ihsiblings =>
    obtain ⟨hbelow, hsiblings, habove⟩ := h
    rw [mem_nodes_cons]
    by_cases hb : b = label
    · subst hb
      have hnot : (b :: path, node) ∉ siblings.nodes := by
        intro hmem
        obtain ⟨b', path', heq, hlt⟩ := habove.of_mem_nodes hmem
        cases heq
        exact UInt8.lt_irrefl b hlt
      cases path with
      | nil =>
        rw [below?_cons_root]
        constructor
        · rintro (heq | ⟨lower, hlower, heq⟩ | hmem)
          · cases heq
            rfl
          · simp only [Prod.mk.injEq, List.cons.injEq, true_and] at heq
            exact absurd heq.1.symm (ne_nil_of_mem_nodes hlower)
          · exact absurd hmem hnot
        · intro hnode
          cases hnode
          exact Or.inl rfl
      | cons b₁ path =>
        rw [below?_cons_below, ← ihbelow hbelow]
        constructor
        · rintro (heq | ⟨⟨lower, node'⟩, hlower, heq⟩ | hmem)
          · cases heq
          · cases heq
            exact hlower
          · exact absurd hmem hnot
        · intro hlower
          exact Or.inr (Or.inl ⟨(b₁ :: path, node), hlower, rfl⟩)
    · rw [below?_cons_of_ne hb, ← ihsiblings hsiblings]
      constructor
      · rintro (heq | ⟨lower, -, heq⟩ | hmem)
        · cases heq
          exact absurd rfl hb
        · cases heq
          exact absurd rfl hb
        · exact hmem
      · intro hmem
        exact Or.inr (Or.inr hmem)

/-- An ordered forest lists what is found at its paths. -/
theorem mem_spelled {forest : Forest α} (h : forest.Ordered) (b : UInt8) (path : List UInt8) (a : α) :
    (b :: path, a) ∈ forest.spelled ↔ forest.find? b path = some a := by
  rw [mem_spelled_iff_mem_nodes]
  constructor
  · rintro ⟨below, hnode⟩
    exact (find?_of_below? ((mem_nodes h b path _).mp hnode)).1
  · intro hfound
    obtain ⟨⟨entry, below⟩, hnode, rfl⟩ := Option.bind_eq_some_iff.mp hfound
    exact ⟨below, (mem_nodes h b path _).mpr hnode⟩

/-- The nodes of an ordered forest are listed in the byte order of their paths. -/
theorem nodes_sorted {forest : Forest α} (h : forest.Ordered) :
    forest.nodes.Pairwise fun first second => first.1 < second.1 := by
  induction forest with
  | nil => exact List.Pairwise.nil
  | cons label entry below siblings ihbelow ihsiblings =>
    obtain ⟨hbelow, hsiblings, habove⟩ := h
    have hlower : (below.nodes.map fun node => (label :: node.1, node.2)).Pairwise
        fun first second => first.1 < second.1 := by
      rw [List.pairwise_map]
      exact (ihbelow hbelow).imp fun hlt => List.cons_lt_cons_iff.mpr (Or.inr ⟨rfl, hlt⟩)
    refine List.pairwise_append.mpr ⟨List.pairwise_cons.mpr ⟨?_, hlower⟩, ihsiblings hsiblings, ?_⟩
    · -- the path of the tree's root is a proper beginning of the others
      intro second hsecond
      obtain ⟨node, hnode, rfl⟩ := List.mem_map.mp hsecond
      obtain ⟨b, path, hpath⟩ := List.exists_cons_of_ne_nil (ne_nil_of_mem_nodes hnode)
      simp [hpath]
    · -- the paths of the siblings start with larger labels
      intro first hfirst second hsecond
      obtain ⟨b, path, hpath, hlt⟩ := habove.of_mem_nodes hsecond
      have hfirst' : ∃ path', first.1 = label :: path' := by
        rcases List.mem_cons.mp hfirst with rfl | hfirst
        · exact ⟨[], rfl⟩
        · obtain ⟨node, -, rfl⟩ := List.mem_map.mp hfirst
          exact ⟨node.1, rfl⟩
      obtain ⟨path', hpath'⟩ := hfirst'
      rw [hpath, hpath']
      exact List.cons_lt_cons_iff.mpr (Or.inl hlt)

/-- An ordered forest is listed in the byte order of its paths. -/
theorem spelled_sorted {forest : Forest α} (h : forest.Ordered) :
    forest.spelled.Pairwise fun first second => first.1 < second.1 := by
  rw [spelled_eq_filterMap, List.pairwise_filterMap]
  refine (nodes_sorted h).imp fun hlt item hitem item' hitem' => ?_
  obtain ⟨a, -, rfl⟩ := Option.map_eq_some_iff.mp hitem
  obtain ⟨a', -, rfl⟩ := Option.map_eq_some_iff.mp hitem'
  exact hlt

end CommandConsole.Forest
