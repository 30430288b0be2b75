import CommandConsole.Proofs.Trie.Pruned
import CommandConsole.Proofs.Trie.Refinement

/-!
# The shape of a prefix tree

Insertion grows only the nodes that lead to its key, and erasure takes away every node that then leads to none.
So the shape of a prefix tree does not tell how it came about: there is one tree for each finite map.

## Main definitions

- `Trie.Canonical` — a tree holds what a map holds, and none of its nodes is dead

## Main statements

- `Trie.Canonical.edit`, `Trie.Canonical.run` — trees that are changed stay canonical
- `Trie.Canonical.eq_iff` — canonical trees are the same exactly if their maps are
- `Trie.run_canonical` — the nodes that a sequence of changes leaves, and when two sequences leave the same tree
-/

namespace CommandConsole.Trie

variable {υ : Type}

/-- A tree holds what a map holds, and every node below its root has an entry or a node below it. -/
structure Canonical (trie : Trie υ) (map : Finmap fun _ : String => υ) : Prop extends
    Represents trie map where
  pruned : trie.below.Pruned

theorem pruned_insert {trie : Trie υ} (h : trie.below.Pruned) (key : String) (value : υ) :
    (trie.insert key value).2.below.Pruned := by
  unfold insert
  cases Text.bytes key with
  | nil => exact h
  | cons b path => exact Forest.Pruned.insert h (key, value) b path

theorem pruned_erase {trie : Trie υ} (h : trie.below.Pruned) (key : String) :
    (trie.erase key).2.below.Pruned := by
  unfold erase
  cases Text.bytes key with
  | nil => exact h
  | cons b path => exact Forest.Pruned.erase h b path

theorem Canonical.empty : Canonical (empty : Trie υ) ∅ where
  toRepresents := Represents.empty
  pruned := Forest.Pruned.nil

theorem Canonical.insert {trie : Trie υ} {map : Finmap fun _ : String => υ} (h : Canonical trie map)
    (key : String) (value : υ) : Canonical (trie.insert key value).2 (map.insert key value) where
  toRepresents := h.toRepresents.insert key value
  pruned := pruned_insert h.pruned key value

theorem Canonical.erase {trie : Trie υ} {map : Finmap fun _ : String => υ} (h : Canonical trie map)
    (key : String) : Canonical (trie.erase key).2 (map.erase key) where
  toRepresents := h.toRepresents.erase key
  pruned := pruned_erase h.pruned key

theorem Canonical.edit {trie : Trie υ} {map : Finmap fun _ : String => υ} (h : Canonical trie map)
    (change : Edit υ) : Canonical (trie.edit change).2 (mapEdit map change).2 := by
  cases change with
  | insert key value => exact h.insert key value
  | erase key => exact h.erase key

theorem Canonical.run {trie : Trie υ} {map : Finmap fun _ : String => υ} (h : Canonical trie map)
    (changes : List (Edit υ)) : Canonical (trie.run changes).2 (mapRun map changes).2 := by
  induction changes generalizing trie map with
  | nil => exact h
  | cons change changes ih => exact ih (h.edit change)

-- ════════════════════════════════════════════════════════════════════════
-- Uniqueness
-- ════════════════════════════════════════════════════════════════════════

theorem Represents.entryAt_eq {trie trie' : Trie υ} {map : Finmap fun _ : String => υ}
    (h : Represents trie map) (h' : Represents trie' map) (path : List UInt8) :
    trie.entryAt path = trie'.entryAt path := by
  refine Option.ext fun entry => ?_
  rw [h.entryAt_iff, h'.entryAt_iff]

/-- There is only one canonical tree of a map. -/
theorem Canonical.unique {trie trie' : Trie υ} {map : Finmap fun _ : String => υ}
    (h : Canonical trie map) (h' : Canonical trie' map) : trie = trie' := by
  have hentry := h.toRepresents.entryAt_eq h'.toRepresents
  have hbelow : trie.below = trie'.below :=
    Forest.eq_of_find?_eq h.ordered h'.ordered h.pruned h'.pruned fun b path => hentry (b :: path)
  have hroot : trie.root = trie'.root := hentry []
  have hsize : trie.size = trie'.size := h.size_eq.trans h'.size_eq.symm
  cases trie
  cases trie'
  rw [Trie.mk.injEq]
  exact ⟨hroot, hbelow, hsize⟩

/-- **Canonical trees are the same exactly if their maps are.** -/
theorem Canonical.eq_iff {trie trie' : Trie υ} {map map' : Finmap fun _ : String => υ}
    (h : Canonical trie map) (h' : Canonical trie' map') : trie = trie' ↔ map = map' := by
  constructor
  · rintro rfl
    exact Finmap.ext_lookup fun key => (h.find? key).symm.trans (h'.find? key)
  · rintro rfl
    exact h.unique h'

theorem mapErase_eq_self_iff (map : Finmap fun _ : String => υ) (key : String) :
    map.erase key = map ↔ key ∉ map := by
  constructor
  · intro heq hkey
    rw [← heq] at hkey
    exact Finmap.notMem_erase_self hkey
  · intro hkey
    refine Finmap.ext_lookup fun key' => ?_
    rcases eq_or_ne key' key with rfl | hne
    · rw [Finmap.lookup_erase, Finmap.lookup_eq_none.mpr hkey]
    · rw [Finmap.lookup_erase_ne hne]

/-- An erasure leaves no trace of an insertion of its key. -/
theorem mapErase_mapInsert (map : Finmap fun _ : String => υ) (key : String) (value : υ) :
    (map.insert key value).erase key = map.erase key := by
  refine Finmap.ext_lookup fun key' => ?_
  rcases eq_or_ne key' key with rfl | hne
  · rw [Finmap.lookup_erase, Finmap.lookup_erase]
  · rw [Finmap.lookup_erase_ne hne, Finmap.lookup_erase_ne hne, Finmap.lookup_insert_of_ne map hne]

-- ════════════════════════════════════════════════════════════════════════
-- Nodes
-- ════════════════════════════════════════════════════════════════════════

/-- The paths that lead to nodes below the root are the beginnings of the keys. -/
theorem Canonical.mem_paths_iff {trie : Trie υ} {map : Finmap fun _ : String => υ}
    (h : Canonical trie map) (path : List UInt8) :
    path ∈ trie.below.nodes.map (·.1) ↔ path ≠ [] ∧ ∃ key ∈ map, path <+: Text.bytes key := by
  cases path with
  | nil =>
    have hnot : [] ∉ trie.below.nodes.map (·.1) := by
      intro hpath
      obtain ⟨node, hnode, hnil⟩ := List.mem_map.mp hpath
      exact Forest.ne_nil_of_mem_nodes hnode hnil
    simp [hnot]
  | cons b path =>
    have hentry : ∀ rest, trie.below.find? b (path ++ rest) = trie.entryAt (b :: path ++ rest) := fun _ => rfl
    calc b :: path ∈ trie.below.nodes.map (·.1)
        ↔ ∃ node, (b :: path, node) ∈ trie.below.nodes := by simp
      _ ↔ ∃ rest entry, trie.below.find? b (path ++ rest) = some entry :=
          h.pruned.exists_node_iff h.ordered b path
      _ ↔ ∃ rest key value, b :: path ++ rest = Text.bytes key ∧ map.lookup key = some value := by
          simp only [hentry, Prod.exists, h.entryAt_iff]
      _ ↔ b :: path ≠ [] ∧ ∃ key ∈ map, b :: path <+: Text.bytes key := by
          simp only [Finmap.mem_iff, List.IsPrefix]
          grind

/-- **The shape of a prefix tree is determined by what it holds.** After every sequence of changes to the empty
tree every node below the root has an entry or a node below it, and the paths that lead to nodes are the
beginnings of the keys. Two sequences of changes leave the same tree exactly if they leave the same map. In
particular, exactly the keys that are not there can be erased, or inserted and then erased, without a trace. -/
theorem run_canonical (changes : List (Edit υ)) :
    let trie := ((empty : Trie υ).run changes).2
    let map := (mapRun (∅ : Finmap fun _ : String => υ) changes).2
    (∀ node ∈ trie.below.nodes, node.2.1.isSome ∨ node.2.2 ≠ .nil) ∧
      (∀ path, path ∈ trie.below.nodes.map (·.1) ↔
        path ≠ [] ∧ ∃ key ∈ map, path <+: Text.bytes key) ∧
      (∀ changes', ((empty : Trie υ).run changes').2 = trie ↔
        (mapRun (∅ : Finmap fun _ : String => υ) changes').2 = map) ∧
      ∀ key, ((trie.erase key).2 = trie ↔ key ∉ map) ∧
        ∀ value, ((trie.insert key value).2.erase key).2 = trie ↔ key ∉ map := by
  intro trie map
  have h : Canonical trie map := Canonical.empty.run changes
  refine ⟨h.pruned, h.mem_paths_iff, fun changes' => (Canonical.empty.run changes').eq_iff h,
    fun key => ⟨?_, fun value => ?_⟩⟩
  · rw [(h.erase key).eq_iff h, mapErase_eq_self_iff]
  · rw [((h.insert key value).erase key).eq_iff h, mapErase_mapInsert, mapErase_eq_self_iff]

/-- Behind "heal" and "help" the erasure of "heal" leaves the tree of "help" alone. There "he" leads to a node and
is no key. -/
theorem help_left_alone :
    let trie := ((empty : Trie Nat).run [.insert "heal" 1, .insert "help" 2, .erase "heal"]).2
    let map := (mapRun (∅ : Finmap fun _ : String => Nat)
      [.insert "heal" 1, .insert "help" 2, .erase "heal"]).2
    let below : Forest (String × Nat) := .cons 108 none (.cons 112 (some ("help", 2)) .nil .nil) .nil
    ("help" ∈ map ∧ "he" ∉ map ∧ "heal" ∉ map ∧ (Text.bytes "he", none, below) ∈ trie.below.nodes) ∧
      below ≠ .nil ∧ Text.bytes "hel" ∈ trie.below.nodes.map (·.1) ∧
      trie = ((empty : Trie Nat).run [.insert "help" 2]).2 ∧ (trie.erase "he").2 = trie ∧
      ((trie.insert "heal" 3).2.erase "heal").2 = trie := by
  intro trie map below
  have hhelp : "help" ∈ map := by decide +kernel
  have hhe : "he" ∉ map := by decide +kernel
  have hheal : "heal" ∉ map := by decide +kernel
  have hnode : (Text.bytes "he", none, below) ∈ trie.below.nodes := by decide +kernel
  have hmap : (mapRun (∅ : Finmap fun _ : String => Nat) [.insert "help" 2]).2 = map := by decide +kernel
  obtain ⟨hlive, hpaths, hsame, hkeys⟩ :=
    run_canonical (υ := Nat) [.insert "heal" 1, .insert "help" 2, .erase "heal"]
  refine ⟨⟨hhelp, hhe, hheal, hnode⟩, ?_, ?_, ((hsame [.insert "help" 2]).mpr hmap).symm,
    (hkeys "he").1.mpr hhe, ((hkeys "heal").2 3).mpr hheal⟩
  · exact (hlive _ hnode).resolve_left (by simp)
  · exact (hpaths (Text.bytes "hel")).mpr ⟨by decide +kernel, "help", hhelp, by decide +kernel⟩

end CommandConsole.Trie
