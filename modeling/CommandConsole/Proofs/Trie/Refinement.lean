import CommandConsole.Proofs.Text.Bytes
import CommandConsole.Proofs.Trie.Forest
import CommandConsole.Proofs.Trie.Walk
import CommandConsole.Trie.Basic
import Mathlib.Data.Finmap

/-!
# Prefix trees as finite maps

A prefix tree that is changed by insertions and erasures behaves as a finite map from texts to values.
It answers every change as the map does, counts the keys of the map, and lists the entries whose keys
start with a text in the byte order of the keys.

## Main definitions

- `Trie.Edit`, `Trie.run` — changes as data, and a sequence of them with its answers
- `Trie.mapRun` — the same sequence on a finite map
- `Trie.Represents` — a tree holds what a map holds

## Main statements

- `Trie.Represents.edit` — one change keeps a tree and a map together
- `Trie.run_refines_map` — every sequence of changes is answered as by a map, and leaves a tree that
  counts and lists what the map holds
-/

namespace CommandConsole.Trie

variable {υ : Type}

/-- A change to a map from texts. -/
inductive Edit (υ : Type) where
  | insert (key : String) (value : υ)
  | erase (key : String)

/-- Make a change. Answers the value that the key had. -/
def edit (trie : Trie υ) : Edit υ → Option υ × Trie υ
  | .insert key value => trie.insert key value
  | .erase key => trie.erase key

/-- Make changes one after the other. Answers what each of them answered. -/
def run (trie : Trie υ) : List (Edit υ) → List (Option υ) × Trie υ
  | [] => ([], trie)
  | change :: changes =>
    let (answer, trie) := trie.edit change
    let (answers, trie) := trie.run changes
    (answer :: answers, trie)

/-- Make a change to a finite map. Answers the value that the key had. -/
def mapEdit (map : Finmap fun _ : String => υ) :
    Edit υ → Option υ × Finmap fun _ : String => υ
  | .insert key value => (map.lookup key, map.insert key value)
  | .erase key => (map.lookup key, map.erase key)

/-- Make changes to a finite map one after the other. Answers what each of them answered. -/
def mapRun (map : Finmap fun _ : String => υ) :
    List (Edit υ) → List (Option υ) × Finmap fun _ : String => υ
  | [] => ([], map)
  | change :: changes =>
    let (answer, map) := mapEdit map change
    let (answers, map) := mapRun map changes
    (answer :: answers, map)

-- ════════════════════════════════════════════════════════════════════════
-- Entries by their paths
-- ════════════════════════════════════════════════════════════════════════

/-- The entry at the end of a path from the root. -/
def entryAt (trie : Trie υ) : List UInt8 → Option (String × υ)
  | [] => trie.root
  | b :: path => trie.below.find? b path

/-- A key has the value of the entry that its bytes lead to. -/
theorem find?_eq (trie : Trie υ) (key : String) :
    trie.find? key = (trie.entryAt (Text.bytes key)).map (·.2) := by
  unfold find? node? entryAt
  cases Text.bytes key with
  | nil => rfl
  | cons b path =>
    cases h : trie.below.below? b path <;> simp [Forest.find?, h]

/-- After an insertion the path of the key leads to its new entry. -/
theorem entryAt_insert {trie : Trie υ} (h : trie.below.Ordered) (key : String) (value : υ)
    (path : List UInt8) :
    (trie.insert key value).2.entryAt path =
      if path = Text.bytes key then some (key, value) else trie.entryAt path := by
  unfold insert
  cases hbytes : Text.bytes key with
  | nil => cases path <;> simp [entryAt]
  | cons b rest =>
    cases path with
    | nil => simp [entryAt]
    | cons b' rest' =>
      simp only [entryAt, Forest.find?_insert h, List.cons.injEq, eq_comm]

/-- After an erasure the path of the key leads to no entry. -/
theorem entryAt_erase {trie : Trie υ} (h : trie.below.Ordered) (key : String) (path : List UInt8) :
    (trie.erase key).2.entryAt path =
      if path = Text.bytes key then none else trie.entryAt path := by
  unfold erase
  cases hbytes : Text.bytes key with
  | nil => cases path <;> simp [entryAt]
  | cons b rest =>
    cases path with
    | nil => simp [entryAt]
    | cons b' rest' =>
      simp only [entryAt, Forest.find?_erase h, List.cons.injEq, eq_comm]

theorem ordered_insert {trie : Trie υ} (h : trie.below.Ordered) (key : String) (value : υ) :
    (trie.insert key value).2.below.Ordered := by
  unfold insert
  cases Text.bytes key with
  | nil => exact h
  | cons b path => exact Forest.Ordered.insert h (key, value) b path

theorem ordered_erase {trie : Trie υ} (h : trie.below.Ordered) (key : String) :
    (trie.erase key).2.below.Ordered := by
  unfold erase
  cases Text.bytes key with
  | nil => exact h
  | cons b path => exact Forest.Ordered.erase h b path

-- ════════════════════════════════════════════════════════════════════════
-- Listing by prefix
-- ════════════════════════════════════════════════════════════════════════

/-- The walk that lists the entries whose keys start with a text. -/
def walk (trie : Trie υ) (text : String) : Forest.Walk (String × υ) :=
  (trie.node? text).toList

theorem remaining_walk (trie : Trie υ) (text : String) :
    (trie.walk text).remaining = trie.withPrefix text := by
  unfold walk withPrefix
  cases trie.node? text with
  | none => rfl
  | some node => simp [Forest.Walk.remaining]

/-- Where a text leads to a node, the entries on the paths that go on from there are those of the node
and of the forest below it. -/
theorem entryAt_append_of_node? {trie : Trie υ} {text : String} {entry : Option (String × υ)}
    {below : Forest (String × υ)} (hnode : trie.node? text = some (entry, below)) :
    trie.entryAt (Text.bytes text) = entry ∧
      ∀ b path, trie.entryAt (Text.bytes text ++ b :: path) = below.find? b path := by
  unfold node? at hnode
  cases hbytes : Text.bytes text with
  | nil =>
    rw [hbytes] at hnode
    simp only [Option.some.injEq, Prod.mk.injEq] at hnode
    exact ⟨hnode.1, fun b path => by rw [← hnode.2]; rfl⟩
  | cons b₁ rest =>
    rw [hbytes] at hnode
    obtain ⟨hentry, hlonger⟩ := Forest.find?_of_below? hnode
    exact ⟨hentry, fun b path => (hlonger b path).symm⟩

theorem entryAt_append_of_node?_eq_none {trie : Trie υ} {text : String}
    (hnode : trie.node? text = none) (rest : List UInt8) :
    trie.entryAt (Text.bytes text ++ rest) = none := by
  unfold node? at hnode
  cases hbytes : Text.bytes text with
  | nil =>
    rw [hbytes] at hnode
    cases hnode
  | cons b₁ path =>
    rw [hbytes] at hnode
    exact Forest.find?_of_below?_eq_none hnode rest

theorem ordered_of_node? {trie : Trie υ} (h : trie.below.Ordered) {text : String}
    {entry : Option (String × υ)} {below : Forest (String × υ)}
    (hnode : trie.node? text = some (entry, below)) : below.Ordered := by
  unfold node? at hnode
  cases hbytes : Text.bytes text with
  | nil =>
    rw [hbytes] at hnode
    simp only [Option.some.injEq, Prod.mk.injEq] at hnode
    exact hnode.2 ▸ h
  | cons b₁ path =>
    rw [hbytes] at hnode
    exact h.below? hnode

/-- The listing by prefix goes through the paths that start with the bytes of the text, in order. -/
theorem exists_spelled_withPrefix {trie : Trie υ} (h : trie.below.Ordered) (text : String) :
    ∃ items : List (List UInt8 × String × υ), trie.withPrefix text = items.map (·.2) ∧
      items.Pairwise (fun first second => first.1 < second.1) ∧
      ∀ rest entry, (rest, entry) ∈ items ↔
        trie.entryAt (Text.bytes text ++ rest) = some entry := by
  cases hnode : trie.node? text with
  | none =>
    refine ⟨[], by simp [withPrefix, hnode], List.Pairwise.nil, fun rest entry => ?_⟩
    simp [entryAt_append_of_node?_eq_none hnode]
  | some node =>
    obtain ⟨entry, below⟩ := node
    obtain ⟨hentry, hbelow⟩ := entryAt_append_of_node? hnode
    have hordered : below.Ordered := ordered_of_node? h hnode
    refine ⟨entry.toList.map (fun e => ([], e)) ++ below.spelled, ?_, ?_, fun rest e => ?_⟩
    · simp [withPrefix, hnode, Forest.map_snd_spelled, Function.comp_def]
    · refine List.pairwise_append.mpr ⟨by cases entry <;> simp, Forest.spelled_sorted hordered, ?_⟩
      -- the entry of the node itself has the empty path, which comes before all others
      intro first hfirst second hsecond
      obtain ⟨e, -, rfl⟩ := List.mem_map.mp hfirst
      obtain ⟨b, path, hpath⟩ :=
        List.exists_cons_of_ne_nil (Forest.ne_nil_of_mem_spelled hsecond)
      simp [hpath]
    · cases rest with
      | nil =>
        have hnot : ([], e) ∉ below.spelled := fun hmem => Forest.ne_nil_of_mem_spelled hmem rfl
        simp [hnot, hentry]
      | cons b path =>
        rw [hbelow, ← Forest.mem_spelled hordered]
        simp

-- ════════════════════════════════════════════════════════════════════════
-- Refinement
-- ════════════════════════════════════════════════════════════════════════

/-- A tree holds what a map holds: siblings are in order, every entry stands at the path that spells its
key and has the value of the map, and the entries are counted. -/
structure Represents (trie : Trie υ) (map : Finmap fun _ : String => υ) : Prop where
  ordered : trie.below.Ordered
  entryAt_iff : ∀ path key value, trie.entryAt path = some (key, value) ↔
    path = Text.bytes key ∧ map.lookup key = some value
  size_eq : trie.size = map.keys.card

theorem Represents.empty : Represents (empty : Trie υ) ∅ where
  ordered := Forest.Ordered.nil
  entryAt_iff path key value := by
    cases path <;> simp [entryAt, Trie.empty, Finmap.lookup_empty]
  size_eq := rfl

theorem Represents.find? {trie : Trie υ} {map : Finmap fun _ : String => υ}
    (h : Represents trie map) (key : String) : trie.find? key = map.lookup key := by
  rw [find?_eq]
  cases hentry : trie.entryAt (Text.bytes key) with
  | none =>
    cases hlookup : map.lookup key with
    | none => rfl
    | some value =>
      rw [(h.entryAt_iff (Text.bytes key) key value).mpr ⟨rfl, hlookup⟩] at hentry
      cases hentry
  | some entry =>
    obtain ⟨hpath, hlookup⟩ := (h.entryAt_iff (Text.bytes key) entry.1 entry.2).mp hentry
    rw [Text.bytes_inj.mp hpath, hlookup]
    rfl

theorem insert_fst (trie : Trie υ) (key : String) (value : υ) :
    (trie.insert key value).1 = trie.find? key := by
  unfold insert
  cases Text.bytes key <;> rfl

theorem erase_fst (trie : Trie υ) (key : String) : (trie.erase key).1 = trie.find? key := by
  unfold erase
  cases Text.bytes key <;> rfl

theorem size_insert (trie : Trie υ) (key : String) (value : υ) :
    (trie.insert key value).2.size =
      if (trie.find? key).isSome then trie.size else trie.size + 1 := by
  unfold insert
  cases Text.bytes key <;> rfl

theorem size_erase (trie : Trie υ) (key : String) :
    (trie.erase key).2.size =
      if (trie.find? key).isSome then trie.size - 1 else trie.size := by
  unfold erase
  cases Text.bytes key <;> rfl

theorem keys_insert (map : Finmap fun _ : String => υ) (key : String) (value : υ) :
    (map.insert key value).keys = Insert.insert key map.keys := by
  ext key'
  simp [Finmap.mem_keys, Finmap.mem_insert]

theorem Represents.insert {trie : Trie υ} {map : Finmap fun _ : String => υ}
    (h : Represents trie map) (key : String) (value : υ) :
    Represents (trie.insert key value).2 (map.insert key value) where
  ordered := ordered_insert h.ordered key value
  entryAt_iff path key' value' := by
    rw [entryAt_insert h.ordered]
    by_cases hpath : path = Text.bytes key
    · subst hpath
      rw [if_pos rfl, Option.some.injEq, Prod.mk.injEq, Text.bytes_inj]
      constructor
      · rintro ⟨rfl, rfl⟩
        exact ⟨rfl, Finmap.lookup_insert map⟩
      · rintro ⟨rfl, hlookup⟩
        rw [Finmap.lookup_insert, Option.some.injEq] at hlookup
        exact ⟨rfl, hlookup⟩
    · rw [if_neg hpath, h.entryAt_iff]
      refine and_congr_right fun hpath' => ?_
      have hkey : key' ≠ key := fun hkey => hpath (hkey ▸ hpath')
      rw [Finmap.lookup_insert_of_ne map hkey]
  size_eq := by
    rw [size_insert, h.find?, keys_insert, h.size_eq]
    by_cases hkey : key ∈ map
    · rw [if_pos (Finmap.lookup_isSome.mpr hkey),
        Finset.card_insert_of_mem (Finmap.mem_keys.mpr hkey)]
    · rw [if_neg (mt Finmap.lookup_isSome.mp hkey),
        Finset.card_insert_of_notMem (mt Finmap.mem_keys.mp hkey)]

theorem Represents.erase {trie : Trie υ} {map : Finmap fun _ : String => υ}
    (h : Represents trie map) (key : String) :
    Represents (trie.erase key).2 (map.erase key) where
  ordered := ordered_erase h.ordered key
  entryAt_iff path key' value' := by
    rw [entryAt_erase h.ordered]
    by_cases hpath : path = Text.bytes key
    · subst hpath
      rw [if_pos rfl, Text.bytes_inj]
      constructor
      · intro hnone
        cases hnone
      · rintro ⟨rfl, hlookup⟩
        rw [Finmap.lookup_erase] at hlookup
        cases hlookup
    · rw [if_neg hpath, h.entryAt_iff]
      refine and_congr_right fun hpath' => ?_
      have hkey : key' ≠ key := fun hkey => hpath (hkey ▸ hpath')
      rw [Finmap.lookup_erase_ne hkey]
  size_eq := by
    rw [size_erase, h.find?, Finmap.keys_erase, h.size_eq]
    by_cases hkey : key ∈ map
    · rw [if_pos (Finmap.lookup_isSome.mpr hkey),
        Finset.card_erase_of_mem (Finmap.mem_keys.mpr hkey)]
    · rw [if_neg (mt Finmap.lookup_isSome.mp hkey),
        Finset.erase_eq_of_notMem (mt Finmap.mem_keys.mp hkey)]

/-- One change is answered by the tree as by the map, and keeps them together. -/
theorem Represents.edit {trie : Trie υ} {map : Finmap fun _ : String => υ}
    (h : Represents trie map) (change : Edit υ) :
    (trie.edit change).1 = (mapEdit map change).1 ∧
      Represents (trie.edit change).2 (mapEdit map change).2 := by
  cases change with
  | insert key value => exact ⟨(insert_fst trie key value).trans (h.find? key), h.insert key value⟩
  | erase key => exact ⟨(erase_fst trie key).trans (h.find? key), h.erase key⟩

/-- So does every sequence of changes. -/
theorem Represents.run {trie : Trie υ} {map : Finmap fun _ : String => υ}
    (h : Represents trie map) (changes : List (Edit υ)) :
    (trie.run changes).1 = (mapRun map changes).1 ∧
      Represents (trie.run changes).2 (mapRun map changes).2 := by
  induction changes generalizing trie map with
  | nil => exact ⟨rfl, h⟩
  | cons change changes ih =>
    obtain ⟨hanswer, hnext⟩ := h.edit change
    obtain ⟨hanswers, hlast⟩ := ih hnext
    refine ⟨?_, hlast⟩
    simp only [Trie.run, mapRun, hanswer, hanswers]

theorem Represents.isEmpty_iff {trie : Trie υ} {map : Finmap fun _ : String => υ}
    (h : Represents trie map) : trie.isEmpty ↔ map = ∅ := by
  rw [isEmpty, beq_iff_eq, h.size_eq, Finset.card_eq_zero]
  constructor
  · intro hkeys
    refine Finmap.ext_lookup fun key => ?_
    have hkey : key ∉ map := by
      rw [← Finmap.mem_keys, hkeys]
      simp
    rw [Finmap.lookup_eq_none.mpr hkey, Finmap.lookup_empty]
  · rintro rfl
    exact Finmap.keys_empty

/-- The listing by prefix holds the entries of the map whose keys start with the text. -/
theorem Represents.mem_withPrefix {trie : Trie υ} {map : Finmap fun _ : String => υ}
    (h : Represents trie map) (text key : String) (value : υ) :
    (key, value) ∈ trie.withPrefix text ↔
      map.lookup key = some value ∧ text.toList <+: key.toList := by
  obtain ⟨items, hitems, -, hmem⟩ := exists_spelled_withPrefix h.ordered text
  rw [hitems, ← Text.bytes_prefix_iff]
  constructor
  · intro hlisted
    obtain ⟨⟨rest, entry⟩, hitem, rfl⟩ := List.mem_map.mp hlisted
    obtain ⟨hpath, hlookup⟩ := (h.entryAt_iff _ _ _).mp ((hmem rest _).mp hitem)
    exact ⟨hlookup, rest, hpath⟩
  · rintro ⟨hlookup, rest, hpath⟩
    have hentry := (h.entryAt_iff _ key value).mpr ⟨hpath, hlookup⟩
    exact List.mem_map.mpr ⟨(rest, key, value), (hmem rest _).mpr hentry, rfl⟩

/-- The listing by prefix is in the byte order of the keys. -/
theorem Represents.withPrefix_sorted {trie : Trie υ} {map : Finmap fun _ : String => υ}
    (h : Represents trie map) (text : String) :
    (trie.withPrefix text).Pairwise fun first second =>
      Text.bytes first.1 < Text.bytes second.1 := by
  obtain ⟨items, hitems, hsorted, hmem⟩ := exists_spelled_withPrefix h.ordered text
  have hkey : ∀ item ∈ items, Text.bytes item.2.1 = Text.bytes text ++ item.1 := by
    intro item hitem
    exact ((h.entryAt_iff _ _ _).mp ((hmem item.1 item.2).mp hitem)).1.symm
  rw [hitems, List.pairwise_map]
  refine hsorted.imp_of_mem fun hfirst hsecond hlt => ?_
  rw [hkey _ hfirst, hkey _ hsecond]
  exact List.append_left_lt hlt

/-- **A prefix tree refines a finite map.** After every sequence of changes to the empty tree its answers
were those of the map, it counts the keys of the map, and the walk through the keys that start with a
text ends and gives the entries of the map with these keys, in strictly increasing byte order. -/
theorem run_refines_map (changes : List (Edit υ)) :
    let trie := ((empty : Trie υ).run changes).2
    let map := (mapRun (∅ : Finmap fun _ : String => υ) changes).2
    ((empty : Trie υ).run changes).1 = (mapRun (∅ : Finmap fun _ : String => υ) changes).1 ∧
      trie.size = map.keys.card ∧ (trie.isEmpty ↔ map = ∅) ∧
      ∀ text, (trie.walk text).Yields (trie.withPrefix text) ∧
        (trie.withPrefix text).Pairwise
          (fun first second => Text.bytes first.1 < Text.bytes second.1) ∧
        ∀ key value, (key, value) ∈ trie.withPrefix text ↔
          map.lookup key = some value ∧ text.toList <+: key.toList := by
  intro trie map
  obtain ⟨hanswers, h⟩ := Represents.empty.run changes
  refine ⟨hanswers, h.size_eq, h.isEmpty_iff, fun text => ⟨?_, h.withPrefix_sorted text,
    h.mem_withPrefix text⟩⟩
  rw [← remaining_walk]
  exact Forest.Walk.yields_remaining _

end CommandConsole.Trie
