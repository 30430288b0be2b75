import CommandConsole.Proofs.Dictionary
import CommandConsole.Proofs.Trie.Refinement
import CommandConsole.Registry

/-!
# The three stores of a registry

A registry keeps its names three times: in the prefix tree, as the keys of the table, and in the order of
registration. A change touches some of the stores only. Whatever is registered, removed and offered, the
three hold the same names, and every command is filed under its own name.

## Main definitions

- `Signature.Valid` — what a registration asks of a signature
- `Registry.Change`, `Registry.after` — changes as data, and the registry that a sequence of them leaves
- `Registry.Reachable` — the registries that changes to the empty one lead to
- `Registry.Sound` — the stores agree, and what is filed is valid

## Main statements

- `Registry.Sound.change` — one change keeps the stores together
- `Registry.Reachable.sound` — so does every sequence of changes
- `Registry.Sound.visibleWithPrefix_sorted`, `Registry.Sound.mem_visibleWithPrefix` — the look-up by prefix
  agrees with the table
-/

namespace CommandConsole

/-- What a registration asks of a signature. -/
structure Signature.Valid (signature : Signature) : Prop where
  name_ne_empty : signature.name ≠ ""
  not_blank : ∀ c ∈ signature.name.toList, Text.isBlank c = false
  required_le : signature.required ≤ signature.declared

/-- A signature is refused exactly if it is not valid. -/
theorem Signature.fault?_eq_none_iff (signature : Signature) :
    signature.fault? = none ↔ signature.Valid := by
  constructor
  · intro h
    unfold fault? at h
    split at h
    · cases h
    · rename_i hname
      split at h
      · cases h
      · rename_i hblank
        split at h
        · cases h
        · rename_i hrequired
          refine ⟨by simpa using hname, ?_, by omega⟩
          intro c hc
          simp only [List.any_eq_true, not_exists, not_and, Bool.not_eq_true] at hblank
          exact hblank c hc
  · intro h
    have hname : (signature.name == "") = false := by simpa using h.name_ne_empty
    have hblank : signature.name.toList.any Text.isBlank = false := by
      rw [List.any_eq_false]
      intro c hc
      simp [h.not_blank c hc]
    have hrequired : ¬signature.declared < signature.required := by
      have := h.required_le
      omega
    simp [fault?, hname, hblank, hrequired]

theorem Signature.Valid.offer {signature : Signature} (h : signature.Valid) (place : Nat)
    (values : List String) : (signature.offer place values).Valid :=
  ⟨h.name_ne_empty, h.not_blank, h.required_le⟩

/-- Offer `values` for the argument at `place` of a command. -/
def Command.offer {κ : Type} (command : Command κ) (place : Nat) (values : List String) : Command κ :=
  { command with signature := command.signature.offer place values }

namespace Registry

variable {κ : Type}

/-- A change to a registry. -/
inductive Change (κ : Type) where
  | register (command : Command κ)
  | remove (name : String)
  | offer (name : String) (place : Nat) (values : List String)

/-- Make a change, whatever it answers. -/
def change (registry : Registry κ) : Change κ → Registry κ
  | .register command => (registry.register command).2
  | .remove name => (registry.remove name).2
  | .offer name place values => (registry.offer name place values).2

/-- The registry that some changes to the empty one lead to. -/
def after (changes : List (Change κ)) : Registry κ := changes.foldl change empty

/-- Some changes to the empty registry lead to this one. -/
def Reachable (registry : Registry κ) : Prop := ∃ changes, after changes = registry

theorem after_concat (changes : List (Change κ)) (next : Change κ) :
    after (changes ++ [next]) = (after changes).change next := by
  simp [after]

-- ════════════════════════════════════════════════════════════════════════
-- What one change does
-- ════════════════════════════════════════════════════════════════════════

/-- File a command under a name that is there. The other two stores have the name already. -/
def refile (registry : Registry κ) (name : String) (command : Command κ) : Registry κ :=
  { registry with table := registry.table.insert name command }

/-- File a command under a new name, in all three stores. -/
def enter (registry : Registry κ) (name : String) (command : Command κ) : Registry κ :=
  { index := (registry.index.insert name ()).2
    table := registry.table.insert name command
    order := registry.order ++ [name] }

/-- Take a name out of all three stores. -/
def strike (registry : Registry κ) (name : String) : Registry κ :=
  { index := (registry.index.erase name).2
    table := registry.table.erase name
    order := registry.order.filter (· ≠ name) }

theorem find?_refile (registry : Registry κ) (name name' : String) (command : Command κ) :
    (registry.refile name command).find? name' =
      if name = name' then some command else registry.find? name' :=
  Dictionary.find?_insert registry.table name name' command

theorem find?_enter (registry : Registry κ) (name name' : String) (command : Command κ) :
    (registry.enter name command).find? name' =
      if name = name' then some command else registry.find? name' :=
  Dictionary.find?_insert registry.table name name' command

theorem find?_strike (registry : Registry κ) (name name' : String) :
    (registry.strike name).find? name' = if name = name' then none else registry.find? name' :=
  Dictionary.find?_erase registry.table name name'

/-- A command that is not valid is refused, and the registry stays as it is. -/
theorem register_of_not_valid (registry : Registry κ) {command : Command κ}
    (h : ¬command.signature.Valid) :
    ∃ fault, registry.register command = (.error fault, registry) := by
  cases hfault : command.signature.fault? with
  | none => exact absurd ((Signature.fault?_eq_none_iff _).mp hfault) h
  | some fault => exact ⟨fault, by simp [register, hfault]⟩

/-- A valid command is added if its name is new, and otherwise takes the place of the command of its
name. -/
theorem register_of_valid (registry : Registry κ) {command : Command κ}
    (h : command.signature.Valid) :
    registry.register command =
      if registry.find? command.name = none then (.ok .added, registry.enter command.name command)
      else (.ok .replaced, registry.refile command.name command) := by
  have hfault : command.signature.fault? = none := (Signature.fault?_eq_none_iff _).mpr h
  have hcontains : registry.contains command.name = (registry.find? command.name).isSome := rfl
  simp only [register, hfault, hcontains]
  cases registry.find? command.name <;> rfl

theorem remove_eq (registry : Registry κ) (name : String) :
    registry.remove name =
      if registry.find? name = none then (none, registry)
      else (registry.find? name, registry.strike name) := by
  unfold remove
  cases registry.find? name <;> rfl

theorem offer_eq (registry : Registry κ) (name : String) (place : Nat) (values : List String) :
    registry.offer name place values =
      match registry.find? name with
      | none => (.error (.unknown name), registry)
      | some command => (.ok (), registry.refile name (command.offer place values)) := by
  unfold offer
  cases registry.find? name <;> rfl

/-- **What a change can do**: nothing, file another command under a name that is there, file a command
under its new name, or take a name away. Whatever is filed anew is valid and bears its name. -/
theorem change_cases (registry : Registry κ) (next : Change κ) :
    registry.change next = registry ∨
    (∃ name command, registry.change next = registry.refile name command ∧
      (registry.find? name).isSome ∧
      ((command.name = name ∧ command.signature.Valid) ∨
        ∃ held place values, registry.find? name = some held ∧ command = held.offer place values)) ∨
    (∃ command, registry.change next = registry.enter command.name command ∧
      registry.find? command.name = none ∧ command.signature.Valid) ∨
    (∃ name, registry.change next = registry.strike name) := by
  cases next with
  | register command =>
    by_cases hvalid : command.signature.Valid
    · cases hfind : registry.find? command.name with
      | none =>
        refine Or.inr (Or.inr (Or.inl ⟨command, ?_, hfind, hvalid⟩))
        simp [change, register_of_valid registry hvalid, hfind]
      | some held =>
        refine Or.inr (Or.inl ⟨command.name, command, ?_, by simp [hfind], Or.inl ⟨rfl, hvalid⟩⟩)
        simp [change, register_of_valid registry hvalid, hfind]
    · obtain ⟨fault, hrefused⟩ := registry.register_of_not_valid hvalid
      exact Or.inl (congrArg Prod.snd hrefused)
  | remove name =>
    cases hfind : registry.find? name with
    | none => exact Or.inl (by simp [change, remove_eq, hfind])
    | some held => exact Or.inr (Or.inr (Or.inr ⟨name, by simp [change, remove_eq, hfind]⟩))
  | offer name place values =>
    cases hfind : registry.find? name with
    | none => exact Or.inl (by simp [change, offer_eq, hfind])
    | some held =>
      refine Or.inr (Or.inl ⟨name, held.offer place values, ?_, by simp [hfind],
        Or.inr ⟨held, place, values, hfind, rfl⟩⟩)
      simp [change, offer_eq, hfind]

-- ════════════════════════════════════════════════════════════════════════
-- The stores agree
-- ════════════════════════════════════════════════════════════════════════

/-- The three stores hold the same names, each one once, and every command is valid and filed under its
own name. -/
structure Sound (registry : Registry κ) : Prop where
  order_nodup : registry.order.Nodup
  mem_order : ∀ name, name ∈ registry.order ↔ (registry.find? name).isSome
  indexed : ∃ map, registry.index.Represents map ∧ ∀ name, name ∈ map ↔ name ∈ registry.order
  table_sorted : registry.table.Sorted
  filed : ∀ {name command}, registry.find? name = some command →
    command.name = name ∧ command.signature.Valid

theorem Sound.empty : (empty : Registry κ).Sound where
  order_nodup := List.nodup_nil
  mem_order name := by simp [Registry.empty, Registry.find?]
  indexed := ⟨∅, Trie.Represents.empty, fun name =>
    iff_of_false Finmap.notMem_empty List.not_mem_nil⟩
  table_sorted := Dictionary.Sorted.empty
  filed h := by cases h

theorem Sound.refile {registry : Registry κ} (h : registry.Sound) {name : String}
    {command : Command κ} (hthere : (registry.find? name).isSome) (hname : command.name = name)
    (hvalid : command.signature.Valid) : (registry.refile name command).Sound where
  order_nodup := h.order_nodup
  mem_order name' := by
    have hmem : name' ∈ (registry.refile name command).order ↔ name' ∈ registry.order := Iff.rfl
    rw [hmem, find?_refile, h.mem_order]
    split
    · rename_i heq
      simpa [← heq] using hthere
    · exact Iff.rfl
  indexed := h.indexed
  table_sorted := h.table_sorted.insert name command
  filed := by
    intro name' command' hfind
    rw [find?_refile] at hfind
    split at hfind
    · rename_i heq
      cases hfind
      exact ⟨hname.trans heq, hvalid⟩
    · exact h.filed hfind

theorem Sound.enter {registry : Registry κ} (h : registry.Sound) {command : Command κ}
    (hnew : registry.find? command.name = none) (hvalid : command.signature.Valid) :
    (registry.enter command.name command).Sound where
  order_nodup := by
    have hnot : command.name ∉ registry.order := by simp [h.mem_order, hnew]
    exact List.nodup_append.mpr ⟨h.order_nodup, by simp, by
      intro name hname other hother
      rw [List.mem_singleton.mp hother]
      rintro rfl
      exact hnot hname⟩
  mem_order name := by
    have hmem : name ∈ (registry.enter command.name command).order ↔
        name ∈ registry.order ∨ name = command.name := by simp [Registry.enter]
    rw [hmem, find?_enter, h.mem_order]
    by_cases heq : command.name = name
    · simp [heq]
    · simp [heq, Ne.symm heq]
  indexed := by
    obtain ⟨map, hmap, hmem⟩ := h.indexed
    refine ⟨map.insert command.name (), hmap.insert command.name (), fun name => ?_⟩
    simp [Finmap.mem_insert, Registry.enter, hmem, or_comm]
  table_sorted := h.table_sorted.insert command.name command
  filed := by
    intro name command' hfind
    rw [find?_enter] at hfind
    split at hfind
    · rename_i heq
      cases hfind
      exact ⟨heq, hvalid⟩
    · exact h.filed hfind

theorem Sound.strike {registry : Registry κ} (h : registry.Sound) (name : String) :
    (registry.strike name).Sound where
  order_nodup := h.order_nodup.filter _
  mem_order name' := by
    have hmem : name' ∈ (registry.strike name).order ↔ name' ∈ registry.order ∧ name' ≠ name := by
      simp [Registry.strike]
    rw [hmem, find?_strike, h.mem_order]
    by_cases heq : name = name'
    · simp [heq]
    · simp [heq, Ne.symm heq]
  indexed := by
    obtain ⟨map, hmap, hmem⟩ := h.indexed
    refine ⟨map.erase name, hmap.erase name, fun name' => ?_⟩
    simp [Finmap.mem_erase, Registry.strike, hmem, and_comm]
  table_sorted := h.table_sorted.erase name
  filed := by
    intro name' command hfind
    rw [find?_strike] at hfind
    split at hfind
    · cases hfind
    · exact h.filed hfind

/-- One change keeps the stores together. -/
theorem Sound.change {registry : Registry κ} (h : registry.Sound) (next : Change κ) :
    (registry.change next).Sound := by
  rcases registry.change_cases next with hsame | ⟨name, command, hrefile, hthere, hfiled⟩ |
    ⟨command, henter, hnew, hvalid⟩ | ⟨name, hstrike⟩
  · rwa [hsame]
  · rw [hrefile]
    rcases hfiled with ⟨hname, hvalid⟩ | ⟨held, place, values, hheld, rfl⟩
    · exact h.refile hthere hname hvalid
    · obtain ⟨hname, hvalid⟩ := h.filed hheld
      exact h.refile hthere hname (hvalid.offer place values)
  · rw [henter]
    exact h.enter hnew hvalid
  · rw [hstrike]
    exact h.strike name

theorem sound_after (changes : List (Change κ)) : (after changes).Sound := by
  induction changes using List.reverseRecOn with
  | nil => exact Sound.empty
  | append_singleton changes next ih =>
    rw [after_concat]
    exact ih.change next

/-- In every registry that can be reached the stores agree. -/
theorem Reachable.sound {registry : Registry κ} (h : registry.Reachable) : registry.Sound := by
  obtain ⟨changes, rfl⟩ := h
  exact sound_after changes

-- ════════════════════════════════════════════════════════════════════════
-- What the stores list
-- ════════════════════════════════════════════════════════════════════════

theorem Sound.mem_keysWithPrefix {registry : Registry κ} (h : registry.Sound) (text name : String) :
    name ∈ registry.index.keysWithPrefix text ↔
      name ∈ registry.order ∧ text.toList <+: name.toList := by
  obtain ⟨map, hmap, hmem⟩ := h.indexed
  rw [Trie.keysWithPrefix, List.mem_map, ← hmem, Finmap.mem_iff]
  constructor
  · rintro ⟨⟨name, value⟩, hlisted, rfl⟩
    obtain ⟨hlookup, hprefix⟩ := (hmap.mem_withPrefix text name value).mp hlisted
    exact ⟨⟨value, hlookup⟩, hprefix⟩
  · rintro ⟨⟨value, hlookup⟩, hprefix⟩
    exact ⟨(name, value), (hmap.mem_withPrefix text name value).mpr ⟨hlookup, hprefix⟩, rfl⟩

theorem Sound.keysWithPrefix_sorted {registry : Registry κ} (h : registry.Sound) (text : String) :
    (registry.index.keysWithPrefix text).Pairwise
      fun first second => Text.bytes first < Text.bytes second := by
  obtain ⟨map, hmap, -⟩ := h.indexed
  exact List.pairwise_map.mpr (hmap.withPrefix_sorted text)

theorem Sound.mem_visibleNames {registry : Registry κ} (h : registry.Sound) (name : String) :
    name ∈ registry.visibleNames ↔ (registry.findVisible? name).isSome := by
  simp only [visibleNames, visible, commands, List.mem_map, List.mem_filter, List.mem_filterMap]
  constructor
  · rintro ⟨command, ⟨⟨other, -, hfind⟩, hvisible⟩, rfl⟩
    have hother : command.name = other := (h.filed hfind).1
    simp [findVisible?, hother, hfind, hvisible]
  · intro hsome
    obtain ⟨command, hcommand⟩ := Option.isSome_iff_exists.mp hsome
    obtain ⟨hfind, hvisible⟩ := Option.filter_eq_some_iff.mp hcommand
    have horder : name ∈ registry.order := (h.mem_order name).mpr (by simp [hfind])
    exact ⟨command, ⟨⟨name, horder, hfind⟩, hvisible⟩, (h.filed hfind).1⟩

theorem Sound.visibleWithPrefix_sorted {registry : Registry κ} (h : registry.Sound) (text : String) :
    (registry.visibleWithPrefix text).Pairwise
      fun first second => Text.bytes first < Text.bytes second :=
  List.Pairwise.sublist List.filter_sublist (h.keysWithPrefix_sorted text)

theorem Sound.mem_visibleWithPrefix {registry : Registry κ} (h : registry.Sound)
    (text name : String) :
    name ∈ registry.visibleWithPrefix text ↔
      (registry.findVisible? name).isSome ∧ text.toList <+: name.toList := by
  rw [visibleWithPrefix, List.mem_filter, h.mem_keysWithPrefix, h.mem_order]
  constructor
  · rintro ⟨⟨-, hprefix⟩, hvisible⟩
    exact ⟨hvisible, hprefix⟩
  · rintro ⟨hvisible, hprefix⟩
    obtain ⟨command, hcommand⟩ := Option.isSome_iff_exists.mp hvisible
    have hfind := (Option.filter_eq_some_iff.mp hcommand).1
    exact ⟨⟨by simp [hfind], hprefix⟩, hvisible⟩

end Registry

end CommandConsole
