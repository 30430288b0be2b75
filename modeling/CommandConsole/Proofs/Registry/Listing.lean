import CommandConsole.Proofs.Registry.Stores

/-!
# What is listed

The commands that are not hidden, as a set. In registries whose stores agree, this set decides what is found
by name among the visible commands, and what is listed behind the beginning of a name: the order of
registration leaves no trace there, and hidden commands leave none at all.

## Main definitions

- `Registry.SameListing` — two registries have the same visible commands, apart from what is filed
- `Registry.signature?` — what is known of a command by its name

## Main statements

- `Registry.SameListing.findVisible?_eq` — the same visible commands are found by name
- `Registry.SameListing.visibleWithPrefix_eq` — the same names are listed by prefix
- `Registry.signatures_visible_map`, `Registry.visibleWithPrefix_map` — what is filed does not show in a listing
-/

namespace CommandConsole.Registry

variable {κ κ' : Type}

/-- The commands that are not hidden have the same signatures in both registries. It is left open in which
order they are listed, what is filed under them, and which other commands there are. -/
def SameListing (registry : Registry κ) (registry' : Registry κ') : Prop :=
  ∀ signature, signature ∈ registry.visible.map (·.signature) ↔
    signature ∈ registry'.visible.map (·.signature)

theorem Sound.mem_visible {registry : Registry κ} (h : registry.Sound) (command : Command κ) :
    command ∈ registry.visible ↔ registry.findVisible? command.name = some command := by
  simp only [visible, commands, List.mem_filter, List.mem_filterMap, findVisible?,
    Option.filter_eq_some_iff]
  refine and_congr_left fun _ => ⟨?_, fun hfind => ?_⟩
  · rintro ⟨name, -, hfind⟩
    rwa [(h.filed hfind).1]
  · exact ⟨command.name, (h.mem_order _).mpr (by simp [hfind]), hfind⟩

/-- The signature of a visible command is found under the name that it bears. -/
theorem Sound.signature_findVisible?_iff {registry : Registry κ} (h : registry.Sound) (name : String)
    (signature : Signature) :
    (registry.findVisible? name).map (·.signature) = some signature ↔
      signature ∈ registry.visible.map (·.signature) ∧ signature.name = name := by
  rw [Option.map_eq_some_iff, List.mem_map]
  constructor
  · rintro ⟨command, hfind, rfl⟩
    have hname : command.name = name := (h.filed (Option.filter_eq_some_iff.mp hfind).1).1
    exact ⟨⟨command, (h.mem_visible command).mpr (hname ▸ hfind), rfl⟩, hname⟩
  · rintro ⟨⟨command, hvisible, rfl⟩, rfl⟩
    exact ⟨command, (h.mem_visible command).mp hvisible, rfl⟩

section SameListing

variable {registry : Registry κ} {registry' : Registry κ'}

theorem SameListing.mem_visibleNames (hsame : registry.SameListing registry') (name : String) :
    name ∈ registry.visibleNames ↔ name ∈ registry'.visibleNames := by
  have hnames : ∀ {κ : Type} (registry : Registry κ),
      registry.visibleNames = (registry.visible.map (·.signature)).map (·.name) := by
    intro κ registry
    rw [List.map_map]
    rfl
  rw [hnames, hnames, List.mem_map, List.mem_map]
  exact exists_congr fun signature => and_congr_left fun _ => hsame signature

variable (hsound : registry.Sound) (hsound' : registry'.Sound)
include hsound hsound'

/-- The same visible commands are found by name, apart from what is filed under them. -/
theorem SameListing.findVisible?_eq (hsame : registry.SameListing registry') (name : String) :
    (registry.findVisible? name).map (·.signature) =
      (registry'.findVisible? name).map (·.signature) := by
  refine Option.ext fun signature => ?_
  rw [hsound.signature_findVisible?_iff, hsound'.signature_findVisible?_iff, hsame signature]

/-- The same names are listed behind the beginning of a name. -/
theorem SameListing.visibleWithPrefix_eq (hsame : registry.SameListing registry') (text : String) :
    registry.visibleWithPrefix text = registry'.visibleWithPrefix text := by
  refine Text.eq_of_sorted (hsound.visibleWithPrefix_sorted text)
    (hsound'.visibleWithPrefix_sorted text) fun name => ?_
  rw [hsound.mem_visibleWithPrefix, hsound'.mem_visibleWithPrefix, ← hsound.mem_visibleNames,
    ← hsound'.mem_visibleNames, hsame.mem_visibleNames]

end SameListing

-- ════════════════════════════════════════════════════════════════════════
-- Catalogues
-- ════════════════════════════════════════════════════════════════════════

/-- What is known of a command by its name, without what is filed under it. -/
def signature? (registry : Registry κ) (name : String) : Option Signature :=
  (registry.find? name).map (·.signature)

theorem findVisible?_signature (registry : Registry κ) (name : String) :
    (registry.findVisible? name).map (·.signature) = (registry.signature? name).filter (!·.hidden) := by
  unfold findVisible? signature?
  cases registry.find? name with
  | none => rfl
  | some command =>
    cases hhidden : command.signature.hidden <;> simp [Option.filter, Command.isVisible, hhidden]

section Map

variable (f : κ → κ') (registry : Registry κ)

theorem signature?_map (name : String) : (registry.map f).signature? name = registry.signature? name := by
  unfold signature?
  rw [find?_map, Option.map_map]
  rfl

theorem signatures_visible :
    registry.visible.map (·.signature) =
      (registry.order.filterMap registry.signature?).filter (!·.hidden) := by
  unfold visible commands signature?
  rw [← List.map_filterMap, List.filter_map]
  rfl

theorem signatures_visible_map :
    (registry.map f).visible.map (·.signature) = registry.visible.map (·.signature) := by
  rw [signatures_visible, signatures_visible]
  have hnames : (registry.map f).signature? = registry.signature? := funext (registry.signature?_map f)
  rw [hnames]
  rfl

theorem visibleWithPrefix_map (text : String) :
    (registry.map f).visibleWithPrefix text = registry.visibleWithPrefix text := by
  have hshown (name : String) : ((registry.map f).findVisible? name).isSome =
      (registry.findVisible? name).isSome := by
    rw [← Option.isSome_map (f := (·.signature)), findVisible?_signature, signature?_map,
      ← findVisible?_signature, Option.isSome_map]
  exact List.filter_congr fun name _ => hshown name

end Map

end CommandConsole.Registry
