import CommandConsole.Proofs.Completion.Acceptance
import CommandConsole.Proofs.Completion.Suggestions
import CommandConsole.Proofs.Text.Bytes

/-!
# All that is suggested

An input that is blank, or one bare word with nothing behind it, is completed to the names of the visible
commands that start with it. Every other input names its command. If that is a visible one, the values are
suggested that it offers for the argument at the end of the input and that start with what is there of it;
otherwise nothing is. Names and values come in byte order, and no line comes twice.

## Main definitions

- `Completion.BeginsName` — the inputs that a name is suggested for
- `Completion.Lists` — some lines list the values offered for an argument

## Main statements

- `Completion.target_of_beginsName`, `Completion.namesCommand_of_not_beginsName` — there are no other inputs
- `Completion.lists_values` — the values found for an argument, behind a part of the input
- `Completion.suggestions_exactly` — what is suggested for an input
-/

namespace CommandConsole.Completion

variable {κ : Type}

/-- The input is blank, or one bare word with nothing behind it; `begun` is that word. -/
def BeginsName (input begun : String) : Prop :=
  ((∀ c ∈ input.toList, Text.isBlank c = true) ∧ begun = "") ∨
    ∃ only, Token.scan input = [only] ∧ only.form = .bare ∧ only.stop = Text.width input.toList ∧
      begun = only.text

/-- The lines are those of the values that the command called `name` offers for its argument at `place` and
that start with `begun`, each written behind `head`, in strictly increasing byte order of the values. A command
that is hidden or does not exist has no lines. -/
structure Lists (registry : Registry κ) (name : String) (place : Nat) (begun head : String)
    (lines : List String) : Prop where
  visible : ∀ command, registry.find? name = some command → command.signature.hidden = false →
    ∃ values : List String, lines = values.map (fun value => head ++ Line.quote value) ∧
      values.Pairwise (fun first second => Text.bytes first < Text.bytes second) ∧
      ∀ value, value ∈ values ↔
        value ∈ command.signature.offersAt place ∧ begun.toList <+: value.toList
  other : (∀ command, registry.find? name = some command → command.signature.hidden = true) →
    lines = []

theorem target_of_beginsName {input begun : String} (h : BeginsName input begun) :
    target input = .name begun := by
  rcases h with ⟨hblank, rfl⟩ | ⟨only, hscan, hform, hstop, rfl⟩
  · have hscan : Token.scan input = [] := (Token.scanFrom_between_eq_nil_iff 0 _).mpr hblank
    simp [target, hscan]
  · simp [target, hscan, hform, hstop]

theorem namesCommand_of_not_beginsName {input : String} (h : ∀ begun, ¬BeginsName input begun) :
    NamesCommand input := by
  refine ⟨fun hscan => ?_, ?_⟩
  · have hblank : ∀ c ∈ input.toList, Text.isBlank c = true :=
      (Token.scanFrom_between_eq_nil_iff 0 _).mp hscan
    exact h "" (Or.inl ⟨hblank, rfl⟩)
  · rintro only hscan ⟨hform, hstop⟩
    exact h only.text (Or.inr ⟨only, hscan, hform, hstop, rfl⟩)

theorem values_sorted (registry : Registry κ) (name : String) (place : Nat) (begun : String) :
    (values registry name place begun).Pairwise
      fun first second => Text.bytes first < Text.bytes second := by
  unfold values
  split
  · exact List.Pairwise.nil
  · exact (Text.sortedDistinct_sorted _).imp Text.bytes_lt_iff.mpr

theorem mem_values {registry : Registry κ} {name : String} {command : Command κ}
    (h : registry.findVisible? name = some command) (place : Nat) (begun value : String) :
    value ∈ values registry name place begun ↔
      value ∈ command.signature.offersAt place ∧ begun.toList <+: value.toList := by
  simp [values, h]

/-- The values found for an argument, behind a part of the input. -/
theorem lists_values (registry : Registry κ) (name : String) (place : Nat) (begun head : String) :
    Lists registry name place begun head
      ((values registry name place begun).map fun value => head ++ Line.quote value) where
  visible command hfind hvisible := by
    have hfound : registry.findVisible? name = some command := by
      simp [Registry.findVisible?, hfind, Command.isVisible, hvisible]
    exact ⟨_, rfl, values_sorted registry name place begun, mem_values hfound place begun⟩
  other hhidden := by
    have hnone : registry.findVisible? name = none := by
      simpa [Registry.findVisible?, Option.filter_eq_none_iff, Command.isVisible] using hhidden
    simp [values, hnone]

theorem unfinished?_eq_some_iff_length {input : String} {last : Token} :
    unfinished? input = some last ↔ 2 ≤ (Token.scan input).length ∧
      (Token.scan input).getLast? = some last ∧ last.stop = Text.width input.toList := by
  rw [unfinished?_eq_some_iff, List.getLast?_eq_some_iff]
  constructor
  · rintro ⟨hstop, first, middle, hscan⟩
    exact ⟨by simp [hscan], ⟨first :: middle, by simp [hscan]⟩, hstop⟩
  · rintro ⟨hlength, ⟨before, hscan⟩, hstop⟩
    cases before with
    | nil => simp [hscan] at hlength
    | cons first middle => exact ⟨hstop, first, middle, by simp [hscan]⟩

/-- How many arguments are kept in front of the one that is completed. -/
theorem length_kept (input : String) :
    (kept input).length =
      if unfinished? input = none then (Token.scan input).length - 1
      else (Token.scan input).length - 2 := by
  have harguments : (Line.read input).arguments.length = (Token.scan input).length - 1 := by
    rw [Line.read]
    cases Token.scan input <;> simp [Line.ofTexts]
  unfold kept
  cases unfinished? input with
  | none => simp [harguments]
  | some last => simp [harguments, Nat.sub_sub]

theorem command_read_of_head? {input : String} {first : Token}
    (h : (Token.scan input).head? = some first) : (Line.read input).command = first.text := by
  obtain ⟨rest, hscan⟩ := List.head?_eq_some_iff.mp h
  rw [Line.read, hscan]
  rfl

/-- **What is suggested**: exactly the visible names that start with the begun one, or exactly the values that
are offered for the argument at the end of the input and start with what is there of it, behind the part of
the input in front of the argument. That is the last token if it is not the only one and the input ends with
it, and otherwise a new argument. Names and values are in strictly increasing byte order, and no line is
suggested twice. -/
theorem suggestions_exactly {registry : Registry κ} (hreach : registry.Reachable) (input : String) :
    let tokens := Token.scan input
    let width := Text.width input.toList
    let lines := suggestions registry input
    lines.Nodup ∧
    (∀ begun, BeginsName input begun →
      lines.Pairwise (fun first second => Text.bytes first < Text.bytes second) ∧
      ∀ name, name ∈ lines ↔ begun.toList <+: name.toList ∧
        ∃ command, registry.find? name = some command ∧ command.signature.hidden = false) ∧
    ((∀ begun, ¬BeginsName input begun) → ∃ first, tokens.head? = some first ∧
      (∀ last, 2 ≤ tokens.length → tokens.getLast? = some last → last.stop = width →
        ∃ head raw, input.toList = head.toList ++ raw ∧ Text.width head.toList = last.start ∧
          Lists registry first.text (tokens.length - 2) last.text head lines) ∧
      ((∀ last, 2 ≤ tokens.length → tokens.getLast? = some last → last.stop ≠ width) →
        Lists registry first.text (tokens.length - 1) "" input lines)) := by
  intro tokens width lines
  refine ⟨suggestions_nodup hreach.sound input, ?_, ?_⟩
  · intro begun hbegins
    have hlines : lines = registry.visibleWithPrefix begun := by
      simp only [lines, suggestions, target_of_beginsName hbegins]
    rw [hlines]
    refine ⟨hreach.sound.visibleWithPrefix_sorted begun, fun name => ?_⟩
    rw [hreach.sound.mem_visibleWithPrefix, and_comm, Option.isSome_iff_exists]
    simp [Registry.findVisible?, Option.filter_eq_some_iff, Command.isVisible]
  · intro hother
    have hnames := namesCommand_of_not_beginsName hother
    obtain ⟨first, rest, hscan⟩ := List.exists_cons_of_ne_nil hnames.1
    have hfirst : tokens.head? = some first := by simp [tokens, hscan]
    have hlists : Lists registry first.text (kept input).length (begun input) (head input) lines := by
      have hlines := lists_values registry (Line.read input).command (kept input).length
        (begun input) (head input)
      rw [command_read_of_head? hfirst] at hlines
      simpa only [lines, suggestions, target_eq hnames, command_read_of_head? hfirst] using hlines
    refine ⟨first, hfirst, ?_, ?_⟩
    · intro last hlength hlast hstop
      have hunfinished : unfinished? input = some last :=
        unfinished?_eq_some_iff_length.mpr ⟨hlength, hlast, hstop⟩
      obtain ⟨raw, hinput, hwritten, -⟩ := cut_unfinished hunfinished
      refine ⟨head input, raw, hinput, hwritten.start_eq.symm, ?_⟩
      simpa [length_kept, begun, hunfinished] using hlists
    · intro hnone
      have hunfinished : unfinished? input = none := by
        refine Option.eq_none_iff_forall_ne_some.mpr fun last hlast => ?_
        obtain ⟨hlength, hend, hstop⟩ := unfinished?_eq_some_iff_length.mp hlast
        exact hnone last hlength hend hstop
      simpa [length_kept, begun, head, hunfinished] using hlists

/-- The one command offers four values, one of them twice; two begin as the last token does. -/
theorem ogre_orc_suggested :
    let signature : Signature := { name := "spawn", arguments := ["kind"] }
    let registry := Registry.after
      [.register ⟨signature.offer 0 ["orc", "ogre", "orc", "iron golem"], ()⟩]
    registry.Reachable ∧ suggestions registry "spawn o" = ["spawn ogre", "spawn orc"] ∧
      ∃ head raw, "spawn o".toList = head.toList ++ raw ∧ Text.width head.toList = 6 ∧
        Lists registry "spawn" 0 "o" head ["spawn ogre", "spawn orc"] := by
  intro signature registry
  have hreach : registry.Reachable := ⟨_, rfl⟩
  have hscan : Token.scan "spawn o" = [⟨"spawn", 0, 5, .bare⟩, ⟨"o", 6, 7, .bare⟩] := by
    decide +kernel
  have hlines : suggestions registry "spawn o" = ["spawn ogre", "spawn orc"] := by decide +kernel
  have hother : ∀ begun, ¬BeginsName "spawn o" begun := by
    rintro begun (⟨hblank, -⟩ | ⟨only, honly, -⟩)
    · have hletter : Text.isBlank 's' = true := hblank 's' (by decide)
      revert hletter
      decide
    · simp [hscan] at honly
  obtain ⟨first, hfirst, hends, -⟩ := (suggestions_exactly hreach "spawn o").2.2 hother
  have hlast := hends ⟨"o", 6, 7, .bare⟩ (by simp [hscan]) (by simp [hscan]) (by decide +kernel)
  rw [hscan] at hfirst hlast
  cases hfirst
  exact ⟨hreach, hlines, hlines ▸ hlast⟩

end CommandConsole.Completion
