import CommandConsole.Host.Basic
import CommandConsole.Proofs.Console.Dispatch
import CommandConsole.Proofs.Line.Trimming

/-!
# Recalled lines

What is run is the line as it was submitted; what is echoed, recorded and later recalled is the line without
the blanks around it, and so is what waits after the line was typed at the terminal. Both say the same, except
if the line ends with blanks inside a quoted token that was not closed.

## Main statements

- `Host.typed_typeLine` — what waits after a line was typed
- `Host.replayed_iff` — which lines are replayed faithfully
-/

namespace CommandConsole.Host

variable {ω ε : Type}

theorem typed_typeLine (host : Host ω ε) {line : String}
    (hline : ∃ c ∈ line.toList, Text.isBlank c = false) :
    (host.typeLine line).typed = host.typed ++ [Text.trim line] := by
  have hsome : Text.trim line ≠ "" := by
    intro hempty
    obtain ⟨c, hc, hblank⟩ := hline
    rw [(Text.trim_eq_empty_iff line).mp hempty c hc] at hblank
    cases hblank
  simp [typeLine, hsome]

/-- **Which lines are replayed faithfully.** Without the blanks around it, a line says the same unless it ends
with a blank of a quoted token that was not closed. A line that names a command is echoed and recorded without
these blanks before anything else is done, so that this is what is recalled; and it is this that waits to be
run after the line was typed at the terminal, while a line that is submitted waits as it is. -/
theorem replayed_iff {line : String} (hline : ∃ c ∈ line.toList, Text.isBlank c = false) :
    (Line.read (Text.trim line) = Line.read line ↔ ¬Line.EndsInOpenBlank line) ∧
    (∀ (console : Console ω ε) (world : Option ω), (Line.read line).command ≠ "" →
      ∃ deeds, (console.dispatch line world).2 =
        (.push .plain ("> " ++ Text.trim line) :: .record (Text.trim line) :: deeds).foldl
          Console.perform (console, world)) ∧
    ∀ host : Host ω ε, (host.submit line).inputs = host.inputs ++ [line] ∧
      ∃ typed, (host.typeLine line).typed = host.typed ++ [typed] ∧
        (Line.read typed = Line.read line ↔ ¬Line.EndsInOpenBlank line) := by
  refine ⟨Line.read_trim_iff line, ?_, ?_⟩
  · intro console world hname
    obtain ⟨rest, -, hfinal⟩ := Console.dispatch_concluded console line world hname
    exact ⟨.forget :: rest, hfinal⟩
  · intro host
    exact ⟨rfl, Text.trim line, host.typed_typeLine hline, Line.read_trim_iff line⟩

/-- A line that ends in the middle of a quotation says less when it is recalled. -/
theorem not_replayed_quotation :
    (∃ c ∈ "say \"so ".toList, Text.isBlank c = false) ∧
      Line.read (Text.trim "say \"so ") ≠ Line.read "say \"so " := by
  have hline : ∃ c ∈ "say \"so ".toList, Text.isBlank c = false := ⟨'s', by decide, by decide⟩
  have hends : Line.EndsInOpenBlank "say \"so " :=
    ⟨⟨"so ", 4, 8, .quoted .double false⟩, by decide +kernel, rfl, ' ', by decide +kernel, by decide⟩
  obtain ⟨hsame, -⟩ := replayed_iff (ω := Unit) (ε := Unit) hline
  exact ⟨hline, fun hread => hsame.mp hread hends⟩

end CommandConsole.Host
