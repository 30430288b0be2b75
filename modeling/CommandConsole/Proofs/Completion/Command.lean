import CommandConsole.Proofs.Completion.Acceptance
import CommandConsole.Proofs.Registry.Stores

/-!
# The command of a completed line

A suggestion for an argument is put behind a part of the input that names the command already. The command
stays the same as long as that part is not just a quoted name that is still open: there the value gets
between the marks and becomes part of the name.

## Main statements

- `Completion.command_completed_open` — the command of a line that goes on behind an open name
- `Completion.command_read_suggestion_iff` — exactly which suggestions keep the command of the input
-/

namespace CommandConsole.Completion

variable {κ : Type}

/-- Behind a line at whose end no token is open, the command stays what it is. -/
theorem command_read_append {line : String} (hne : Token.scan line ≠ [])
    (hends : Token.EndsBetween (Text.width line.toList) (Token.scan line)) (rest : String) :
    (Line.read (line ++ rest)).command = (Line.read line).command := by
  obtain ⟨first, tokens, hscan⟩ := List.exists_cons_of_ne_nil hne
  obtain ⟨others, hothers⟩ := Token.exists_scan_append hends rest
  rw [Line.read, Line.read, hothers, hscan]
  rfl

/-- What is put behind an open name, up to its mark, becomes part of the name. -/
theorem command_completed_open {input : String} {only : Token} {mark : Mark}
    (hscan : Token.scan input = [only]) (hopen : only.form = .quoted mark false) (rest : String) :
    (Line.read (input ++ rest)).command =
      (Line.read input).command ++ String.ofList (rest.toList.takeWhile (· != mark.char)) := by
  have hreading := Token.reading_scan input
  rw [hscan, ← List.nil_append [only]] at hreading
  obtain ⟨longer, others, hlonger, htext⟩ := hreading.absorb hopen rest.toList
  have hscan' : Token.scan (input ++ rest) = longer :: others := by
    rw [Token.scan, String.toList_append, hlonger.scanFrom_eq, List.nil_append]
  rw [Line.read, Line.read, hscan', hscan]
  exact htext

theorem head_of_scan_eq_singleton {input : String} {only : Token}
    (hscan : Token.scan input = [only]) : head input = input := by
  have hnone : unfinished? input = none := by simp [unfinished?, hscan]
  simp only [head, hnone]

/-- If the input is not just an open name, every suggestion keeps its command. -/
theorem command_completed_closed {input : String} (hnames : NamesCommand input)
    (hclosed : ∀ only, Token.scan input = [only] → only.isTerminated = true) (rest : String) :
    (Line.read (head input ++ rest)).command = (Line.read input).command := by
  obtain ⟨hends, htexts⟩ := scan_head hnames hclosed
  have hne : Token.scan (head input) ≠ [] := by
    intro hnil
    rw [hnil] at htexts
    cases htexts
  rw [command_read_append hne hends, Line.read, htexts]
  rfl

theorem toList_quote_ne_nil (value : String) : (Line.quote value).toList ≠ [] := by
  rw [Line.quote, String.toList_ofList]
  intro hnil
  cases hquotes : Line.needsQuotes value.toList with
  | true => simp [Line.quoteChars, hquotes] at hnil
  | false =>
    have hbare := Line.needsQuotes_eq_false_iff.mp hquotes
    simp only [Line.quoteChars, hquotes, Bool.false_eq_true, if_false] at hnil
    exact hbare.ne_nil hnil

/-- Nothing of a written value gets into an open name exactly if it begins with the mark of the name. -/
theorem takeWhile_quote_eq_nil_iff (value : String) (mark : Mark) :
    (Line.quote value).toList.takeWhile (· != mark.char) = [] ↔
      ∃ rest, (Line.quote value).toList = mark.char :: rest := by
  obtain ⟨c, cs, hquote⟩ := List.exists_cons_of_ne_nil (toList_quote_ne_nil value)
  rw [hquote, List.takeWhile_eq_nil_iff]
  simp

/-- **Which suggestions keep the command.** Let the input name its command. The line of a suggestion runs the
command of the input, except if the input is nothing but a quoted name that is still open: then it does so
exactly if what is put behind the name begins with the mark and so closes it. -/
theorem command_read_suggestion_iff (registry : Registry κ) {input : String}
    (hnames : NamesCommand input) {line : String} (hline : line ∈ suggestions registry input) :
    (Line.read line).command = (Line.read input).command ↔
      ∀ only mark, Token.scan input = [only] → only.form = .quoted mark false →
        ∃ rest, line.toList = input.toList ++ mark.char :: rest := by
  rw [suggestions, target_eq hnames] at hline
  obtain ⟨value, -, rfl⟩ := List.mem_map.mp hline
  by_cases hclosed : ∀ only, Token.scan input = [only] → only.isTerminated = true
  · refine iff_of_true (command_completed_closed hnames hclosed _) ?_
    intro only mark hscan hopen
    have hterminated := hclosed only hscan
    rw [Token.isTerminated, hopen] at hterminated
    cases hterminated
  · push Not at hclosed
    obtain ⟨only, hscan, hopen⟩ := hclosed
    obtain ⟨mark, hform⟩ := Token.exists_mark_of_open (by simpa using hopen)
    rw [head_of_scan_eq_singleton hscan, command_completed_open hscan hform, String.append_eq_left_iff,
      String.ofList_eq_empty_iff, takeWhile_quote_eq_nil_iff]
    constructor
    · rintro ⟨rest, hrest⟩ only' mark' hscan' hform'
      cases hscan.symm.trans hscan'
      cases hform.symm.trans hform'
      exact ⟨rest, by rw [String.toList_append, hrest]⟩
    · intro hall
      obtain ⟨rest, hrest⟩ := hall only mark hscan hform
      rw [String.toList_append] at hrest
      exact ⟨rest, List.append_cancel_left hrest⟩

/-- A value with a blank comes with a mark of its own, which closes the name. -/
theorem command_kept_iron_golem :
    let signature : Signature := { name := "spawn" }
    let registry := (Registry.empty.register ⟨signature.offer 0 ["iron golem"], ()⟩).2
    suggestions registry "\"spawn" = ["\"spawn\"iron golem\""] ∧
      (Line.read "\"spawn\"iron golem\"").command = (Line.read "\"spawn").command := by
  intro signature registry
  have hscan : Token.scan "\"spawn" = [⟨"spawn", 0, 6, .quoted .double false⟩] := by decide +kernel
  have hnames : NamesCommand "\"spawn" := by simp [NamesCommand, hscan]
  have hsuggested : suggestions registry "\"spawn" = ["\"spawn\"iron golem\""] := by decide +kernel
  refine ⟨hsuggested, (command_read_suggestion_iff registry hnames (by simp [hsuggested])).mpr ?_⟩
  intro only mark honly hform
  cases hscan.symm.trans honly
  cases hform
  exact ⟨"iron golem\"".toList, by decide +kernel⟩

/-- A value without marks becomes part of the open name: the suggestion for spawning an orc runs a command
that does not exist. -/
theorem command_lost_orc : ∃ registry : Registry Unit, registry.Reachable ∧
    NamesCommand "\"spawn" ∧ (Line.read "\"spawn").command = "spawn" ∧
    suggestions registry "\"spawn" = ["\"spawnorc"] ∧
    (Line.read "\"spawnorc").command = "spawnorc" ∧ registry.find? "spawnorc" = none := by
  let signature : Signature := { name := "spawn", arguments := ["kind"] }
  let changes : List (Registry.Change Unit) := [.register ⟨signature.offer 0 ["orc"], ()⟩]
  have hscan : Token.scan "\"spawn" = [⟨"spawn", 0, 6, .quoted .double false⟩] := by decide +kernel
  refine ⟨Registry.after changes, ⟨changes, rfl⟩, by simp [NamesCommand, hscan], ?_, ?_, ?_, ?_⟩
  · decide +kernel
  · decide +kernel
  · decide +kernel
  · exact Option.isNone_iff_eq_none.mp (by decide +kernel)

end CommandConsole.Completion
