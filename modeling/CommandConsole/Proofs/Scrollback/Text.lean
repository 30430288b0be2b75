import CommandConsole.Proofs.Scrollback.Log
import CommandConsole.Proofs.Text.Rows

/-!
# The text of a scrollback

Only rows without line ends get into a scrollback. So a text of all its rows shows where each of them ends: it can
be cut into the rows again, and another scrollback that the text is pushed into keeps the same rows.

## Main statements

- `Scrollback.isRow_of_mem_log`, `Scrollback.isRow_after` — there is no line end in the rows
- `Scrollback.texts_push` — what a scrollback keeps of a text that is the first to be pushed
- `Scrollback.text_keeps_rows` — the text of a scrollback loses no end of a row
-/

namespace CommandConsole.Scrollback

/-- The texts of the rows that are kept. -/
def texts (scrollback : Scrollback) : List String := scrollback.rows.map (·.text)

theorem map_text_numbered (style : Style) (first : Nat) (texts : List String) :
    (numbered style first texts).map (·.text) = texts := by
  induction texts generalizing first with
  | nil => rfl
  | cons text texts ih => rw [numbered, List.map_cons, ih]

theorem isRow_of_mem_pushed {first : Nat} {next : Edit} {row : Row} (h : row ∈ next.pushed first) :
    Text.IsRow row.text := by
  cases next with
  | push style text =>
    have htext : row.text ∈ (numbered style first (Text.rows text)).map (·.text) :=
      List.mem_map_of_mem h
    rw [map_text_numbered] at htext
    exact Text.isRow_of_mem_rows htext
  | clear | limit | autoScroll | scrollToBottom | takeScroll => cases h

/-- No row with a line end is ever pushed. -/
theorem isRow_of_mem_log {first : Nat} {edits : List Edit} {row : Row} (h : row ∈ log first edits) :
    Text.IsRow row.text := by
  induction edits generalizing first with
  | nil => cases h
  | cons next edits ih =>
    rcases List.mem_append.mp h with hpushed | hlater
    · exact isRow_of_mem_pushed hpushed
    · exact ih hlater

/-- **There is no line end in the rows that are kept.** -/
theorem isRow_after (maxRows : Nat) (edits : List Edit) :
    ∀ text ∈ ((new maxRows).after edits).texts, Text.IsRow text := by
  intro text htext
  obtain ⟨row, hrow, rfl⟩ := List.mem_map.mp htext
  exact isRow_of_mem_log ((follows_after maxRows edits).suffix.subset hrow)

/-- A scrollback without rows and without a limit keeps the rows of a text that is pushed. -/
theorem texts_push {scrollback : Scrollback} (hrows : scrollback.rows = []) (hlimit : scrollback.maxRows = 0)
    (style : Style) (text : String) : (scrollback.push style text).texts = Text.rows text := by
  have hkept : (scrollback.push style text).rows = numbered style scrollback.nextSeq (Text.rows text) := by
    simp [push, newest, hrows, hlimit]
  rw [texts, hkept, map_text_numbered]

/-- **The text of a scrollback loses no end of a row.** After every sequence of edits the rows that are kept hold
no line feed and do not end in a carriage return. If there are any, the text of the scrollback gives back their
texts in order when it is cut at its line feeds, and every scrollback without rows and without a limit that it is
pushed into keeps just these texts, in whatever style. -/
theorem text_keeps_rows (maxRows : Nat) (edits : List Edit) :
    let scrollback := (new maxRows).after edits
    (∀ row ∈ scrollback.rows, '\n' ∉ row.text.toList ∧ row.text.toList.getLast? ≠ some '\r') ∧
      (scrollback.rows ≠ [] →
        (scrollback.text.toList.splitOn '\n').map String.ofList = scrollback.rows.map (·.text) ∧
          ∀ (other : Scrollback) (style : Style), other.rows = [] → other.maxRows = 0 →
            (other.push style scrollback.text).rows.map (·.text) = scrollback.rows.map (·.text)) := by
  intro scrollback
  have hrows : ∀ text ∈ scrollback.texts, Text.IsRow text := isRow_after maxRows edits
  refine ⟨fun row hrow => ?_, fun hne => ?_⟩
  · obtain ⟨hfeed, hreturn⟩ := hrows row.text (List.mem_map_of_mem hrow)
    exact ⟨hfeed, hreturn⟩
  · have hne : scrollback.texts ≠ [] := by simpa [texts] using hne
    refine ⟨?_, fun other style hother hlimit => ?_⟩
    · have hcut : scrollback.text.toList.splitOn '\n' = scrollback.texts.map String.toList :=
        Text.splitOn_joinRows hrows hne
      simp [hcut, texts]
    · exact (texts_push hother hlimit style scrollback.text).trans (Text.rows_joinRows hrows hne)

end CommandConsole.Scrollback
