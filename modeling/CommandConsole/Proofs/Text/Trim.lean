import CommandConsole.Text.Blank
import Mathlib.Data.List.DropRight

/-!
# Trimmed texts

A text is its trimmed text between two rows of blanks, and the trimmed text does not end in a blank.

## Main statements

- `Text.exists_trim` — what is around a trimmed text
- `Text.trim_eq_empty_iff` — of which texts nothing is left
-/

namespace CommandConsole.Text

theorem toList_trim (s : String) : (trim s).toList = (s.toList.dropWhile isBlank).rdropWhile isBlank :=
  String.toList_ofList

/-- A text is its trimmed text between two rows of blanks. -/
theorem exists_trim (s : String) : ∃ leading trailing,
    s.toList = leading ++ ((trim s).toList ++ trailing) ∧
      (∀ c ∈ leading, isBlank c = true) ∧ ∀ c ∈ trailing, isBlank c = true := by
  refine ⟨s.toList.takeWhile isBlank, (s.toList.dropWhile isBlank).rtakeWhile isBlank, ?_,
    fun c => List.mem_takeWhile_imp, fun c => List.mem_rtakeWhile_imp⟩
  rw [toList_trim, List.rdropWhile_append_rtakeWhile, List.takeWhile_append_dropWhile]

theorem isBlank_getLast?_trim (s : String) : ∀ c ∈ (trim s).toList.getLast?, isBlank c = false := by
  intro c hc
  rw [toList_trim] at hc
  have hne : (s.toList.dropWhile isBlank).rdropWhile isBlank ≠ [] := by
    intro hnil
    simp [hnil] at hc
  have hlast := List.rdropWhile_last_not isBlank _ hne
  rw [Option.mem_def, List.getLast?_eq_some_getLast hne, Option.some.injEq] at hc
  rw [← hc]
  simpa using hlast

/-- Behind characters that do not end in a blank, blanks are told by the last character. -/
theorem exists_blank_getLast?_append_iff {cs trailing : List Char}
    (hcs : ∀ c ∈ cs.getLast?, isBlank c = false) (htrailing : ∀ c ∈ trailing, isBlank c = true) :
    (∃ c ∈ (cs ++ trailing).getLast?, isBlank c = true) ↔ trailing ≠ [] := by
  constructor
  · rintro ⟨c, hc, hblank⟩ rfl
    rw [List.append_nil] at hc
    rw [hcs c hc] at hblank
    cases hblank
  · intro hne
    exact ⟨trailing.getLast hne, by simp [List.getLast?_append, List.getLast?_eq_some_getLast hne],
      htrailing _ (List.getLast_mem hne)⟩

/-- Nothing is left exactly of the blank texts. -/
theorem trim_eq_empty_iff (s : String) : trim s = "" ↔ ∀ c ∈ s.toList, isBlank c = true := by
  obtain ⟨leading, trailing, hs, hleading, htrailing⟩ := exists_trim s
  constructor
  · intro hempty c hc
    rw [hs, hempty] at hc
    rcases List.mem_append.mp hc with hc | hc
    · exact hleading c hc
    · exact htrailing c (by simpa using hc)
  · intro hblank
    rw [← String.toList_eq_nil_iff, toList_trim, List.rdropWhile_eq_nil_iff]
    exact fun c hc => hblank c ((List.dropWhile_suffix isBlank).subset hc)

end CommandConsole.Text
