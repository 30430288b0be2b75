import CommandConsole.Text.Rows
import Mathlib.Data.List.DropRight

/-!
# Rows of texts

No line end is left in the rows of a text, so that they can be put together and cut apart again. A mark that is
put in front of a text stands in front of its first row, and leaves the other rows alone.

## Main definitions

- `Text.IsRow` — a text in which there is no line end

## Main statements

- `Text.splitRows_of_not_mem` — a text without line feeds is one row
- `Text.isRow_of_mem_rows`, `Text.rows_joinRows` — the rows of a text, and the text of rows
- `Text.exists_rows_append` — the rows of a text with a mark in front of it
-/

namespace CommandConsole.Text

theorem splitRows_ne_nil (cs : List Char) : splitRows cs ≠ [] := by
  cases cs with
  | nil => simp [splitRows]
  | cons c cs =>
    rw [splitRows]
    split
    · simp
    · split <;> simp

theorem splitRows_append {mark cs row : List Char} {rows : List (List Char)} (hmark : '\n' ∉ mark)
    (hrows : splitRows cs = row :: rows) : splitRows (mark ++ cs) = (mark ++ row) :: rows := by
  induction mark with
  | nil => exact hrows
  | cons c mark ih =>
    have hc : c ≠ '\n' := fun hc => hmark (hc ▸ List.mem_cons_self)
    have hrest : '\n' ∉ mark := fun hrest => hmark (List.mem_cons_of_mem c hrest)
    rw [List.cons_append, splitRows, if_neg hc, ih hrest]
    rfl

/-- A text without line feeds is one row. -/
theorem splitRows_of_not_mem {cs : List Char} (h : '\n' ∉ cs) : splitRows cs = [cs] := by
  have hrows : splitRows (cs ++ []) = [cs ++ []] := splitRows_append h rfl
  rwa [List.append_nil] at hrows

theorem splitRows_eq_splitOn (cs : List Char) : splitRows cs = cs.splitOn '\n' := by
  induction cs with
  | nil => rfl
  | cons c cs ih =>
    obtain ⟨first, others, hrows⟩ := List.exists_cons_of_ne_nil (splitRows_ne_nil cs)
    rw [List.splitOn_cons_eq_if_modifyHead, ← ih, splitRows, hrows]
    simp

theorem feed_notMem_of_mem_splitRows {cs row : List Char} (h : row ∈ splitRows cs) : '\n' ∉ row := by
  induction cs generalizing row with
  | nil =>
    rw [List.mem_singleton.mp h]
    exact List.not_mem_nil
  | cons c cs ih =>
    obtain ⟨first, others, hrows⟩ := List.exists_cons_of_ne_nil (splitRows_ne_nil cs)
    rw [splitRows, hrows] at h
    rw [hrows] at ih
    split at h
    · rcases List.mem_cons.mp h with rfl | hrow
      · exact List.not_mem_nil
      · exact ih hrow
    · rename_i hc
      rcases List.mem_cons.mp h with rfl | hrow
      · rw [List.mem_cons, not_or]
        exact ⟨Ne.symm hc, ih List.mem_cons_self⟩
      · exact ih (List.mem_cons_of_mem first hrow)

-- ════════════════════════════════════════════════════════════════════════
-- Line ends
-- ════════════════════════════════════════════════════════════════════════

/-- There is no line end in a text: it holds no line feed, and it does not end in a carriage return. -/
structure IsRow (text : String) : Prop where
  feed_notMem : '\n' ∉ text.toList
  getLast?_ne : text.toList.getLast? ≠ some '\r'

theorem getLast?_dropReturns_ne (row : List Char) : (dropReturns row).getLast? ≠ some '\r' := by
  intro hlast
  obtain ⟨hne, hreturn⟩ := List.mem_getLast?_eq_getLast hlast
  have hkept := List.rdropWhile_last_not (· = '\r') row hne
  exact hkept (decide_eq_true hreturn.symm)

/-- **No line end is left in the rows of a text.** -/
theorem isRow_of_mem_rows {text row : String} (h : row ∈ rows text) : IsRow row := by
  obtain ⟨cs, hcs, rfl⟩ := List.mem_map.mp h
  refine ⟨fun hfeed => ?_, ?_⟩
  · rw [String.toList_ofList] at hfeed
    have hstart : dropReturns cs <+: cs := List.rdropWhile_prefix (· = '\r') cs
    exact feed_notMem_of_mem_splitRows hcs (hstart.subset hfeed)
  · rw [String.toList_ofList]
    exact getLast?_dropReturns_ne cs

theorem dropReturns_append {mark : List Char} (hmark : mark.getLast? ≠ some '\r') (row : List Char) :
    dropReturns (mark ++ row) = mark ++ dropReturns row := by
  have hmark' : mark.reverse.dropWhile (· = '\r') = mark.reverse := by
    rw [List.getLast?_eq_head?_reverse] at hmark
    cases hreverse : mark.reverse with
    | nil => rfl
    | cons c rest =>
      rw [hreverse, List.head?_cons, ne_eq, Option.some.injEq] at hmark
      exact List.dropWhile_cons_of_neg (by simpa using hmark)
  unfold dropReturns
  rw [List.reverse_append, List.dropWhile_append, hmark']
  split
  · rename_i hempty
    rw [List.isEmpty_iff.mp hempty]
    simp
  · simp

theorem dropReturns_of_getLast?_ne {row : List Char} (h : row.getLast? ≠ some '\r') :
    dropReturns row = row := by
  refine List.rdropWhile_eq_self_iff.mpr fun hne => ?_
  rw [List.getLast?_eq_some_getLast hne, ne_eq, Option.some.injEq] at h
  simpa using h

section Joined

variable {texts : List String} (hrows : ∀ text ∈ texts, IsRow text) (hne : texts ≠ [])
include hrows hne

theorem splitOn_joinRows : (joinRows texts).toList.splitOn '\n' = texts.map String.toList := by
  rw [joinRows, String.toList_intercalate]
  refine List.splitOn_intercalate '\n' ?_ (by simpa using hne)
  intro cs hcs
  obtain ⟨text, htext, rfl⟩ := List.mem_map.mp hcs
  exact (hrows text htext).feed_notMem

/-- **Rows that are put together are the rows of the text that comes out.** -/
theorem rows_joinRows : rows (joinRows texts) = texts := by
  rw [rows, splitRows_eq_splitOn, splitOn_joinRows hrows hne, List.map_map]
  have hsame : ∀ text ∈ texts, String.ofList (dropReturns text.toList) = text := by
    intro text htext
    rw [dropReturns_of_getLast?_ne (hrows text htext).getLast?_ne, String.ofList_toList]
  exact (List.map_congr_left hsame).trans (List.map_id texts)

end Joined

-- ════════════════════════════════════════════════════════════════════════
-- Marks in front of a text
-- ════════════════════════════════════════════════════════════════════════

/-- **The rows of a text with a mark in front of it.** The mark stands in front of the first row, and if the
text is without line feeds, there are no others. -/
theorem exists_rows_append {mark : String} (hfeed : '\n' ∉ mark.toList)
    (hreturn : mark.toList.getLast? ≠ some '\r') (text : String) :
    ∃ first others, rows (mark ++ text) = (mark ++ first) :: others ∧ rows text = first :: others ∧
      ('\n' ∉ text.toList → others = []) := by
  obtain ⟨row, rest, hrows⟩ := List.exists_cons_of_ne_nil (splitRows_ne_nil text.toList)
  refine ⟨String.ofList (dropReturns row), rest.map fun row => String.ofList (dropReturns row),
    ?_, ?_, fun htext => ?_⟩
  · rw [rows, String.toList_append, splitRows_append hfeed hrows, List.map_cons,
      dropReturns_append hreturn, String.ofList_append, String.ofList_toList]
  · rw [rows, hrows, List.map_cons]
  · rw [splitRows_of_not_mem htext] at hrows
    cases hrows
    rfl

end CommandConsole.Text
