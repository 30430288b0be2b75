import CommandConsole.Text.Sorted

/-!
# Order of sorted lists of texts

## Main statements

- `Text.sortedDistinct_sorted` — the texts of a list are put in strictly increasing order
-/

namespace CommandConsole.Text

/-- A text is put in front of the first larger one. -/
theorem addInOrder_sorted (text : String) {texts : List String} (h : texts.Pairwise (· < ·)) :
    (addInOrder text texts).Pairwise (· < ·) := by
  induction texts with
  | nil => exact List.pairwise_singleton _ text
  | cons first rest ih =>
    obtain ⟨hfirst, hrest⟩ := List.pairwise_cons.mp h
    rw [addInOrder]
    split
    · rename_i hlt
      refine List.pairwise_cons.mpr ⟨?_, h⟩
      intro other hother
      rcases List.mem_cons.mp hother with rfl | hother
      · exact hlt
      · exact String.lt_trans hlt (hfirst other hother)
    · split
      · exact h
      · rename_i hnot hne
        have hgt : first < text := by
          rcases Std.lt_trichotomy first text with hgt | heq | hlt
          · exact hgt
          · exact absurd heq.symm hne
          · exact absurd hlt hnot
        refine List.pairwise_cons.mpr ⟨?_, ih hrest⟩
        intro other hother
        rcases mem_addInOrder.mp hother with rfl | hother
        · exact hgt
        · exact hfirst other hother

/-- Every text of a list stands once in its sorted list, in order. -/
theorem sortedDistinct_sorted (texts : List String) :
    (sortedDistinct texts).Pairwise (· < ·) := by
  induction texts with
  | nil => exact List.Pairwise.nil
  | cons first rest ih => exact addInOrder_sorted first ih

theorem sortedDistinct_nodup (texts : List String) : (sortedDistinct texts).Nodup := by
  refine List.Pairwise.imp ?_ (sortedDistinct_sorted texts)
  rintro first second hlt rfl
  exact String.lt_irrefl first hlt

end CommandConsole.Text
