import CommandConsole.Completion.Suggestions
import CommandConsole.Proofs.Line.RoundTrip
import CommandConsole.Proofs.Registry.Stores
import CommandConsole.Proofs.Text.Sorted

/-!
# What is suggested

The lines that an input may be completed to are all different: names are listed once each, a value that is
offered twice is suggested once, and different values are written differently.

## Main statements

- `Completion.suggestions_nodup` — no line is suggested twice
-/

namespace CommandConsole.Completion

variable {κ : Type}

theorem values_nodup (registry : Registry κ) (command : String) (place : Nat) (typed : String) :
    (values registry command place typed).Nodup := by
  unfold values
  split
  · exact List.nodup_nil
  · exact Text.sortedDistinct_nodup _

/-- Behind the same part of an input different values make different lines. -/
theorem completed_injective (head : String) :
    Function.Injective fun value => head ++ Line.quote value := by
  intro value value' heq
  have hchars : head.toList ++ (Line.quote value).toList = head.toList ++ (Line.quote value').toList := by
    simpa [String.toList_append] using congrArg String.toList heq
  exact Line.quote_injective (String.toList_inj.mp (List.append_cancel_left hchars))

/-- No line is suggested twice. -/
theorem suggestions_nodup {registry : Registry κ} (h : registry.Sound) (input : String) :
    (suggestions registry input).Nodup := by
  unfold suggestions
  split
  · exact Text.nodup_of_sorted (h.visibleWithPrefix_sorted _)
  · exact (values_nodup registry _ _ _).map (completed_injective _)

end CommandConsole.Completion
