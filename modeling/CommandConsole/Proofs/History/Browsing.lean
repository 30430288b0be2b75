import CommandConsole.Proofs.History

/-!
# Back and forth through the history

Each step back shows the line before the one shown, up to the oldest line, and each step forward the line
behind it. Whoever goes back any number of steps and then forward is shown the same lines again in the other
order, and past the newest line the input that was being typed before.

## Main definitions

- `History.back`, `History.forth` — the history when steps back, or forward, have been taken
- `History.browsing` — the history with another cursor and another saved input

## Main statements

- `History.older_back` — what a step back shows, and where it leads
- `History.newer_forth` — what a step forward shows, and where it leads
- `History.back_and_forth` — steps back and then steps forward
-/

namespace CommandConsole.History

/-- The history when `inputs 0`, …, `inputs (k - 1)` have been given to one step back each. -/
def back (history : History) (inputs : Nat → String) (k : Nat) : History :=
  history.after ((List.range k).map fun i => .older (inputs i))

/-- The history when `j` steps forward have been taken. -/
def forth (history : History) (j : Nat) : History := history.after (List.replicate j .newer)

/-- The history with its cursor at this place, or at none, and this input saved. -/
def browsing (history : History) (cursor : Option Nat) (draft : String) : History :=
  { history with cursor, draft }

variable {history : History}

theorem back_succ (history : History) (inputs : Nat → String) (k : Nat) :
    history.back inputs (k + 1) = ((history.back inputs k).older (inputs k)).2 := by
  simp [back, after, List.range_succ, edit]

theorem forth_succ (history : History) (j : Nat) :
    history.forth (j + 1) = (history.forth j).newer.2 := by
  simp [forth, after, List.replicate_succ', edit]

theorem older_browsing (history : History) (hlines : history.entries ≠ []) (place : Nat) (draft input : String) :
    (history.browsing (some place) draft).older input =
      (history.entries.getD (place - 1) "", history.browsing (some (place - 1)) draft) := by
  have hkept : (history.browsing (some place) draft).entries ≠ [] := hlines
  exact older_of_ne_nil hkept input

/-- The `k`-th step back shows the `k`-th line from the newest one, or the oldest line if there are not so many.
Only the first step saves its input. -/
theorem older_back (hlines : history.entries ≠ []) (hidle : history.cursor = none)
    (inputs : Nat → String) (k : Nat) :
    (history.back inputs k).older (inputs k) =
      (history.entries.getD (history.size - min (k + 1) history.size) "",
        history.browsing (some (history.size - min (k + 1) history.size)) (inputs 0)) := by
  have hsize : 0 < history.size := List.length_pos_of_ne_nil hlines
  induction k with
  | zero =>
    have hone : min (0 + 1) history.size = 1 := by omega
    show history.older (inputs 0) = _
    rw [older_of_ne_nil hlines, hidle, hone]
    rfl
  | succ k ih =>
    have hplace : history.size - min (k + 1) history.size - 1 =
        history.size - min (k + 1 + 1) history.size := by omega
    rw [back_succ, ih, ← hplace]
    exact history.older_browsing hlines _ _ _

/-- A step forward from a line shows the one behind it. From the newest line it shows the saved input, and
browsing ends. -/
theorem newer_browsing (history : History) (place : Nat) (draft : String) :
    (history.browsing (some place) draft).newer =
      if place + 1 < history.size then
        (history.entries.getD (place + 1) "", history.browsing (some (place + 1)) draft)
      else (draft, history.browsing none draft) := by
  simp only [newer, browsing]
  rw [List.getD_eq_getElem?_getD]
  by_cases hnext : place + 1 < history.size
  · rw [if_pos hnext, List.getElem?_eq_getElem hnext]
    rfl
  · rw [if_neg hnext, List.getElem?_eq_none (Nat.not_lt.mp hnext)]

/-- Steps forward lead from line to line up to the newest one. Behind that, every one of them shows the saved
input. -/
theorem newer_forth (history : History) (place : Nat) (draft : String) (j : Nat) :
    ((history.browsing (some place) draft).forth j).newer =
      if place + (j + 1) < history.size then
        (history.entries.getD (place + (j + 1)) "", history.browsing (some (place + (j + 1))) draft)
      else (draft, history.browsing none draft) := by
  induction j with
  | zero => exact history.newer_browsing place draft
  | succ j ih =>
    rw [forth_succ, ih]
    by_cases hinside : place + (j + 1) < history.size
    · rw [if_pos hinside]
      exact history.newer_browsing (place + (j + 1)) draft
    · rw [if_neg hinside, if_neg (by omega)]
      rfl

/-- **Steps back and then steps forward.** Let nobody browse a history with `n` lines, and let `k` steps back be
taken. The `i`-th of them shows the line `n - min i n`, so that the oldest one is shown as long as it takes. The
input of the first one is saved, and nothing of the history changes but that and the cursor. Of the steps forward
that follow, the `j`-th one shows the line `j` places behind the last one shown. From the newest line on each of
them shows the saved input and leaves nobody browsing. -/
theorem back_and_forth {history : History} (hlines : history.entries ≠ []) (hidle : history.cursor = none)
    (inputs : Nat → String) {k : Nat} (hk : 0 < k) :
    let n := history.size
    let reached := n - min k n
    let behind := history.back inputs k
    (∀ i < k, history.entries[n - min (i + 1) n]? =
      some ((history.back inputs i).older (inputs i)).1) ∧
    behind = history.browsing (some reached) (inputs 0) ∧
    (∀ j, j + 1 < min k n → ∃ line, history.entries[reached + (j + 1)]? = some line ∧
      (behind.forth j).newer = (line, history.browsing (some (reached + (j + 1))) (inputs 0))) ∧
    (∀ j, min k n ≤ j + 1 →
      (behind.forth j).newer = (inputs 0, history.browsing none (inputs 0))) := by
  intro n reached behind
  have hn : 0 < n := List.length_pos_of_ne_nil hlines
  have hreached : reached + min k n = n := by omega
  have hline (place : Nat) (hplace : place < n) :
      history.entries[place]? = some (history.entries.getD place "") := by
    rw [List.getD_eq_getElem?_getD, List.getElem?_eq_getElem hplace]
    rfl
  have hbehind : behind = history.browsing (some reached) (inputs 0) := by
    obtain ⟨steps, rfl⟩ := Nat.exists_eq_succ_of_ne_zero hk.ne'
    show history.back inputs (steps + 1) = _
    rw [back_succ, older_back hlines hidle]
  have hforth (j : Nat) := history.newer_forth reached (inputs 0) j
  rw [← hbehind] at hforth
  refine ⟨fun i _ => ?_, hbehind, fun j hj => ?_, fun j hj => ?_⟩
  · rw [older_back hlines hidle]
    exact hline _ (by omega)
  · have hinside : reached + (j + 1) < n := by omega
    exact ⟨_, hline _ hinside, (hforth j).trans (if_pos hinside)⟩
  · exact (hforth j).trans (if_neg (show ¬reached + (j + 1) < n by omega))

/-- Five steps back through three lines, the oldest of which has been shown for two steps, and then forward. -/
theorem browsed_three_lines :
    let history := (new 3).after [.record "a", .record "b", .record "c", .record "d"]
    let inputs (i : Nat) : String := if i = 0 then "draft" else "typed"
    let behind := history.back inputs 5
    history.entries ≠ [] ∧ history.cursor = none ∧ 0 < 5 ∧
      some "b" = some ((history.back inputs 4).older (inputs 4)).1 ∧
      behind = history.browsing (some 0) "draft" ∧
      (behind.forth 1).newer = ("d", history.browsing (some 2) "draft") ∧
      (behind.forth 4).newer = ("draft", history.browsing none "draft") := by
  intro history inputs behind
  have hlines : history.entries ≠ [] := by decide
  obtain ⟨hback, hbehind, hforth, hpast⟩ := back_and_forth hlines rfl inputs (k := 5) (by decide)
  obtain ⟨line, hline, hnewer⟩ := hforth 1 (by decide)
  cases hline
  exact ⟨hlines, rfl, by decide, hback 4 (by decide), hbehind, hnewer, hpast 4 (by decide)⟩

end CommandConsole.History
