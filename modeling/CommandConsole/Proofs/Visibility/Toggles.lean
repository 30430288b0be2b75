import CommandConsole.Proofs.Visibility.Clock
import Mathlib.Data.List.Chain

/-!
# Openings and closings of a run

A move announces that the console has become visible, or hidden, exactly if it has. So what is announced in the
course of a run can be told from what can be seen before and after each step, without a look at the moves.

## Main definitions

- `Visibility.toggles` — what moves announce: `true` for each opening and `false` for each closing
- `Visibility.turned` — the change of what can be seen from one state to another

## Main statements

- `Visibility.Consistent.toggles_move` — a move announces the change that it makes
- `Visibility.Consistent.toggles_of_mayOpen` — so do moves that cannot open the console, all together
- `Visibility.isChain_turned_append`, `Visibility.getLast?_turned_append` — changes take turns, and the last one
  tells what can be seen
-/

namespace CommandConsole.Visibility

def Effect.toggle? : Effect → Option Bool
  | opened => some true
  | closed => some false
  | pause | resume => none

/-- Whether the console has become visible, for each announcement about it in the course of moves. -/
def toggles (visibility : Visibility) (moves : List Move) : List Bool :=
  visibility.picked Effect.toggle? moves

/-- The change of what can be seen, if there is one. -/
def turned (before after : Visibility) : List Bool :=
  if after.isOpen = before.isOpen then [] else [after.isOpen]

theorem isOpen_iff (visibility : Visibility) : visibility.isOpen = true ↔ visibility.state = .opened := by
  simp [isOpen]

theorem isOpen_eq_false_iff (visibility : Visibility) :
    visibility.isOpen = false ↔ visibility.state ≠ .opened := by
  simp [isOpen]

theorem turned_of_eq {before after : Visibility} (h : after.isOpen = before.isOpen) :
    turned before after = [] := if_pos h

theorem turned_self (visibility : Visibility) : turned visibility visibility = [] := turned_of_eq rfl

/-- **A move announces the change that it makes**, and no other. -/
theorem Consistent.toggles_move {visibility : Visibility} (h : visibility.Consistent) (next : Move) :
    visibility.toggles [next] = turned visibility (visibility.move next).2 := by
  unfold toggles
  rw [picked_singleton]
  have htransition := h.transition next
  generalize visibility.move next = result at *
  cases htransition with
  | quiet hopen _ =>
    have hsame := hopen
    rw [← isOpen_iff, ← isOpen_iff] at hsame
    exact (turned_of_eq (Bool.eq_iff_iff.mpr hsame)).symm
  | opens hclosed hopen _ =>
    have hbefore := visibility.isOpen_eq_false_iff.mpr (by simp [hclosed])
    rw [turned, hbefore, (isOpen_iff _).mpr hopen]
    cases visibility.pauseEnabled <;> rfl
  | closes hopen hclosed _ =>
    have hafter := (isOpen_eq_false_iff _).mpr hclosed
    rw [turned, hafter, visibility.isOpen_iff.mpr hopen]
    cases visibility.holdsPause <;> rfl

/-- The changes of two steps that do not open the console are the change of both together. -/
theorem turned_append {first second third : Visibility}
    (h : second.state = .opened → first.state = .opened)
    (h' : third.state = .opened → second.state = .opened) :
    turned first second ++ turned second third = turned first third := by
  rw [← isOpen_iff, ← isOpen_iff] at h h'
  unfold turned
  cases hfirst : first.isOpen <;> cases hsecond : second.isOpen <;> cases hthird : third.isOpen <;> simp_all

/-- **Moves that cannot open the console announce the change that they make**, all together. -/
theorem Consistent.toggles_of_mayOpen {visibility : Visibility} (h : visibility.Consistent)
    {moves : List Move} (hmoves : ∀ move ∈ moves, move.mayOpen = false) :
    visibility.toggles moves = turned visibility (visibility.after moves) := by
  induction moves generalizing visibility with
  | nil => exact (turned_self visibility).symm
  | cons first moves ih =>
    obtain ⟨hfirst, hrest⟩ := List.forall_mem_cons.mp hmoves
    have hsplit : visibility.toggles (first :: moves) =
        visibility.toggles [first] ++ (visibility.move first).2.toggles moves :=
      visibility.picked_append Effect.toggle? [first] moves
    rw [hsplit, h.toggles_move, ih (h.move first) hrest]
    exact turned_append (opened_of_move hfirst) fun hopen =>
      ((h.move first).opened_of_after hrest hopen).1

/-- Changes take turns. -/
theorem isChain_turned_append {before after : Visibility} {later : List Bool}
    (h : List.IsChain (· ≠ ·) (after.isOpen :: later)) :
    List.IsChain (· ≠ ·) (before.isOpen :: (turned before after ++ later)) := by
  unfold turned
  split
  · rename_i hsame
    rwa [← hsame]
  · rename_i hchanged
    exact List.isChain_cons_cons.mpr ⟨Ne.symm hchanged, h⟩

/-- The last change tells what can be seen. -/
theorem getLast?_turned_append (before after : Visibility) (later : List Bool) :
    (turned before after ++ later).getLast?.getD before.isOpen = later.getLast?.getD after.isOpen := by
  unfold turned
  split
  · rename_i hsame
    rw [hsame, List.nil_append]
  · rw [List.singleton_append, List.getLast?_cons, Option.getD_some]

end CommandConsole.Visibility
