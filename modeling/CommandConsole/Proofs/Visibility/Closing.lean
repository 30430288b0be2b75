import CommandConsole.Proofs.Visibility.Toggles

/-!
# Moves that only close

Some moves cannot open the console. However many of them are made, all that they can announce is one closing, and
they announce it if the console was open and is not any more.

## Main definitions

- `Visibility.effects` — what is announced by moves that are made one after the other

## Main statements

- `Visibility.Consistent.effects_of_mayOpen` — what moves announce that cannot open the console
- `Visibility.Consistent.state_enable`, `Visibility.state_enforceGate` — where such moves lead
- `Visibility.releaseBuild_after` — moves know of the build what they were told
-/

namespace CommandConsole.Visibility

/-- What is announced by moves that are made one after the other. -/
def effects (visibility : Visibility) (moves : List Move) : List Effect :=
  (visibility.turns moves).flatMap (·.effects)

theorem effects_cons (visibility : Visibility) (first : Move) (moves : List Move) :
    visibility.effects (first :: moves) =
      (visibility.move first).1 ++ (visibility.move first).2.effects moves := rfl

theorem filterMap_effects {β : Type} (visibility : Visibility) (pick : Effect → Option β)
    (moves : List Move) : (visibility.effects moves).filterMap pick = visibility.picked pick moves :=
  List.filterMap_flatMap

/-- **Moves that cannot open the console announce one closing or nothing.** The closing lets the clock go on
exactly if a pause was held before the first of them. -/
theorem Consistent.effects_of_mayOpen {visibility : Visibility} (h : visibility.Consistent)
    {moves : List Move} (hmoves : ∀ move ∈ moves, move.mayOpen = false) :
    visibility.effects moves =
      if visibility.state = .opened ∧ (visibility.after moves).state ≠ .opened then
        (Block.closing visibility.holdsPause).effects
      else [] := by
  induction moves generalizing visibility with
  | nil => exact (if_neg fun hclosed => hclosed.2 hclosed.1).symm
  | cons first moves ih =>
    obtain ⟨hfirst, hrest⟩ := List.forall_mem_cons.mp hmoves
    have hlater := ih (h.move first) hrest
    have hstays : ((visibility.move first).2.after moves).state = .opened →
        (visibility.move first).2.state = .opened :=
      fun hopen => ((h.move first).opened_of_after hrest hopen).1
    have hopens : (visibility.move first).2.state = .opened → visibility.state = .opened :=
      opened_of_move hfirst
    have hafter : visibility.after (first :: moves) = (visibility.move first).2.after moves := rfl
    have htransition := h.transition first
    rw [effects_cons, hlater, hafter]
    generalize visibility.move first = result at *
    cases htransition with
    | quiet hsame hholds => simp only [List.nil_append, hsame, hholds]
    | opens hclosed hopen _ => exact absurd (hopens hopen) (by simp [hclosed])
    | closes hopen hclosed _ =>
      -- what comes behind the closing finds the console closed and leaves it so
      rw [if_neg fun hlast => hclosed hlast.1, if_pos ⟨hopen, mt hstays hclosed⟩, List.append_nil]

/-- Moves that cannot open the console leave the pause to a console that is still open. -/
theorem Consistent.holdsPause_of_mayOpen {visibility : Visibility} (h : visibility.Consistent)
    {moves : List Move} (hmoves : ∀ move ∈ moves, move.mayOpen = false) :
    (visibility.after moves).holdsPause = ((visibility.after moves).isOpen && visibility.holdsPause) := by
  by_cases hopen : (visibility.after moves).state = .opened
  · rw [(isOpen_iff _).mpr hopen, Bool.true_and]
    exact (h.opened_of_after hmoves hopen).2
  · rw [(isOpen_eq_false_iff _).mpr hopen, Bool.false_and]
    exact (h.after moves).holdsPause_eq hopen

-- ════════════════════════════════════════════════════════════════════════
-- Where moves lead
-- ════════════════════════════════════════════════════════════════════════

theorem isGated_disable (visibility : Visibility) : visibility.disable.2.isGated = visibility.isGated :=
  visibility.isGated_close

theorem isGated_enforceGate (visibility : Visibility) :
    visibility.enforceGate.2.isGated = visibility.isGated := by
  unfold enforceGate
  split
  · exact visibility.isGated_disable
  · rfl

theorem state_enforceGate (visibility : Visibility) :
    visibility.enforceGate.2.state = if visibility.isGated then .disabled else visibility.state := by
  unfold enforceGate
  split <;> rfl

theorem Consistent.state_enable {visibility : Visibility} (h : visibility.Consistent) :
    visibility.enable.2.state =
      if visibility.isGated then .disabled
      else if visibility.state = .disabled then .closed else visibility.state := by
  unfold enable
  split
  · rename_i hgated
    exact h.gated hgated
  · cases hstate : visibility.state <;> simp [hstate]

-- ════════════════════════════════════════════════════════════════════════
-- The build
-- ════════════════════════════════════════════════════════════════════════

theorem releaseBuild_close (visibility : Visibility) :
    visibility.close.2.releaseBuild = visibility.releaseBuild := by
  unfold close
  split <;> rfl

theorem releaseBuild_openUp (visibility : Visibility) :
    visibility.openUp.2.releaseBuild = visibility.releaseBuild := by
  unfold openUp
  split
  · split <;> rfl
  · rfl

theorem releaseBuild_enforceGate (visibility : Visibility) :
    visibility.enforceGate.2.releaseBuild = visibility.releaseBuild := by
  unfold enforceGate
  split
  · exact visibility.releaseBuild_close
  · rfl

/-- Only one move says what build this is. -/
theorem releaseBuild_move (visibility : Visibility) {next : Move} (hnext : ∀ on, next ≠ .releaseBuild on) :
    (visibility.move next).2.releaseBuild = visibility.releaseBuild := by
  cases next with
  | enable =>
    show visibility.enable.2.releaseBuild = _
    unfold enable
    split
    · rfl
    · cases visibility.state <;> rfl
  | disable | close => exact visibility.releaseBuild_close
  | openUp => exact visibility.releaseBuild_openUp
  | toggle =>
    show visibility.toggle.2.releaseBuild = _
    unfold toggle
    split
    · exact visibility.releaseBuild_close
    · exact visibility.releaseBuild_openUp
  | releaseBuild on => exact absurd rfl (hnext on)
  | allowInRelease on => exact releaseBuild_enforceGate { visibility with allowedInRelease := on }
  | pauseEnabled on => rfl

theorem releaseBuild_after {moves : List Move} (visibility : Visibility)
    (hmoves : ∀ on, Move.releaseBuild on ∉ moves) :
    (visibility.after moves).releaseBuild = visibility.releaseBuild := by
  induction moves generalizing visibility with
  | nil => rfl
  | cons first moves ih =>
    have hfirst : ∀ on, first ≠ .releaseBuild on := fun on heq => hmoves on (heq ▸ List.mem_cons_self)
    have hrest : ∀ on, Move.releaseBuild on ∉ moves := fun on hmem => hmoves on (List.mem_cons_of_mem _ hmem)
    exact (ih _ hrest).trans (visibility.releaseBuild_move hfirst)

end CommandConsole.Visibility
