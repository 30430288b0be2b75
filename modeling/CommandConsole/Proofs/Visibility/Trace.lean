import CommandConsole.Visibility

/-!
# The effects of a run of moves

The effects that a console announces while it is enabled, opened, closed and disabled in any order come in
blocks, one for each opening and one for each closing. Openings and closings take turns, and a closing
lets the clock of the host go on exactly if the opening before it stopped the clock, whatever was switched
in between.

## Main definitions

- `Visibility.Block` — the effects of one opening or one closing
- `Visibility.Paired` — blocks that take turns, each closing with the pause of its opening
- `Visibility.turns` — the effects of each move of a run, with the state before it
- `Visibility.picked` — what is picked from the effects of a run
- `Visibility.Consistent` — what is true of every state that a run leads to
- `Visibility.Transition` — what one move can do

## Main statements

- `Visibility.Consistent.transition` — every move keeps quiet, opens or closes
- `Visibility.turns_paired` — the effects of every run are paired blocks
-/

namespace CommandConsole.Visibility

/-- The effects of one opening or one closing. -/
inductive Block where
  /-- The console opens, and may stop the clock. -/
  | opening (pauses : Bool)
  /-- The console closes, and may let the clock go on. -/
  | closing (resumes : Bool)
  deriving DecidableEq, Repr

def Block.effects : Block → List Effect
  | opening pauses => if pauses then [.pause, .opened] else [.opened]
  | closing resumes => if resumes then [.resume, .closed] else [.closed]

theorem Block.effects_ne_nil (block : Block) : block.effects ≠ [] := by
  cases block with
  | opening pauses => cases pauses <;> decide
  | closing resumes => cases resumes <;> decide

/-- Openings and closings take turns, an opening first. A closing lets the clock go on exactly if its
opening stopped it. -/
inductive Paired : List Block → Prop where
  | nil : Paired []
  | hanging (pauses : Bool) : Paired [.opening pauses]
  | pair (pauses : Bool) {blocks : List Block} (h : Paired blocks) :
      Paired (.opening pauses :: .closing pauses :: blocks)

/-- The last block is an opening. -/
def EndsOpen (blocks : List Block) : Prop := ∃ pauses, blocks.getLast? = some (.opening pauses)

theorem not_endsOpen_nil : ¬EndsOpen [] := by
  rintro ⟨pauses, h⟩
  cases h

theorem endsOpen_singleton (pauses : Bool) : EndsOpen [.opening pauses] := ⟨pauses, rfl⟩

theorem endsOpen_pair (pauses resumes : Bool) (blocks : List Block) :
    EndsOpen (.opening pauses :: .closing resumes :: blocks) ↔ EndsOpen blocks := by
  cases blocks with
  | nil => simp [EndsOpen]
  | cons block blocks => simp [EndsOpen, List.getLast?_cons_cons]

-- ════════════════════════════════════════════════════════════════════════
-- Runs
-- ════════════════════════════════════════════════════════════════════════

/-- The effects of one move, with the state before it. -/
structure Turn where
  before : Visibility
  effects : List Effect

/-- The moves of a run one after the other. -/
def turns (visibility : Visibility) : List Move → List Turn
  | [] => []
  | move :: moves =>
    ⟨visibility, (visibility.move move).1⟩ :: (visibility.move move).2.turns moves

/-- The state that a run leads to. -/
def after (visibility : Visibility) (moves : List Move) : Visibility :=
  moves.foldl (fun visibility move => (visibility.move move).2) visibility

/-- What is picked from the effects of the moves of a run. -/
def picked {β : Type} (visibility : Visibility) (pick : Effect → Option β) (moves : List Move) : List β :=
  (visibility.turns moves).flatMap fun turn => turn.effects.filterMap pick

theorem picked_cons {β : Type} (visibility : Visibility) (pick : Effect → Option β) (first : Move)
    (moves : List Move) :
    visibility.picked pick (first :: moves) =
      (visibility.move first).1.filterMap pick ++ (visibility.move first).2.picked pick moves := rfl

theorem picked_singleton {β : Type} (visibility : Visibility) (pick : Effect → Option β) (only : Move) :
    visibility.picked pick [only] = (visibility.move only).1.filterMap pick := List.append_nil _

theorem picked_append {β : Type} (visibility : Visibility) (pick : Effect → Option β)
    (earlier later : List Move) :
    visibility.picked pick (earlier ++ later) =
      visibility.picked pick earlier ++ (visibility.after earlier).picked pick later := by
  induction earlier generalizing visibility with
  | nil => rfl
  | cons first earlier ih =>
    rw [List.cons_append, picked_cons, picked_cons, ih, List.append_assoc]
    rfl

/-- A block of effects, with the state before the move that had them. -/
structure Announcement where
  before : Visibility
  block : Block

def Announcement.turn (announcement : Announcement) : Turn :=
  ⟨announcement.before, announcement.block.effects⟩

-- ════════════════════════════════════════════════════════════════════════
-- One move
-- ════════════════════════════════════════════════════════════════════════

/-- What is true of every state that a run leads to: only an open console holds a pause, and a console
that the build forbids is disabled. -/
structure Consistent (visibility : Visibility) : Prop where
  holdsPause_eq : visibility.state ≠ .opened → visibility.holdsPause = false
  gated : visibility.isGated = true → visibility.state = .disabled

theorem Consistent.new (releaseBuild : Bool) : (new releaseBuild).Consistent :=
  ⟨fun _ => rfl, fun _ => rfl⟩

/-- What a move can do: it keeps quiet, or it opens a closed console, or it closes an open one. -/
inductive Transition (before : Visibility) : List Effect × Visibility → Prop where
  | quiet {after : Visibility} (hopen : after.state = .opened ↔ before.state = .opened)
      (hholds : after.holdsPause = before.holdsPause) : Transition before ([], after)
  | opens {after : Visibility} (hclosed : before.state = .closed) (hopen : after.state = .opened)
      (hholds : after.holdsPause = before.pauseEnabled) :
      Transition before ((Block.opening before.pauseEnabled).effects, after)
  | closes {after : Visibility} (hopen : before.state = .opened) (hclosed : after.state ≠ .opened)
      (hholds : after.holdsPause = false) :
      Transition before ((Block.closing before.holdsPause).effects, after)

theorem transition_close (visibility : Visibility) : Transition visibility visibility.close := by
  cases hstate : visibility.state with
  | opened =>
    have hclose : visibility.close = ((Block.closing visibility.holdsPause).effects,
        { visibility with state := .closed, holdsPause := false }) := by
      simp [close, hstate, Block.effects]
    rw [hclose]
    exact .closes hstate (by simp) rfl
  | closed | disabled =>
    have hclose : visibility.close = ([], visibility) := by simp [close, hstate]
    rw [hclose]
    exact .quiet Iff.rfl rfl

theorem Consistent.transition_openUp {visibility : Visibility} (h : visibility.Consistent) :
    Transition visibility visibility.openUp := by
  cases hstate : visibility.state with
  | closed =>
    have hholds : visibility.holdsPause = false := h.holdsPause_eq (by simp [hstate])
    cases hpause : visibility.pauseEnabled with
    | true =>
      have hopen : visibility.openUp = ((Block.opening visibility.pauseEnabled).effects,
          { visibility with state := .opened, holdsPause := true }) := by
        simp [openUp, hstate, hpause, Block.effects]
      rw [hopen]
      exact .opens hstate rfl hpause.symm
    | false =>
      have hopen : visibility.openUp = ((Block.opening visibility.pauseEnabled).effects,
          { visibility with state := .opened }) := by
        simp [openUp, hstate, hpause, Block.effects]
      rw [hopen]
      exact .opens hstate rfl (hholds.trans hpause.symm)
  | opened | disabled =>
    have hopen : visibility.openUp = ([], visibility) := by simp [openUp, hstate]
    rw [hopen]
    exact .quiet Iff.rfl rfl

/-- Disabling is closing, as far as the effects go. -/
theorem transition_disable (visibility : Visibility) : Transition visibility visibility.disable := by
  cases hstate : visibility.state with
  | opened =>
    have hdisable : visibility.disable = ((Block.closing visibility.holdsPause).effects,
        { visibility with state := .disabled, holdsPause := false }) := by
      simp [disable, close, hstate, Block.effects]
    rw [hdisable]
    exact .closes hstate (by simp) rfl
  | closed | disabled =>
    have hdisable : visibility.disable = ([], { visibility with state := .disabled }) := by
      simp [disable, close, hstate]
    rw [hdisable]
    exact .quiet (by simp [hstate]) rfl

theorem transition_enforceGate (visibility : Visibility) :
    Transition visibility visibility.enforceGate := by
  unfold enforceGate
  split
  · exact transition_disable visibility
  · exact .quiet Iff.rfl rfl

theorem transition_enable (visibility : Visibility) :
    Transition visibility ([], visibility.enable.2) := by
  refine .quiet ?_ ?_
  · unfold enable
    split
    · exact Iff.rfl
    · cases hstate : visibility.state <;> simp [hstate]
  · unfold enable
    split
    · rfl
    · cases visibility.state <;> rfl

/-- The switches of the build play no part in what a move can do. -/
theorem Transition.of_eq {before before' : Visibility} {result : List Effect × Visibility}
    (h : Transition before' result) (hstate : before'.state = before.state)
    (hpause : before'.pauseEnabled = before.pauseEnabled)
    (hholds : before'.holdsPause = before.holdsPause) : Transition before result := by
  cases h with
  | quiet hopen hkeeps => exact .quiet (hstate ▸ hopen) (hkeeps.trans hholds)
  | opens hclosed hopen hkeeps =>
    rw [hpause] at hkeeps ⊢
    exact .opens (hstate ▸ hclosed) hopen hkeeps
  | closes hopen hclosed hkeeps =>
    rw [hholds]
    exact .closes (hstate ▸ hopen) hclosed hkeeps

/-- **Every move keeps quiet, opens or closes.** -/
theorem Consistent.transition {visibility : Visibility} (h : visibility.Consistent) (move : Move) :
    Transition visibility (visibility.move move) := by
  cases move with
  | enable => exact transition_enable visibility
  | disable => exact transition_disable visibility
  | openUp => exact h.transition_openUp
  | close => exact transition_close visibility
  | toggle =>
    show Transition visibility visibility.toggle
    unfold toggle
    split
    · exact transition_close visibility
    · exact h.transition_openUp
  | releaseBuild on => exact (transition_enforceGate _).of_eq rfl rfl rfl
  | allowInRelease on => exact (transition_enforceGate _).of_eq rfl rfl rfl
  | pauseEnabled on => exact .quiet Iff.rfl rfl

theorem Transition.holdsPause_eq {before : Visibility} {result : List Effect × Visibility}
    (h : Transition before result) (hbefore : before.Consistent) :
    result.2.state ≠ .opened → result.2.holdsPause = false := by
  intro hstate
  cases h with
  | quiet hopen hholds =>
    rw [hholds]
    exact hbefore.holdsPause_eq (mt hopen.mpr hstate)
  | opens hclosed hopen hholds => exact absurd hopen hstate
  | closes hopen hclosed hholds => exact hholds

theorem gated_enforceGate (visibility : Visibility) :
    visibility.enforceGate.2.isGated = true → visibility.enforceGate.2.state = .disabled := by
  unfold enforceGate
  split
  · intro _
    rfl
  · rename_i hgate
    intro hgated
    exact absurd hgated hgate

theorem isGated_close (visibility : Visibility) :
    visibility.close.2.isGated = visibility.isGated := by
  unfold close
  split <;> rfl

theorem isGated_openUp (visibility : Visibility) :
    visibility.openUp.2.isGated = visibility.isGated := by
  unfold openUp
  split
  · split <;> rfl
  · rfl

theorem isGated_enable (visibility : Visibility) :
    visibility.enable.2.isGated = visibility.isGated := by
  unfold enable
  split
  · rfl
  · cases visibility.state <;> rfl

theorem Consistent.gated_close {visibility : Visibility} (h : visibility.Consistent) :
    visibility.close.2.isGated = true → visibility.close.2.state = .disabled := by
  intro hgated
  rw [isGated_close] at hgated
  simp [close, h.gated hgated]

theorem Consistent.gated_openUp {visibility : Visibility} (h : visibility.Consistent) :
    visibility.openUp.2.isGated = true → visibility.openUp.2.state = .disabled := by
  intro hgated
  rw [isGated_openUp] at hgated
  simp [openUp, h.gated hgated]

theorem Consistent.gated_enable {visibility : Visibility} (h : visibility.Consistent) :
    visibility.enable.2.isGated = true → visibility.enable.2.state = .disabled := by
  intro hgated
  rw [isGated_enable] at hgated
  simp [enable, hgated, h.gated hgated]

/-- Every move keeps the state consistent. -/
theorem Consistent.move {visibility : Visibility} (h : visibility.Consistent) (move : Move) :
    (visibility.move move).2.Consistent where
  holdsPause_eq := (h.transition move).holdsPause_eq h
  gated := by
    cases move with
    | enable => exact h.gated_enable
    | disable => exact fun _ => rfl
    | openUp => exact h.gated_openUp
    | close => exact h.gated_close
    | toggle =>
      show visibility.toggle.2.isGated = true → visibility.toggle.2.state = .disabled
      unfold toggle
      split
      · exact h.gated_close
      · exact h.gated_openUp
    | releaseBuild on => exact gated_enforceGate _
    | allowInRelease on => exact gated_enforceGate _
    | pauseEnabled on => exact h.gated

theorem Consistent.after {visibility : Visibility} (h : visibility.Consistent) (moves : List Move) :
    (visibility.after moves).Consistent := by
  induction moves generalizing visibility with
  | nil => exact h
  | cons move moves ih => exact ih (h.move move)

-- ════════════════════════════════════════════════════════════════════════
-- All moves
-- ════════════════════════════════════════════════════════════════════════

/-- The opening that an open console has behind it. -/
def pending (visibility : Visibility) : List Block :=
  match visibility.state with
  | .opened => [.opening visibility.holdsPause]
  | _ => []

theorem pending_of_opened {visibility : Visibility} (h : visibility.state = .opened) :
    visibility.pending = [.opening visibility.holdsPause] := by
  simp [pending, h]

theorem pending_of_not_opened {visibility : Visibility} (h : visibility.state ≠ .opened) :
    visibility.pending = [] := by
  unfold pending
  split
  · contradiction
  · rfl

/-- A quiet move leaves the same opening behind. -/
theorem pending_congr {visibility visibility' : Visibility}
    (hopen : visibility'.state = .opened ↔ visibility.state = .opened)
    (hholds : visibility'.holdsPause = visibility.holdsPause) :
    visibility'.pending = visibility.pending := by
  by_cases hstate : visibility.state = .opened
  · rw [pending_of_opened hstate, pending_of_opened (hopen.mpr hstate), hholds]
  · rw [pending_of_not_opened hstate, pending_of_not_opened (mt hopen.mp hstate)]

/-- The turns of a run that have effects are blocks. Behind the opening that the console comes with they are
paired, and the run ends open exactly if they do. -/
theorem Consistent.exists_announcements {visibility : Visibility} (h : visibility.Consistent)
    (moves : List Move) :
    ∃ announcements : List Announcement,
      (visibility.turns moves).filter (fun turn => turn.effects ≠ []) =
        announcements.map Announcement.turn ∧
      Paired (visibility.pending ++ announcements.map (·.block)) ∧
      (∀ announcement ∈ announcements, ∀ pauses, announcement.block = .opening pauses →
        pauses = announcement.before.pauseEnabled ∧ announcement.before.isGated = false) ∧
      ((visibility.after moves).state = .opened ↔
        EndsOpen (visibility.pending ++ announcements.map (·.block))) := by
  induction moves generalizing visibility with
  | nil =>
    refine ⟨[], rfl, ?_, by simp, ?_⟩
    · by_cases hstate : visibility.state = .opened
      · rw [pending_of_opened hstate]
        exact Paired.hanging _
      · rw [pending_of_not_opened hstate]
        exact Paired.nil
    · by_cases hstate : visibility.state = .opened
      · rw [pending_of_opened hstate]
        exact iff_of_true hstate (endsOpen_singleton _)
      · rw [pending_of_not_opened hstate]
        exact iff_of_false hstate not_endsOpen_nil
  | cons move moves ih =>
    obtain ⟨announcements, hturns, hpaired, hopenings, hends⟩ := ih (h.move move)
    have hafter : visibility.after (move :: moves) = (visibility.move move).2.after moves := rfl
    have hcons : visibility.turns (move :: moves) =
        ⟨visibility, (visibility.move move).1⟩ :: (visibility.move move).2.turns moves := rfl
    rw [hafter, hcons]
    have htransition := h.transition move
    generalize visibility.move move = result at *
    cases htransition with
    | quiet hopen hholds =>
      refine ⟨announcements, ?_, ?_, hopenings, ?_⟩
      · rw [List.filter_cons_of_neg (by simp), hturns]
      · rwa [← pending_congr hopen hholds]
      · rwa [← pending_congr hopen hholds]
    | opens hclosed hopen hholds =>
      -- the block of this move is the opening that the rest of the run has behind it
      have hnone : visibility.pending = [] := pending_of_not_opened (by simp [hclosed])
      have hungated : visibility.isGated = false := by
        cases hgated : visibility.isGated with
        | false => rfl
        | true =>
          rw [h.gated hgated] at hclosed
          cases hclosed
      rw [pending_of_opened hopen, hholds] at hpaired hends
      refine ⟨⟨visibility, .opening visibility.pauseEnabled⟩ :: announcements, ?_, ?_, ?_, ?_⟩
      · rw [List.filter_cons_of_pos (by simp [Block.effects_ne_nil]), hturns]
        rfl
      · rw [hnone]
        exact hpaired
      · intro announcement hmem pauses hblock
        rcases List.mem_cons.mp hmem with rfl | hmem
        · cases hblock
          exact ⟨rfl, hungated⟩
        · exact hopenings announcement hmem pauses hblock
      · rw [hnone]
        exact hends
    | closes hopen hclosed hholds =>
      -- the opening of this closing is the one that the console came with
      rw [pending_of_not_opened hclosed, List.nil_append] at hpaired hends
      rw [pending_of_opened hopen]
      refine ⟨⟨visibility, .closing visibility.holdsPause⟩ :: announcements, ?_, ?_, ?_, ?_⟩
      · rw [List.filter_cons_of_pos (by simp [Block.effects_ne_nil]), hturns]
        rfl
      · exact Paired.pair _ hpaired
      · intro announcement hmem pauses hblock
        rcases List.mem_cons.mp hmem with rfl | hmem
        · cases hblock
        · exact hopenings announcement hmem pauses hblock
      · exact hends.trans (endsOpen_pair _ _ _).symm

theorem flatMap_effects_filter (turns : List Turn) :
    (turns.filter fun turn => turn.effects ≠ []).flatMap (·.effects) =
      turns.flatMap (·.effects) := by
  induction turns with
  | nil => rfl
  | cons turn turns ih =>
    by_cases hquiet : turn.effects = []
    · rw [List.filter_cons_of_neg (by simp [hquiet]), ih, List.flatMap_cons, hquiet, List.nil_append]
    · rw [List.filter_cons_of_pos (by simp [hquiet]), List.flatMap_cons, List.flatMap_cons, ih]

/-- **The effects of every run are paired blocks.** In a release build or another one, whatever is enabled,
disabled, opened, closed, toggled and switched: each move that has effects has one block of them; openings
and closings take turns, an opening first; a closing lets the clock go on exactly if its opening stopped
it, and an opening stops the clock exactly if that was switched on at the time; the console is open exactly
if the last block is an opening; and a console that the build forbids is disabled and does not open. -/
theorem turns_paired (releaseBuild : Bool) (moves : List Move) :
    ∃ announcements : List Announcement,
      ((new releaseBuild).turns moves).filter (fun turn => turn.effects ≠ []) =
        announcements.map Announcement.turn ∧
      ((new releaseBuild).turns moves).flatMap (·.effects) =
        announcements.flatMap (·.block.effects) ∧
      Paired (announcements.map (·.block)) ∧
      (∀ announcement ∈ announcements, ∀ pauses, announcement.block = .opening pauses →
        pauses = announcement.before.pauseEnabled ∧ announcement.before.isGated = false) ∧
      (((new releaseBuild).after moves).state = .opened ↔
        EndsOpen (announcements.map (·.block))) ∧
      (((new releaseBuild).after moves).isGated = true →
        ((new releaseBuild).after moves).state = .disabled) := by
  have hnew := Consistent.new releaseBuild
  obtain ⟨announcements, hturns, hpaired, hopenings, hends⟩ := hnew.exists_announcements moves
  refine ⟨announcements, hturns, ?_, hpaired, hopenings, hends, (hnew.after moves).gated⟩
  rw [← flatMap_effects_filter, hturns, List.flatMap_map]
  rfl

end CommandConsole.Visibility
