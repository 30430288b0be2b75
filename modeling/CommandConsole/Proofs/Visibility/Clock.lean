import CommandConsole.Proofs.Visibility.Trace
import CommandConsole.Request

/-!
# Visibility and the clock

A console that opens may ask its host to stop the clock, and one that closes to let it go on. A clock that
follows these requests is stopped while the console holds a pause, and the pause that it holds is the one
that was switched on when it was opened.

## Main definitions

- `Request.clockAfter` — what requests make of a clock
- `Visibility.requests` — what moves ask of the host
- `Visibility.Move.mayOpen` — the moves that can open the console

## Main statements

- `Visibility.Consistent.clockAfter_requests` — a clock that follows the moves is stopped while a pause is held
- `Visibility.Consistent.holdsPause_move` — the pause that is held when a move has left the console open
-/

namespace CommandConsole

/-- Whether the clock is stopped when a request has been served. -/
def Request.clock (stopped : Bool) : Request → Bool
  | pause => true
  | resume => false
  | quit => stopped

def Request.clockAfter (stopped : Bool) (requests : List Request) : Bool :=
  requests.foldl Request.clock stopped

@[simp] theorem Request.clockAfter_append (stopped : Bool) (earlier later : List Request) :
    clockAfter stopped (earlier ++ later) = clockAfter (clockAfter stopped earlier) later := by
  simp [clockAfter]

theorem Request.clockAfter_of_quits {requests : List Request} (h : ∀ request ∈ requests, request = quit)
    (stopped : Bool) : clockAfter stopped requests = stopped := by
  rw [List.eq_replicate_of_mem h]
  generalize requests.length = n
  induction n with
  | zero => rfl
  | succ n ih => exact ih

namespace Visibility

def Effect.request? : Effect → Option Request
  | pause => some .pause
  | resume => some .resume
  | opened | closed => none

/-- What is asked of the host when moves are made one after the other. -/
def requests (visibility : Visibility) (moves : List Move) : List Request :=
  (visibility.turns moves).flatMap fun turn => turn.effects.filterMap Effect.request?

theorem requests_cons (visibility : Visibility) (first : Move) (moves : List Move) :
    visibility.requests (first :: moves) =
      (visibility.move first).1.filterMap Effect.request? ++
        (visibility.move first).2.requests moves := rfl

theorem requests_append (visibility : Visibility) (earlier later : List Move) :
    visibility.requests (earlier ++ later) =
      visibility.requests earlier ++ (visibility.after earlier).requests later :=
  visibility.picked_append Effect.request? earlier later

theorem after_append (visibility : Visibility) (earlier later : List Move) :
    visibility.after (earlier ++ later) = (visibility.after earlier).after later := by
  simp [after]

theorem Consistent.clockAfter_move {visibility : Visibility} (h : visibility.Consistent) (next : Move) :
    Request.clockAfter visibility.holdsPause
        ((visibility.move next).1.filterMap Effect.request?) =
      (visibility.move next).2.holdsPause := by
  have htransition := h.transition next
  generalize visibility.move next = result at *
  cases htransition with
  | quiet hopen hholds => exact hholds.symm
  | opens hclosed hopen hholds =>
    -- a closed console holds no pause, so that an opening without one leaves the clock going
    have hfree : visibility.holdsPause = false := h.holdsPause_eq (by simp [hclosed])
    rw [hholds, hfree]
    cases visibility.pauseEnabled <;> rfl
  | closes hopen hclosed hholds =>
    rw [hholds]
    cases visibility.holdsPause <;> rfl

/-- **A clock that has followed the moves is stopped while a pause is held.** -/
theorem Consistent.clockAfter_requests {visibility : Visibility} (h : visibility.Consistent)
    (moves : List Move) :
    Request.clockAfter visibility.holdsPause (visibility.requests moves) =
      (visibility.after moves).holdsPause := by
  induction moves generalizing visibility with
  | nil => rfl
  | cons first moves ih =>
    rw [requests_cons, Request.clockAfter_append, h.clockAfter_move first]
    exact ih (h.move first)

/-- Whether a move can show a console that is not shown. -/
def Move.mayOpen : Move → Bool
  | openUp | toggle => true
  | _ => false

/-- An opening holds the pause that is switched on at the time, and whoever finds the console open leaves the
pause as it is. -/
theorem Consistent.holdsPause_move {visibility : Visibility} (h : visibility.Consistent) (next : Move)
    (hopen : (visibility.move next).2.state = .opened) :
    (visibility.move next).2.holdsPause =
      if visibility.state = .opened then visibility.holdsPause else visibility.pauseEnabled := by
  have htransition := h.transition next
  generalize visibility.move next = result at *
  cases htransition with
  | quiet hsame hholds => rw [if_pos (hsame.mp hopen), hholds]
  | opens hclosed _ hholds => rw [if_neg (by simp [hclosed]), hholds]
  | closes _ hclosed _ => exact absurd hopen hclosed

theorem opened_of_enforceGate (visibility : Visibility)
    (hopen : visibility.enforceGate.2.state = .opened) : visibility.state = .opened := by
  unfold enforceGate at hopen
  split at hopen
  · cases hopen
  · exact hopen

theorem opened_of_enable {visibility : Visibility} (hopen : visibility.enable.2.state = .opened) :
    visibility.state = .opened := by
  unfold enable at hopen
  split at hopen
  · exact hopen
  · cases hstate : visibility.state with
    | opened => rfl
    | closed => simp [hstate] at hopen
    | disabled => simp [hstate] at hopen

theorem opened_of_close {visibility : Visibility} (hopen : visibility.close.2.state = .opened) :
    visibility.state = .opened := by
  unfold close at hopen
  split at hopen
  · cases hopen
  · exact hopen

theorem opened_of_move {visibility : Visibility} {next : Move} (hnext : next.mayOpen = false)
    (hopen : (visibility.move next).2.state = .opened) : visibility.state = .opened := by
  cases next with
  | enable => exact opened_of_enable hopen
  | disable => cases hopen
  | close => exact opened_of_close hopen
  | openUp | toggle => cases hnext
  | releaseBuild on => exact opened_of_enforceGate { visibility with releaseBuild := on } hopen
  | allowInRelease on => exact opened_of_enforceGate { visibility with allowedInRelease := on } hopen
  | pauseEnabled on => exact hopen

/-- Moves that cannot open the console leave it open only if they have found it open, and then they leave the
pause as it is. -/
theorem Consistent.opened_of_after {visibility : Visibility} (h : visibility.Consistent)
    {moves : List Move} (hmoves : ∀ move ∈ moves, move.mayOpen = false)
    (hopen : (visibility.after moves).state = .opened) :
    visibility.state = .opened ∧ (visibility.after moves).holdsPause = visibility.holdsPause := by
  induction moves generalizing visibility with
  | nil => exact ⟨hopen, rfl⟩
  | cons first moves ih =>
    obtain ⟨hfirst, hrest⟩ := List.forall_mem_cons.mp hmoves
    obtain ⟨hopened, hholds⟩ := ih (h.move first) hrest hopen
    have hstate : visibility.state = .opened := opened_of_move hfirst hopened
    refine ⟨hstate, hholds.trans ?_⟩
    rw [h.holdsPause_move first hopened, if_pos hstate]

end Visibility

end CommandConsole
