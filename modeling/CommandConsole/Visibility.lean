/-!
# Visibility

Whether the console is disabled, closed or open. A release build keeps it disabled unless the console
is allowed there. Opening and closing are announced, and may stop and restart the clock of the host.

## Main definitions

- `Visibility.State` — disabled, closed or open
- `Visibility.Effect` — what a transition announces and asks for
- `Visibility` — the state with the switches that govern it
- `Visibility.enable`, `disable`, `openUp`, `close`, `toggle` — the transitions
- `Visibility.Move`, `Visibility.move` — the transitions and switches as data

## Design notes

A transition answers its effects in the order in which they take place. The pause that was asked for at
an opening is remembered until the closing, so that it is taken back even if the coupling to the clock
was switched off in between.
-/

namespace CommandConsole

/-- Whether the console can be seen. -/
inductive Visibility.State where
  /-- It does not open. -/
  | disabled
  /-- It can be opened. -/
  | closed
  | opened
  deriving DecidableEq, Repr, Inhabited

/-- What a transition announces, or asks of the host. -/
inductive Visibility.Effect where
  /-- The clock of the host should stop. -/
  | pause
  /-- The clock of the host should go on. -/
  | resume
  | opened
  | closed
  deriving DecidableEq, Repr

/-- The state of the console with the switches that govern it. -/
structure Visibility where
  /-- Whether the console can be seen. -/
  state : Visibility.State := .disabled
  releaseBuild : Bool := false
  /-- Whether the console may be enabled in a release build. -/
  allowedInRelease : Bool := false
  /-- Whether opening and closing stop and restart the clock of the host. -/
  pauseEnabled : Bool := false
  /-- Whether the clock was asked to stop at the last opening and not yet to go on. -/
  holdsPause : Bool := false
  deriving DecidableEq, Repr

namespace Visibility

/-- A disabled console of a release build or another one. -/
def new (releaseBuild : Bool) : Visibility := { releaseBuild }

instance : Inhabited Visibility := ⟨{}⟩

/-- Whether the console is shown. -/
def isOpen (visibility : Visibility) : Bool := visibility.state == .opened

/-- Whether the console can be opened. -/
def isEnabled (visibility : Visibility) : Bool := visibility.state != .disabled

/-- Whether the release build forbids the console. -/
def isGated (visibility : Visibility) : Bool :=
  visibility.releaseBuild && !visibility.allowedInRelease

/-- Show a closed console. -/
def openUp (visibility : Visibility) : List Effect × Visibility :=
  match visibility.state with
  | .closed =>
    if visibility.pauseEnabled then
      ([.pause, .opened], { visibility with state := .opened, holdsPause := true })
    else ([.opened], { visibility with state := .opened })
  | _ => ([], visibility)

/-- Hide an open console. -/
def close (visibility : Visibility) : List Effect × Visibility :=
  match visibility.state with
  | .opened =>
    (if visibility.holdsPause then [.resume, .closed] else [.closed],
      { visibility with state := .closed, holdsPause := false })
  | _ => ([], visibility)

/-- Hide an open console, and show it otherwise. -/
def toggle (visibility : Visibility) : List Effect × Visibility :=
  match visibility.state with
  | .opened => visibility.close
  | _ => visibility.openUp

/-- Let a disabled console be opened. Answers whether the build allows that. -/
def enable (visibility : Visibility) : Bool × Visibility :=
  if visibility.isGated then (false, visibility)
  else
    (true, match visibility.state with
      | .disabled => { visibility with state := .closed }
      | _ => visibility)

/-- Hide the console if it is open, and let it not be opened any more. -/
def disable (visibility : Visibility) : List Effect × Visibility :=
  let (effects, visibility) := visibility.close
  (effects, { visibility with state := .disabled })

/-- Disable a console that the build forbids. -/
def enforceGate (visibility : Visibility) : List Effect × Visibility :=
  if visibility.isGated then visibility.disable else ([], visibility)

/-- Say whether this is a release build. -/
def setReleaseBuild (visibility : Visibility) (on : Bool) : List Effect × Visibility :=
  { visibility with releaseBuild := on }.enforceGate

/-- Allow or forbid the console in release builds. -/
def setAllowedInRelease (visibility : Visibility) (on : Bool) : List Effect × Visibility :=
  { visibility with allowedInRelease := on }.enforceGate

/-- Couple opening and closing to the clock, or uncouple them. This counts from the next opening. -/
def setPauseEnabled (visibility : Visibility) (on : Bool) : Visibility :=
  { visibility with pauseEnabled := on }

/-- A transition, or the setting of a switch. -/
inductive Move where
  | enable
  | disable
  | openUp
  | close
  | toggle
  | releaseBuild (on : Bool)
  | allowInRelease (on : Bool)
  | pauseEnabled (on : Bool)
  deriving DecidableEq, Repr

/-- Make a move. Answers the effects. -/
def move (visibility : Visibility) : Move → List Effect × Visibility
  | .enable => ([], visibility.enable.2)
  | .disable => visibility.disable
  | .openUp => visibility.openUp
  | .close => visibility.close
  | .toggle => visibility.toggle
  | .releaseBuild on => visibility.setReleaseBuild on
  | .allowInRelease on => visibility.setAllowedInRelease on
  | .pauseEnabled on => ([], visibility.setPauseEnabled on)

end Visibility

end CommandConsole
