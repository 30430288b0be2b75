import CommandConsole.Host.Basic
import CommandConsole.Proofs.Console.Requests
import CommandConsole.Proofs.Visibility.Toggles

/-!
# What a console tells its host

The host is one of those who are told of the events of its console. Others come and go. As long as nobody ends
the connections of the host itself, it is told of each event once, whoever else is told of it.

## Main definitions

- `Console.Listener`, `Console.Event` — who wants to be told of an event by the console, and the events
- `Console.listen`, `Console.unlisten` — begin and end a connection
- `Observers.Carries`, `Console.Wired` — the host has its own connections, and nobody else speaks to it
- `Console.Tells` — what the host has been told on the way from one console to another

## Main statements

- `Console.Wired.tells_move` — a move tells the host what it announces
- `Console.Wired.tells_applySettings` — settings tell the host what their moves announce
- `Console.Wired.tells_dispatch` — a line that is run tells the host if its command is unknown
-/

namespace CommandConsole

def Notification.toggle? : Notification → Option Bool
  | toggled isOpen => some isOpen
  | unknownCommand _ => none

def Notification.line? : Notification → Option String
  | toggled _ => none
  | unknownCommand line => some line

-- ════════════════════════════════════════════════════════════════════════
-- Observers
-- ════════════════════════════════════════════════════════════════════════

namespace Observers

variable {α ε : Type}

/-- The first connection is the one of the host, which is told what `own` makes of an event. No other connection
is mistaken for it. -/
structure Carries (observers : Observers α (Notice ε)) (own : α → Notification) : Prop where
  connected : ∃ others, observers.connected = (0, fun value => .toHost (own value)) :: others ∧
    ∀ other ∈ others, other.1 ≠ 0 ∧ ∀ value, (other.2 value).notification? = none
  nextId : observers.nextId ≠ 0

variable {observers : Observers α (Notice ε)} {own : α → Notification}

theorem carries_first (own : α → Notification) :
    (connect empty fun value => (.toHost (own value) : Notice ε)).2.Carries own :=
  ⟨⟨[], rfl, by simp⟩, by simp [connect]⟩

/-- The host is told of an event once. -/
theorem Carries.notify (h : observers.Carries own) (value : α) :
    (observers.notify value).filterMap Notice.notification? = [own value] := by
  obtain ⟨others, hconnected, hothers⟩ := h.connected
  have hnone : (others.map fun other => other.2 value).filterMap Notice.notification? = [] := by
    rw [List.filterMap_map]
    exact List.filterMap_eq_nil_iff.mpr fun other hmem => (hothers other hmem).2 value
  show (observers.connected.map fun other => other.2 value).filterMap Notice.notification? = [own value]
  rw [hconnected]
  exact congrArg (own value :: ·) hnone

theorem Carries.connect (h : observers.Carries own) (callback : α → ε) :
    (observers.connect fun value => .recorded (callback value)).2.Carries own := by
  obtain ⟨others, hconnected, hothers⟩ := h.connected
  refine ⟨⟨others ++ [(observers.nextId, fun value => .recorded (callback value))], ?_, ?_⟩, ?_⟩
  · show observers.connected ++ _ = _
    rw [hconnected, List.cons_append]
  · intro other hmem
    rcases List.mem_append.mp hmem with hother | hnew
    · exact hothers other hother
    · rw [List.mem_singleton.mp hnew]
      exact ⟨h.nextId, fun _ => rfl⟩
  · exact Nat.succ_ne_zero _

theorem Carries.disconnect (h : observers.Carries own) {id : Nat} (hid : id ≠ 0) :
    (observers.disconnect id).2.Carries own := by
  obtain ⟨others, hconnected, hothers⟩ := h.connected
  refine ⟨⟨others.filter (·.1 != id), ?_, ?_⟩, h.nextId⟩
  · show observers.connected.filter _ = _
    rw [hconnected, List.filter_cons_of_pos]
    simpa using Ne.symm hid
  · exact fun other hmem => hothers other (List.mem_filter.mp hmem).1

end Observers

namespace Console

variable {ω ε : Type}

-- ════════════════════════════════════════════════════════════════════════
-- Connections
-- ════════════════════════════════════════════════════════════════════════

inductive Event where
  | opened
  | closed
  | unknown
  deriving DecidableEq, Repr

/-- Someone who wants to be told of an event, and what is recorded then. -/
inductive Listener (ε : Type) where
  | opened (callback : Unit → ε)
  | closed (callback : Unit → ε)
  | unknown (callback : String → ε)

def listen (console : Console ω (Notice ε)) : Listener ε → Console ω (Notice ε)
  | .opened callback =>
    { console with onOpened := (console.onOpened.connect fun value => .recorded (callback value)).2 }
  | .closed callback =>
    { console with onClosed := (console.onClosed.connect fun value => .recorded (callback value)).2 }
  | .unknown callback =>
    { console with onUnknown := (console.onUnknown.connect fun line => .recorded (callback line)).2 }

def unlisten (console : Console ω ε) (event : Event) (id : Nat) : Console ω ε :=
  match event with
  | .opened => { console with onOpened := (console.onOpened.disconnect id).2 }
  | .closed => { console with onClosed := (console.onClosed.disconnect id).2 }
  | .unknown => { console with onUnknown := (console.onUnknown.disconnect id).2 }

/-- The host is told of all events. -/
structure Wired (console : Console ω (Notice ε)) : Prop where
  opened : console.onOpened.Carries fun _ => .toggled true
  closed : console.onClosed.Carries fun _ => .toggled false
  unknown : console.onUnknown.Carries .unknownCommand

variable {console : Console ω (Notice ε)}

theorem Wired.listen (h : console.Wired) (listener : Listener ε) : (console.listen listener).Wired := by
  cases listener with
  | opened callback => exact ⟨h.opened.connect callback, h.closed, h.unknown⟩
  | closed callback => exact ⟨h.opened, h.closed.connect callback, h.unknown⟩
  | unknown callback => exact ⟨h.opened, h.closed, h.unknown.connect callback⟩

theorem Wired.unlisten (h : console.Wired) (event : Event) {id : Nat} (hid : id ≠ 0) :
    (console.unlisten event id).Wired := by
  cases event with
  | opened => exact ⟨h.opened.disconnect hid, h.closed, h.unknown⟩
  | closed => exact ⟨h.opened, h.closed.disconnect hid, h.unknown⟩
  | unknown => exact ⟨h.opened, h.closed, h.unknown.disconnect hid⟩

-- ════════════════════════════════════════════════════════════════════════
-- What the host is told
-- ════════════════════════════════════════════════════════════════════════

def notifications (console : Console ω (Notice ε)) : List Notification :=
  console.notices.filterMap Notice.notification?

/-- On the way from the one console to the other, the host has been told this. It is told of what comes, too. -/
structure Tells (before after : Console ω (Notice ε)) (told : List Notification) : Prop where
  wired : after.Wired
  notifications : after.notifications = before.notifications ++ told

theorem Tells.quiet {before after : Console ω (Notice ε)} (h : after.Wired)
    (hnotices : after.notices = before.notices) : Tells before after [] :=
  ⟨h, by rw [List.append_nil, Console.notifications, hnotices, Console.notifications]⟩

theorem Tells.trans {first second third : Console ω (Notice ε)} {earlier later : List Notification}
    (h : Tells first second earlier) (h' : Tells second third later) :
    Tells first third (earlier ++ later) :=
  ⟨h'.wired, by rw [h'.notifications, h.notifications, List.append_assoc]⟩

theorem Wired.filterMap_recorded (h : console.Wired) (effects : List Visibility.Effect) :
    (effects.flatMap console.recorded).filterMap Notice.notification? =
      (effects.filterMap Visibility.Effect.toggle?).map .toggled := by
  induction effects with
  | nil => rfl
  | cons effect effects ih =>
    rw [List.flatMap_cons, List.filterMap_append, ih]
    cases effect with
    | pause | resume => rfl
    | opened =>
      rw [recorded, h.opened.notify]
      rfl
    | closed =>
      rw [recorded, h.closed.notify]
      rfl

/-- **A move tells the host what it announces.** -/
theorem Wired.tells_move (h : console.Wired) (next : Visibility.Move) :
    Tells console (console.move next) ((console.visibility.toggles [next]).map .toggled) := by
  obtain ⟨diagnostics, hmove⟩ := console.move_eq next
  rw [hmove]
  refine ⟨⟨h.opened, h.closed, h.unknown⟩, ?_⟩
  show (console.notices ++ _).filterMap Notice.notification? = _
  rw [List.filterMap_append, h.filterMap_recorded, Visibility.toggles, Visibility.picked_singleton]
  rfl

theorem Wired.tells_change (h : console.Wired) (next : Change) :
    Tells console (console.change next)
      ((console.visibility.toggles next.move?.toList).map .toggled) := by
  cases next with
  | move next => exact h.tells_move next
  | setFontSize | editHistory | editOutput => exact Tells.quiet ⟨h.opened, h.closed, h.unknown⟩ rfl

theorem Wired.tells_foldl_change (h : console.Wired) (changes : List Change) :
    Tells console (changes.foldl change console)
      ((console.visibility.toggles (changes.filterMap Change.move?)).map .toggled) := by
  induction changes generalizing console with
  | nil => exact Tells.quiet h rfl
  | cons next changes ih =>
    have hone := h.tells_change next
    have hboth := hone.trans (ih hone.wired)
    rw [(console.moved_change next).visibility, ← List.map_append, Visibility.toggles, Visibility.toggles,
      ← Visibility.picked_append] at hboth
    cases next with
    | move | setFontSize | editHistory | editOutput => exact hboth

/-- **Settings tell the host what their moves announce.** -/
theorem Wired.tells_applySettings (h : console.Wired) (before after : Settings) :
    Tells console (console.applySettings before after)
      ((console.visibility.toggles (before.moves after)).map .toggled) := by
  rw [applySettings_eq_foldl, ← Settings.moves_changes]
  exact h.tells_foldl_change _

/-- The observers of unknown commands are called exactly if the command of the line is unknown. -/
theorem notices_dispatch (console : Console ω ε) (line : String) (world : Option ω) :
    (console.dispatch line world).2.1.notices =
      console.notices ++
        if (console.dispatch line world).1 = .unknownCommand then console.onUnknown.notify line else [] := by
  by_cases hname : (Line.read line).command = ""
  · rw [console.dispatch_unnamed world hname]
    exact (List.append_nil _).symm
  · obtain ⟨rest, hrest, hfinal⟩ := dispatch_concluded console line world hname
    have hopening : (openingDeeds line : List (Deed ω)).filterMap Deed.told? = [] := rfl
    rw [hfinal, notices_foldl, List.filterMap_append, hopening, hrest.told.2, List.nil_append]
    split
    · exact congrArg (console.notices ++ ·) (List.append_nil _)
    · rfl

/-- **A line that is run tells the host if its command is unknown**, and then the line as it was typed. -/
theorem Wired.tells_dispatch (h : console.Wired) (line : String) (world : Option ω) :
    Tells console (console.dispatch line world).2.1
      (if (console.dispatch line world).1 = .unknownCommand then [.unknownCommand line] else []) := by
  have hunshaken := console.unshaken_dispatch line world
  refine ⟨⟨hunshaken.onOpened ▸ h.opened, hunshaken.onClosed ▸ h.closed, hunshaken.onUnknown ▸ h.unknown⟩, ?_⟩
  rw [notifications, notices_dispatch, List.filterMap_append, notifications]
  split
  · rw [h.unknown.notify]
  · rfl

end Console

end CommandConsole
