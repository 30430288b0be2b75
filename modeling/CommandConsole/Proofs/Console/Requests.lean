import CommandConsole.Proofs.Console.Faults
import CommandConsole.Proofs.Visibility.Clock

/-!
# What a console asks of its host

A console comes to ask something of its host in two ways. The handler of a line puts a request, or a move
that opens or closes the console has it ask for the clock to stop or to go on. Either way the request stands
behind all that were put before it.

## Main definitions

- `Console.asked` — what the handler of a line asks of the host
- `Console.move` — a move of the visibility of a console
- `Console.Moved` — a console is left by another one with moves made and what they ask for put
- `Console.Change`, `Console.change` — a change that settings can ask for
- `Settings.moves`, `Settings.changes` — the moves and all the changes that a change of the settings makes

## Main statements

- `Console.requests_dispatch` — a line that is run puts the requests of its handler
- `Console.move_eq` — what a move changes in a console
- `Console.moved_applySettings` — settings are carried over by moves
-/

namespace CommandConsole

variable {ω ε : Type}

-- ════════════════════════════════════════════════════════════════════════
-- Lines
-- ════════════════════════════════════════════════════════════════════════

def Operation.request? : Operation ω → Option Request
  | request put => some put
  | _ => none

def Deed.request? : Deed ω → Option Request
  | handle operation => operation.request?
  | _ => none

theorem Context.requests_apply (context : Context ω) (operation : Operation ω) :
    (context.apply operation).requests = context.requests ++ operation.request?.toList := by
  cases operation <;> simp [Context.apply, Operation.request?]

namespace Console

/-- What the handler of a line asks of the host, if the line calls one. -/
def asked (console : Console ω ε) (line : String) (world : Option ω) : List Request :=
  match console.registry.find? (Line.read line).command with
  | none => []
  | some command =>
    if (Line.read line).isEmpty ∨ (Line.read line).arguments.length < command.signature.required then []
    else
      ((called line command).performed ((console.echo line).context world)).filterMap Operation.request?

theorem requests_foldl (deeds : List (Deed ω)) (state : Console ω ε × Option ω) :
    (deeds.foldl perform state).1.requests = state.1.requests ++ deeds.filterMap Deed.request? := by
  induction deeds generalizing state with
  | nil => simp
  | cons deed deeds ih =>
    rw [List.foldl_cons, ih]
    cases deed with
    | handle operation =>
      show ((state.1.context state.2).apply operation).requests ++ _ = _
      rw [Context.requests_apply]
      cases hrequest : operation.request? <;> simp [Deed.request?, hrequest, context]
    | push | record | forget | tell | log => rfl

theorem request_reportDeeds (name : String) (result : Except Fault Unit) :
    (reportDeeds name result : List (Deed ω)).filterMap Deed.request? = [] := by
  match result with
  | .ok () => rfl
  | .error (.failed _) => rfl
  | .error (.crashed _) => rfl

theorem request_unknownDeeds (line name : String) (meant? : Option String) :
    (unknownDeeds line name meant? : List (Deed ω)).filterMap Deed.request? = [] := by
  cases meant? <;> rfl

theorem request_handle (operations : List (Operation ω)) :
    (operations.map Deed.handle).filterMap Deed.request? = operations.filterMap Operation.request? := by
  rw [List.filterMap_map]
  rfl

/-- **A line that is run puts the requests of its handler**, behind those that are there. -/
theorem requests_dispatch (console : Console ω ε) (line : String) (world : Option ω) :
    (console.dispatch line world).2.1.requests = console.requests ++ console.asked line world := by
  by_cases hname : (Line.read line).command = ""
  · have hnone : console.asked line world = [] := by
      have hempty : (Line.read line).isEmpty = true := by simpa [Line.isEmpty] using hname
      unfold asked
      split
      · rfl
      · simp [hempty]
    rw [console.dispatch_unnamed world hname, hnone, List.append_nil]
  · obtain ⟨rest, hrest, hfinal⟩ := dispatch_concluded console line world hname
    have hnamed : (Line.read line).isEmpty = false := by simpa [Line.isEmpty] using hname
    have hopening : (openingDeeds line : List (Deed ω)).filterMap Deed.request? = [] := rfl
    rw [hfinal, requests_foldl, List.filterMap_append, hopening, List.nil_append]
    show console.requests ++ _ = _
    congr 1
    unfold asked
    cases hfind : console.registry.find? (Line.read line).command with
    | none =>
      obtain ⟨-, rfl⟩ := hrest.unknown hfind
      exact request_unknownDeeds _ _ _
    | some command =>
      by_cases hshort : (Line.read line).arguments.length < command.signature.required
      · obtain ⟨-, rfl⟩ := hrest.missing command hfind hshort
        simp [hshort, Deed.request?]
      · obtain ⟨-, rfl⟩ := hrest.invoked command hfind (Nat.not_lt.mp hshort)
        rw [List.filterMap_append, request_handle, request_reportDeeds, List.append_nil]
        simp only [hnamed, hshort, Bool.false_eq_true, or_self, if_false]
        rfl

-- ════════════════════════════════════════════════════════════════════════
-- Moves of a console
-- ════════════════════════════════════════════════════════════════════════

def move (console : Console ω ε) : Visibility.Move → Console ω ε
  | .enable => console.enable
  | .disable => console.disable
  | .openUp => console.openUp
  | .close => console.close
  | .toggle => console.toggle
  | .releaseBuild on => console.setReleaseBuild on
  | .allowInRelease on => console.setAllowedInRelease on
  | .pauseEnabled on => console.setPauseEnabled on

/-- The one console is left by the other with the moves made, and with what they ask of the host put. -/
structure Moved (before after : Console ω ε) (moves : List Visibility.Move) : Prop where
  visibility : after.visibility = before.visibility.after moves
  requests : after.requests = before.requests ++ before.visibility.requests moves

theorem Moved.refl (console : Console ω ε) : Moved console console [] :=
  ⟨rfl, (List.append_nil _).symm⟩

theorem Moved.trans {first second third : Console ω ε} {earlier later : List Visibility.Move}
    (h : Moved first second earlier) (h' : Moved second third later) :
    Moved first third (earlier ++ later) where
  visibility := by rw [h'.visibility, h.visibility, Visibility.after_append]
  requests := by
    rw [h'.requests, h.requests, h.visibility, Visibility.requests_append, List.append_assoc]

/-- What the observers record of an effect. -/
def recorded (console : Console ω ε) : Visibility.Effect → List ε
  | .opened => console.onOpened.notify ()
  | .closed => console.onClosed.notify ()
  | .pause | .resume => []

theorem applyEffect_eq (console : Console ω ε) (effect : Visibility.Effect) : ∃ diagnostics,
    console.applyEffect effect =
      { console with
        requests := console.requests ++ effect.request?.toList
        notices := console.notices ++ console.recorded effect
        diagnostics } := by
  cases effect with
  | pause | resume =>
    exact ⟨console.diagnostics, by simp [applyEffect, Visibility.Effect.request?, recorded]⟩
  | opened | closed =>
    exact ⟨_, by simp only [applyEffect, Visibility.Effect.request?, Option.toList_none, List.append_nil]; rfl⟩

theorem foldl_applyEffect (effects : List Visibility.Effect) (console : Console ω ε) : ∃ diagnostics,
    effects.foldl applyEffect console =
      { console with
        requests := console.requests ++ effects.filterMap Visibility.Effect.request?
        notices := console.notices ++ effects.flatMap console.recorded
        diagnostics } := by
  induction effects generalizing console with
  | nil => exact ⟨console.diagnostics, by simp⟩
  | cons effect effects ih =>
    obtain ⟨diagnostics, hone⟩ := console.applyEffect_eq effect
    obtain ⟨diagnostics', hrest⟩ := ih (console.applyEffect effect)
    have hsame : (console.applyEffect effect).recorded = console.recorded := by rw [hone]; rfl
    have hrequests : (effect :: effects).filterMap Visibility.Effect.request? =
        effect.request?.toList ++ effects.filterMap Visibility.Effect.request? := by
      cases effect <;> rfl
    refine ⟨diagnostics', ?_⟩
    rw [List.foldl_cons, hrest, hsame, hone, hrequests, List.flatMap_cons, ← List.append_assoc,
      ← List.append_assoc]

/-- **A move changes the visibility**, and beyond that puts requests, calls observers, and tells the log. -/
theorem move_eq (console : Console ω ε) (next : Visibility.Move) : ∃ diagnostics,
    console.move next =
      { console with
        visibility := (console.visibility.move next).2
        requests := console.requests ++ (console.visibility.move next).1.filterMap Visibility.Effect.request?
        notices := console.notices ++ (console.visibility.move next).1.flatMap console.recorded
        diagnostics } := by
  cases next with
  | enable =>
    show ∃ diagnostics, console.enable = { console with
      visibility := console.visibility.enable.2
      requests := console.requests ++ []
      notices := console.notices ++ []
      diagnostics }
    rw [List.append_nil, List.append_nil, enable]
    generalize console.visibility.enable = result
    obtain ⟨allowed, visibility⟩ := result
    cases allowed <;> exact ⟨_, rfl⟩
  | pauseEnabled on =>
    refine ⟨console.diagnostics, ?_⟩
    simp [move, setPauseEnabled, Visibility.move]
  | disable | openUp | close | toggle | releaseBuild | allowInRelease =>
    exact foldl_applyEffect _ { console with visibility := _ }

theorem moved_move (console : Console ω ε) (next : Visibility.Move) :
    Moved console (console.move next) [next] := by
  obtain ⟨diagnostics, hmove⟩ := console.move_eq next
  rw [hmove]
  exact ⟨rfl, congrArg _ (console.visibility.picked_singleton Visibility.Effect.request? next).symm⟩

/-- A change of a console that its settings can ask for. -/
inductive Change where
  | move (move : Visibility.Move)
  | setFontSize (size : Nat)
  | editHistory (edit : History.Edit)
  | editOutput (edit : Scrollback.Edit)

def change (console : Console ω ε) : Change → Console ω ε
  | .move move => console.move move
  | .setFontSize size => console.setFontSize size
  | .editHistory edit => console.editHistory edit
  | .editOutput edit => console.editOutput edit

def Change.move? : Change → Option Visibility.Move
  | move next => some next
  | _ => none

theorem moved_change (console : Console ω ε) (next : Change) :
    Moved console (console.change next) next.move?.toList := by
  cases next with
  | move next => exact console.moved_move next
  | setFontSize | editHistory | editOutput => exact ⟨rfl, (List.append_nil _).symm⟩

theorem moved_foldl_change (changes : List Change) (console : Console ω ε) :
    Moved console (changes.foldl change console) (changes.filterMap Change.move?) := by
  induction changes generalizing console with
  | nil => exact Moved.refl console
  | cons next changes ih =>
    have hboth := (console.moved_change next).trans (ih (console.change next))
    cases next with
    | move | setFontSize | editHistory | editOutput => exact hboth

end Console

/-- The moves that carry over what differs between two settings. -/
def Settings.moves (before after : Settings) : List Visibility.Move :=
  (if before.allowedInRelease != after.allowedInRelease then
    [.allowInRelease after.allowedInRelease] else []) ++
  (if before.pauseEnabled != after.pauseEnabled then [.pauseEnabled after.pauseEnabled] else []) ++
  (if before.enabled != after.enabled then [if after.enabled then .enable else .disable] else [])

theorem Settings.moves_self (settings : Settings) : settings.moves settings = [] := by
  simp [moves]

/-- No change of the settings opens the console. -/
theorem Settings.mayOpen_moves (before after : Settings) :
    ∀ move ∈ before.moves after, move.mayOpen = false := by
  intro move hmove
  rcases List.mem_append.mp hmove with hswitch | henabled
  · rcases List.mem_append.mp hswitch with hgate | hpause
    · split at hgate
      · rw [List.mem_singleton.mp hgate]
        rfl
      · cases hgate
    · split at hpause
      · rw [List.mem_singleton.mp hpause]
        rfl
      · cases hpause
  · split at henabled
    · rw [List.mem_singleton.mp henabled]
      cases after.enabled <;> rfl
    · cases henabled

/-- The changes that carry over what differs between two settings, in order. -/
def Settings.changes (before after : Settings) : List Console.Change :=
  (if before.allowedInRelease != after.allowedInRelease then
    [.move (.allowInRelease after.allowedInRelease)] else []) ++
  (if before.pauseEnabled != after.pauseEnabled then [.move (.pauseEnabled after.pauseEnabled)] else []) ++
  (if before.fontSize != after.fontSize then [.setFontSize after.fontSize] else []) ++
  (if before.historyCapacity != after.historyCapacity then
    [.editHistory (.limit after.historyCapacity)] else []) ++
  (if before.maxOutputRows != after.maxOutputRows then
    [.editOutput (.limit after.maxOutputRows)] else []) ++
  (if before.enabled != after.enabled then [.move (if after.enabled then .enable else .disable)] else [])

theorem Settings.filterMap_changes {β : Type} (pick : Console.Change → Option β)
    (before after : Settings) :
    (before.changes after).filterMap pick =
      (if before.allowedInRelease != after.allowedInRelease then
        (pick (.move (.allowInRelease after.allowedInRelease))).toList else []) ++
      (if before.pauseEnabled != after.pauseEnabled then
        (pick (.move (.pauseEnabled after.pauseEnabled))).toList else []) ++
      (if before.fontSize != after.fontSize then (pick (.setFontSize after.fontSize)).toList else []) ++
      (if before.historyCapacity != after.historyCapacity then
        (pick (.editHistory (.limit after.historyCapacity))).toList else []) ++
      (if before.maxOutputRows != after.maxOutputRows then
        (pick (.editOutput (.limit after.maxOutputRows))).toList else []) ++
      (if before.enabled != after.enabled then
        (pick (.move (if after.enabled then .enable else .disable))).toList else []) := by
  have hone (changed : Bool) (next : Console.Change) :
      (if changed then [next] else []).filterMap pick = if changed then (pick next).toList else [] := by
    cases changed with
    | false => rfl
    | true => cases hpick : pick next <;> simp [hpick]
  simp only [changes, List.filterMap_append, hone]

theorem Settings.moves_changes (before after : Settings) :
    (before.changes after).filterMap Console.Change.move? = before.moves after := by
  rw [filterMap_changes]
  simp [moves, Console.Change.move?]

namespace Console

/-- Settings are carried over by the changes that they ask for, one after the other. -/
theorem applySettings_eq_foldl (console : Console ω ε) (before after : Settings) :
    console.applySettings before after = (before.changes after).foldl change console := by
  have hone (changed : Bool) (next : Change) (console : Console ω ε) :
      (if changed then [next] else []).foldl change console =
        changeIf changed (·.change next) console := by
    cases changed <;> rfl
  have hswitch (on : Bool) :
      (fun console : Console ω ε => console.change (.move (if on then .enable else .disable))) =
        fun console => if on then console.enable else console.disable := by
    funext console
    cases on <;> rfl
  simp only [Settings.changes, List.foldl_append, hone, hswitch]
  rfl

/-- **Settings are carried over by moves.** What else they govern asks nothing of the host. -/
theorem moved_applySettings (console : Console ω ε) (before after : Settings) :
    Moved console (console.applySettings before after) (before.moves after) := by
  rw [applySettings_eq_foldl, ← Settings.moves_changes]
  exact moved_foldl_change _ console

end Console

end CommandConsole
