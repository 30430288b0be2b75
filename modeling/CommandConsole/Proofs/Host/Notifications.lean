import CommandConsole.Proofs.Host.Clock
import CommandConsole.Proofs.Host.Runs

/-!
# Notifications on their way

What the host is told by its console waits in a channel until a frame sends it on. Openings and closings come out
as messages of their own, and so do lines whose commands are unknown. Nothing is lost, repeated or overtaken on
this way. So the messages that have been sent tell what can be seen, each time that a frame has sent them.

## Main definitions

- `Host.turnsOf`, `Host.runsOf` — the change of what can be seen by something that happens, and the lines that are
  run then, with their outcomes
- `Host.toggled`, `Host.reported` — the messages that have been sent, and those that are still to come
- `Host.Told` — what the host has been told on the way from one state of the application to another
- `Host.Happening.severs` — a connection of the host itself is ended

## Main statements

- `Host.Attached.told_happen` — the host is told what happens, and of nothing else
- `Host.Attached.told_afterRun` — so it is in the course of a run
- `Host.notified_of_turns` — the messages about openings and closings are the changes of what can be seen
-/

namespace CommandConsole.Host

variable {ω ε : Type}

/-- The change of what can be seen by something that happens, if there is one. -/
def turnsOf (host : Host ω ε) (happening : Happening ω ε) : List Bool :=
  Visibility.turned host.console.visibility (host.happen happening).console.visibility

def runsOfUse (host : Host ω ε) : Console.Use ω → List (String × Outcome)
  | .execute line world => [(line, (host.console.dispatch line world).1)]
  | _ => []

/-- The lines that are run when something happens, with their outcomes. -/
def runsOf (host : Host ω ε) : Happening ω ε → List (String × Outcome)
  | .part .runPending => host.runs host.pending
  | .doing (.act (.step (.use use) _) _) => host.runsOfUse use
  | _ => []

/-- The lines among them whose commands are not known. -/
def unknownAmong (runs : List (String × Outcome)) : List String :=
  (runs.filter fun run => run.2 = .unknownCommand).map Prod.fst

theorem unknownAmong_append (earlier later : List (String × Outcome)) :
    unknownAmong (earlier ++ later) = unknownAmong earlier ++ unknownAmong later := by
  simp [unknownAmong]

/-- A connection of the host itself is ended: they are the first ones, for each of the events. -/
def Happening.severs : Happening ω ε → Bool
  | .doing (.disconnect _ id) => id == 0
  | _ => false

/-- The messages about openings and closings, those that are sent and those that are still in the channel. -/
def toggled (host : Host ω ε) : List Bool :=
  host.outbox.toggles ++ host.channel.filterMap Notification.toggle?

/-- The messages about lines with unknown commands. -/
def reported (host : Host ω ε) : List String :=
  host.outbox.unknown ++ host.channel.filterMap Notification.line?

theorem outbox_sendNotifications (host : Host ω ε) :
    host.sendNotifications.outbox.toggles = host.toggled ∧
      host.sendNotifications.outbox.unknown = host.reported := by
  rw [sendNotifications_eq]
  exact ⟨rfl, rfl⟩

-- ════════════════════════════════════════════════════════════════════════
-- What the host is told
-- ════════════════════════════════════════════════════════════════════════

/-- The host is told of all events, and it has collected what it was told. -/
structure Attached (host : Host ω ε) : Prop where
  wired : host.console.Wired
  collected : host.console.notices = []

/-- On the way from the one application to the other, the host has been told of these openings and closings and of
these lines. It is told of what comes, too. -/
structure Told (before after : Host ω ε) (turns : List Bool) (lines : List String) : Prop where
  attached : after.Attached
  toggled : after.toggled = before.toggled ++ turns
  reported : after.reported = before.reported ++ lines

theorem Told.trans {first second third : Host ω ε} {turns turns' : List Bool} {lines lines' : List String}
    (h : Told first second turns lines) (h' : Told second third turns' lines') :
    Told first third (turns ++ turns') (lines ++ lines') where
  attached := h'.attached
  toggled := by rw [h'.toggled, h.toggled, List.append_assoc]
  reported := by rw [h'.reported, h.reported, List.append_assoc]

section Attached

variable {host : Host ω ε}

theorem Told.quiet {after : Host ω ε} (hafter : after.Attached)
    (htoggled : after.toggled = host.toggled) (hreported : after.reported = host.reported) :
    Told host after [] [] :=
  ⟨hafter, by rw [htoggled, List.append_nil], by rw [hreported, List.append_nil]⟩

theorem Attached.told_refl (h : host.Attached) : Told host host [] [] := Told.quiet h rfl rfl

/-- What the console has told the host is collected. -/
theorem Attached.told_collect (h : host.Attached) {console : Console ω (Notice ε)} (world : ω)
    {told : List Notification} (htells : host.console.Tells console told) :
    Told host { host with console, world }.collect (told.filterMap Notification.toggle?)
      (told.filterMap Notification.line?) := by
  have hnone : host.console.notifications = [] := by rw [Console.notifications, h.collected]; rfl
  have htold : console.notices.filterMap Notice.notification? = told := by
    rw [← List.nil_append told, ← hnone]
    exact htells.notifications
  refine ⟨⟨⟨htells.wired.opened, htells.wired.closed, htells.wired.unknown⟩, rfl⟩, ?_, ?_⟩
  · show host.outbox.toggles ++ (host.channel ++ console.notices.filterMap _).filterMap _ = _
    rw [htold, List.filterMap_append, ← List.append_assoc]
    rfl
  · show host.outbox.unknown ++ (host.channel ++ console.notices.filterMap _).filterMap _ = _
    rw [htold, List.filterMap_append, ← List.append_assoc]
    rfl

/-- A change of the console that tells nobody anything. -/
theorem Attached.told_silent (h : host.Attached) {console : Console ω (Notice ε)} (hwired : console.Wired)
    (hnotices : console.notices = host.console.notices) : Told host { host with console }.collect [] [] :=
  h.told_collect host.world (Console.Tells.quiet hwired hnotices)

theorem filterMap_toggled (turns : List Bool) :
    (turns.map Notification.toggled).filterMap Notification.toggle? = turns ∧
      (turns.map Notification.toggled).filterMap Notification.line? = [] := by
  simp [List.filterMap_map, Function.comp_def, Notification.toggle?, Notification.line?]

theorem Attached.told_toggles (h : host.Attached) {console : Console ω (Notice ε)} {turns : List Bool}
    (htells : host.console.Tells console (turns.map .toggled)) :
    Told host { host with console }.collect turns [] := by
  have htold := h.told_collect host.world htells
  rwa [(filterMap_toggled turns).1, (filterMap_toggled turns).2] at htold

theorem Attached.told_dispatch (h : host.Attached) (line : String) (world : Option ω) (left : ω) :
    Told host { host with console := (host.console.dispatch line world).2.1, world := left }.collect []
      (unknownAmong [(line, (host.console.dispatch line world).1)]) := by
  have htold := h.told_collect left (h.wired.tells_dispatch line world)
  by_cases hunknown : (host.console.dispatch line world).1 = .unknownCommand
  · rw [if_pos hunknown] at htold
    rw [hunknown]
    exact htold
  · have hknown : unknownAmong [(line, (host.console.dispatch line world).1)] = [] := by
      simp [unknownAmong, hunknown]
    rw [if_neg hunknown] at htold
    rw [hknown]
    exact htold

-- ════════════════════════════════════════════════════════════════════════
-- Frames
-- ════════════════════════════════════════════════════════════════════════

theorem Attached.told_foldl_runLine (h : host.Attached) (lines : List String) :
    Told host (lines.foldl runLine host) [] (unknownAmong (host.runs lines)) := by
  induction lines generalizing host with
  | nil => exact h.told_refl
  | cons line lines ih =>
    have hone : Told host (host.runLine line) []
        (unknownAmong [(line, (host.console.executeIn line host.world).1)]) := h.told_dispatch line _ _
    have hboth := hone.trans (ih hone.attached)
    rw [← unknownAmong_append] at hboth
    exact hboth

theorem Attached.told_applySettings (h : host.Attached) :
    Told host host.applySettings
      (host.console.visibility.toggles (host.applied.moves host.settings)) [] := by
  unfold applySettings
  split
  · rename_i hsame
    rw [hsame, Settings.moves_self]
    exact h.told_refl
  · -- that the settings are applied is told to the log before
    let noted := host.console.note .debug ("Console: applying config " ++ host.settings.summary)
    have hnoted : noted.Wired := ⟨h.wired.opened, h.wired.closed, h.wired.unknown⟩
    have htells := hnoted.tells_applySettings host.applied host.settings
    have htold := h.told_toggles ⟨htells.wired, htells.notifications⟩
    exact ⟨⟨htold.attached.wired, htold.attached.collected⟩, htold.toggled, htold.reported⟩

theorem Attached.told_part (h : host.Attached) (part : Part) :
    Told host (host.runPart part) (host.console.visibility.toggles (host.moves (.part part : Step ω)))
      (unknownAmong (host.runsOf (.part part))) := by
  cases part with
  | applySettings => exact h.told_applySettings
  | runPending =>
    have hlines := h.told_foldl_runLine host.pending
    exact ⟨⟨hlines.attached.wired, hlines.attached.collected⟩, hlines.toggled, hlines.reported⟩
  | serveRequests =>
    have htaken : Told host (host.onConsole (·.takeRequests)).2 [] [] :=
      h.told_silent ⟨h.wired.opened, h.wired.closed, h.wired.unknown⟩ rfl
    show Told host host.serveRequests [] []
    rw [serveRequests_eq]
    exact ⟨⟨htaken.attached.wired, htaken.attached.collected⟩, htaken.toggled, htaken.reported⟩
  | sendNotifications =>
    obtain ⟨htoggles, hunknown⟩ := host.outbox_sendNotifications
    exact Told.quiet ⟨h.wired, h.collected⟩ ((List.append_nil _).trans htoggles)
      ((List.append_nil _).trans hunknown)
  | showCaptured =>
    exact Told.quiet ⟨⟨h.wired.opened, h.wired.closed, h.wired.unknown⟩, h.collected⟩ rfl rfl
  | readTyped | queueInputs | print => exact Told.quiet ⟨h.wired, h.collected⟩ rfl rfl

-- ════════════════════════════════════════════════════════════════════════
-- What is done apart from the frames
-- ════════════════════════════════════════════════════════════════════════

theorem Attached.told_use (h : host.Attached) (use : Console.Use ω) :
    Told host (host.changeConsole (·.use use)) [] (unknownAmong (host.runsOfUse use)) := by
  cases use with
  | execute line world => exact h.told_dispatch line world host.world
  | offer name place values =>
    obtain ⟨registry, completion, hoffer⟩ := host.console.offer_eq name place values
    have hwired : (host.console.offer name place values).2.Wired := by
      rw [hoffer]
      exact ⟨h.wired.opened, h.wired.closed, h.wired.unknown⟩
    exact h.told_silent hwired (congrArg (·.notices) hoffer)
  | register | remove | complete | resetCompletion | inputEdited =>
    exact h.told_silent ⟨h.wired.opened, h.wired.closed, h.wired.unknown⟩ rfl

theorem Attached.told_does (h : host.Attached) (doing : Doing ω ε)
    (hkept : (Happening.doing doing).severs = false) :
    Told host (host.does doing) (host.console.visibility.toggles (host.movesOfDoing doing))
      (unknownAmong (host.runsOf (.doing doing))) := by
  cases doing with
  | act activity own =>
    cases activity with
    | step step quiet =>
      cases step with
      | part part => cases own
      | move move => exact h.told_toggles (h.wired.tells_move move)
      | use use => exact h.told_use use
      | typeLine line =>
        obtain ⟨typed, htyped⟩ := host.typeLine_eq line
        show Told host (host.typeLine line) [] []
        rw [htyped]
        exact Told.quiet ⟨h.wired, h.collected⟩ rfl rfl
      | configure | submit | log => exact Told.quiet ⟨h.wired, h.collected⟩ rfl rfl
    | print style text toLog =>
      obtain ⟨diagnostics, hprint⟩ := host.console.print_eq style text toLog
      have hwired : (host.console.print style text toLog).Wired := by
        rw [hprint]
        exact ⟨h.wired.opened, h.wired.closed, h.wired.unknown⟩
      exact h.told_silent hwired (congrArg (·.notices) hprint)
    | applySettings before after => exact h.told_toggles (h.wired.tells_applySettings before after)
    | editOutput | editHistory | setFontSize =>
      exact h.told_silent ⟨h.wired.opened, h.wired.closed, h.wired.unknown⟩ rfl
  | connect listener => exact h.told_silent (h.wired.listen listener) (by cases listener <;> rfl)
  | disconnect event id =>
    have hid : id ≠ 0 := by simpa [Happening.severs] using hkept
    exact h.told_silent (h.wired.unlisten event hid) (by cases event <;> rfl)

-- ════════════════════════════════════════════════════════════════════════
-- Runs
-- ════════════════════════════════════════════════════════════════════════

/-- What happens makes one move, or moves that cannot open the console. -/
theorem movesOf_cases (host : Host ω ε) (happening : Happening ω ε) :
    (∃ move, host.movesOf happening = [move]) ∨
      ∀ move ∈ host.movesOf happening, move.mayOpen = false := by
  cases happening with
  | part part => exact host.moves_cases (.part part)
  | doing doing =>
    cases doing with
    | act activity own =>
      cases activity with
      | step step quiet => exact host.moves_cases step
      | applySettings before after => exact Or.inr (before.mayOpen_moves after)
      | print | editOutput | editHistory | setFontSize => exact Or.inr (List.forall_mem_nil _)
    | connect | disconnect => exact Or.inr (List.forall_mem_nil _)

theorem toggles_movesOf (hconsistent : host.console.visibility.Consistent) (happening : Happening ω ε) :
    host.console.visibility.toggles (host.movesOf happening) = host.turnsOf happening := by
  rw [turnsOf, visibility_happen]
  rcases host.movesOf_cases happening with ⟨move, hmove⟩ | hclosed
  · rw [hmove]
    exact hconsistent.toggles_move move
  · exact hconsistent.toggles_of_mayOpen hclosed

theorem consistent_happen (hconsistent : host.console.visibility.Consistent) (happening : Happening ω ε) :
    (host.happen happening).console.visibility.Consistent := by
  rw [visibility_happen]
  exact hconsistent.after _

/-- **The host is told what happens**, and of nothing else. -/
theorem Attached.told_happen (h : host.Attached) (hconsistent : host.console.visibility.Consistent)
    (happening : Happening ω ε) (hkept : happening.severs = false) :
    Told host (host.happen happening) (host.turnsOf happening)
      (unknownAmong (host.runsOf happening)) := by
  rw [← toggles_movesOf hconsistent]
  cases happening with
  | part part => exact h.told_part part
  | doing doing => exact h.told_does doing hkept

/-- The host is told what happens in the course of a run. -/
theorem Attached.told_afterRun (h : host.Attached) (hconsistent : host.console.visibility.Consistent)
    (run : List (Happening ω ε)) (hkept : ∀ happening ∈ run, happening.severs = false) :
    Told host (host.afterRun run) (host.along turnsOf run) (unknownAmong (host.along runsOf run)) := by
  induction run generalizing host with
  | nil => exact h.told_refl
  | cons first run ih =>
    obtain ⟨hfirst, hrest⟩ := List.forall_mem_cons.mp hkept
    have hone := h.told_happen hconsistent first hfirst
    rw [along, along, unknownAmong_append]
    exact hone.trans (ih hone.attached (consistent_happen hconsistent first) hrest)

end Attached

/-- In the course of a run openings and closings take turns, and the last of them tells what can be seen. -/
theorem along_turnsOf (run : List (Happening ω ε)) (host : Host ω ε) :
    List.IsChain (· ≠ ·) (host.console.visibility.isOpen :: host.along turnsOf run) ∧
      (host.along turnsOf run).getLast?.getD host.console.visibility.isOpen =
        (host.afterRun run).console.visibility.isOpen := by
  induction run generalizing host with
  | nil => exact ⟨List.isChain_singleton _, rfl⟩
  | cons first run ih =>
    obtain ⟨hchain, hlast⟩ := ih (host.happen first)
    exact ⟨Visibility.isChain_turned_append hchain,
      (Visibility.getLast?_turned_append _ _ _).trans hlast⟩

theorem attached_start (settings : Settings) (world : ω) (clock : Option Bool) (terminal : Terminal)
    (capture : Capture) :
    let started : Host ω ε := start settings world clock terminal capture
    started.Attached ∧ started.toggled = [] ∧ started.reported = [] := by
  obtain ⟨registry, visibility, diagnostics, hmade⟩ :=
    Console.withBuiltins_eq (ω := ω) (ε := Notice ε) settings
  unfold start
  rw [hmade]
  exact ⟨⟨⟨Observers.carries_first _, Observers.carries_first _, Observers.carries_first _⟩, rfl⟩, rfl, rfl⟩

/-- **The messages about openings and closings are the changes of what can be seen.** An application starts, with
whatever settings, and in its frames and between them anything happens in any order, but the connections of the
host itself are not ended. When a frame has then sent on the notifications, one message has been sent for each
time that the console was opened or closed, in order. Openings and closings take turns, an opening first. The last
message tells whether the console is open, and if there was none it is not. The lines that were reported are those
that were run and whose commands were not known, in order and as they were typed. -/
theorem notified_of_turns (settings : Settings) (world : ω) (clock : Option Bool) (terminal : Terminal)
    (capture : Capture) (run : List (Happening ω ε)) (hkept : ∀ happening ∈ run, happening.severs = false) :
    let started : Host ω ε := start settings world clock terminal capture
    let host := started.afterRun (run ++ [.part .sendNotifications])
    host.outbox.toggles = started.along turnsOf run ∧
      List.IsChain (· ≠ ·) (false :: host.outbox.toggles) ∧
      (∀ isOpen, host.outbox.toggles.getLast? = some isOpen → host.console.visibility.isOpen = isOpen) ∧
      (host.outbox.toggles = [] → host.console.visibility.isOpen = false) ∧
      host.outbox.unknown =
        ((started.along runsOf run).filter fun run => run.2 = .unknownCommand).map Prod.fst := by
  intro started host
  obtain ⟨hattached, htoggled, hreported⟩ :=
    attached_start (ε := ε) settings world clock terminal capture
  have hconsistent : started.console.visibility.Consistent :=
    consistent_start settings world clock terminal capture
  have hclosed : started.console.visibility.isOpen = false :=
    (Visibility.isOpen_eq_false_iff _).mpr (not_opened_start settings world clock terminal capture)
  have htold := hattached.told_afterRun hconsistent run hkept
  have hhost : host = (started.afterRun run).sendNotifications := started.afterRun_append run _
  obtain ⟨htoggles, hunknown⟩ := (started.afterRun run).outbox_sendNotifications
  have hturns : host.outbox.toggles = started.along turnsOf run := by
    rw [hhost, htoggles, htold.toggled, htoggled, List.nil_append]
  obtain ⟨hchain, hlast⟩ := along_turnsOf run started
  have hshown : host.console.visibility = (started.afterRun run).console.visibility := by rw [hhost]; rfl
  rw [hclosed] at hchain hlast
  rw [hturns, hshown, ← hlast]
  refine ⟨rfl, hchain, ?_, ?_, ?_⟩
  · intro isOpen hsome
    rw [hsome, Option.getD_some]
  · intro hnil
    rw [hnil]
    rfl
  · rw [hhost, hunknown, htold.reported, hreported, List.nil_append]
    rfl

/-- Another observer is connected, the console is opened, and that observer goes again. Then the settings disable the
console, and the frame that applies them runs a line with an unknown command. -/
theorem notified_when_disabled_in_frame :
    let started : Host Unit Unit := start {} () (some false) {} {}
    let run : List (Happening Unit Unit) :=
      [.doing (.connect (.opened fun _ => ())), .doing (.act (.step (.move .openUp) nofun) rfl),
        .doing (.disconnect .opened 1), .doing (.act (.step (.submit "nope") nofun) rfl),
        .doing (.act (.step (.configure { enabled := false }) nofun) rfl)] ++ wholeFrame.take 5
    let host := started.afterRun (run ++ [.part .sendNotifications])
    (∀ happening ∈ run, happening.severs = false) ∧ host.outbox.recorded = [()] ∧
      host.outbox.toggles = [true, false] ∧ host.console.visibility.isOpen = false ∧
      host.outbox.unknown = ["nope"] := by
  intro started run host
  have hkept : ∀ happening ∈ run, happening.severs = false := by decide
  obtain ⟨htoggles, -, hlast, -, hunknown⟩ :=
    notified_of_turns (ε := Unit) {} () (some false) {} {} run hkept
  have hturns : started.along turnsOf run = [true, false] := by decide +kernel
  have hruns : started.along runsOf run = [("nope", .unknownCommand)] := by decide +kernel
  refine ⟨hkept, by decide +kernel, htoggles.trans hturns, hlast false ?_, hunknown.trans ?_⟩
  · rw [htoggles, hturns]
    rfl
  · rw [hruns]
    rfl

end CommandConsole.Host
