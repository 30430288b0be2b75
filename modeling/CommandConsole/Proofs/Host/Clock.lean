import CommandConsole.Proofs.Console.Reachable
import CommandConsole.Proofs.Host.Steps

/-!
# The clock of the application

A console may have the clock of its application stopped while it is open. Whatever happens in the frames and
between them, the clock does not stay stopped when the console is gone: the requests that wait in the
console always make up for the clock being behind, and when they are served the clock shows what was
switched on when the console was opened.

## Main definitions

- `Host.InStep` — the clock and the requests that wait for it amount to the pause that is held
- `Host.Opens`, `Host.LastOpening` — a step opens the console, and is the last one to do so

## Main statements

- `Host.inStep_after` — the clock keeps in step along every run without other requests
- `Host.LastOpening.holdsPause_eq` — an open console holds the pause of its last opening
- `Host.clock_follows_opening` — the clock that requests have been served for
-/

namespace CommandConsole.Host

variable {ω ε : Type}

-- ════════════════════════════════════════════════════════════════════════
-- The clock and the requests that wait
-- ════════════════════════════════════════════════════════════════════════

/-- There is a clock, and it will be stopped exactly if the console holds a pause, once all that waits is
served. -/
def InStep (host : Host ω ε) : Prop :=
  ∃ stopped, host.clock = some stopped ∧
    Request.clockAfter stopped host.console.requests = host.console.visibility.holdsPause

theorem consistent_step {host : Host ω ε} (h : host.console.visibility.Consistent) (next : Step ω) :
    (host.step next).console.visibility.Consistent := by
  rw [visibility_step]
  exact h.after (host.moves next)

theorem consistent_after {host : Host ω ε} (h : host.console.visibility.Consistent)
    (steps : List (Step ω)) : (host.after steps).console.visibility.Consistent := by
  induction steps generalizing host with
  | nil => exact h
  | cons first steps ih => exact ih (consistent_step h first)

theorem InStep.step {host : Host ω ε} (h : host.InStep) (hconsistent : host.console.visibility.Consistent)
    (next : Step ω) (hquits : ∀ request ∈ host.asked next, request = .quit) :
    (host.step next).InStep := by
  obtain ⟨stopped, hclock, hdue⟩ := h
  by_cases hserve : next = .part .serveRequests
  · subst hserve
    refine ⟨_, host.clock_serveRequests stopped hclock, ?_⟩
    rw [visibility_step]
    show Request.clockAfter _ host.serveRequests.console.requests = _
    rw [requests_serveRequests]
    exact hdue
  · have hwaits := host.waits_step next hserve
    refine ⟨stopped, hwaits.clock.trans hclock, ?_⟩
    -- the moves take the pause that was held to the one that is held, and the handlers leave it there
    rw [hwaits.requests, hwaits.visibility, Request.clockAfter_append, Request.clockAfter_append, hdue,
      hconsistent.clockAfter_requests, Request.clockAfter_of_quits hquits]

/-- **The clock keeps in step** along every run in which handlers ask for nothing but the end. -/
theorem inStep_after {host : Host ω ε} (h : host.InStep)
    (hconsistent : host.console.visibility.Consistent) (steps : List (Step ω))
    (hquits : ∀ request ∈ host.askedAlong steps, request = .quit) : (host.after steps).InStep := by
  induction steps generalizing host with
  | nil => exact h
  | cons first steps ih =>
    obtain ⟨hfirst, hrest⟩ := List.forall_mem_append.mp hquits
    exact ih (h.step hconsistent first hfirst) (consistent_step hconsistent first) hrest

theorem InStep.clock_served {host : Host ω ε} (h : host.InStep) :
    host.serveRequests.clock = some host.console.visibility.holdsPause := by
  obtain ⟨stopped, hclock, hdue⟩ := h
  rw [host.clock_serveRequests stopped hclock, hdue]

-- ════════════════════════════════════════════════════════════════════════
-- Openings
-- ════════════════════════════════════════════════════════════════════════

/-- A step shows a console that is not shown. -/
def Opens (host : Host ω ε) (next : Step ω) : Prop :=
  host.console.visibility.state ≠ .opened ∧ (host.step next).console.visibility.state = .opened

/-- Of these steps, the one behind `earlier` opens the console and none behind it does. -/
def LastOpening (host : Host ω ε) (steps earlier : List (Step ω)) : Prop :=
  ∃ opening later, steps = earlier ++ opening :: later ∧ (host.after earlier).Opens opening ∧
    ∀ begun next rest, later = begun ++ next :: rest →
      ¬(host.after (earlier ++ opening :: begun)).Opens next

/-- A step makes one move or moves that cannot open the console. -/
theorem moves_cases (host : Host ω ε) (next : Step ω) :
    (∃ move, host.moves next = [move]) ∨ ∀ move ∈ host.moves next, move.mayOpen = false := by
  cases next with
  | move move => exact Or.inl ⟨move, rfl⟩
  | part part =>
    cases part with
    | applySettings => exact Or.inr (host.applied.mayOpen_moves host.settings)
    | readTyped | queueInputs | runPending | serveRequests | sendNotifications | showCaptured | print =>
      exact Or.inr (List.forall_mem_nil _)
  | use | configure | submit | typeLine | log => exact Or.inr (List.forall_mem_nil _)

/-- A step that leaves the console open has opened it, with the pause that is switched on, or leaves the pause
as it is. -/
theorem holdsPause_step {host : Host ω ε} (h : host.console.visibility.Consistent) (next : Step ω)
    (hopen : (host.step next).console.visibility.state = .opened) :
    (host.step next).console.visibility.holdsPause =
      if host.console.visibility.state = .opened then host.console.visibility.holdsPause
      else host.console.visibility.pauseEnabled := by
  rw [visibility_step] at hopen ⊢
  rcases host.moves_cases next with ⟨move, hmove⟩ | hclosed
  · rw [hmove] at hopen ⊢
    exact h.holdsPause_move move hopen
  · obtain ⟨hstate, hholds⟩ := h.opened_of_after hclosed hopen
    rw [if_pos hstate, hholds]

/-- An open console that was not open has been opened. -/
theorem exists_lastOpening {host : Host ω ε} (hstart : host.console.visibility.state ≠ .opened)
    (steps : List (Step ω)) (hopen : (host.after steps).console.visibility.state = .opened) :
    ∃ earlier, host.LastOpening steps earlier := by
  induction steps using List.reverseRecOn with
  | nil => exact absurd hopen hstart
  | append_singleton steps last ih =>
    by_cases hbefore : (host.after steps).console.visibility.state = .opened
    · obtain ⟨earlier, opening, later, rfl, hopens, hnone⟩ := ih hbefore
      refine ⟨earlier, opening, later ++ [last], by simp, hopens, ?_⟩
      intro begun next rest hlater
      rcases List.eq_nil_or_concat rest with rfl | ⟨rest, last', rfl⟩
      · -- the last step finds the console open
        obtain ⟨rfl, -⟩ := List.append_inj' hlater rfl
        exact fun hnext => hnext.1 hbefore
      · have hlater' : later ++ [last] = (begun ++ next :: rest) ++ [last'] := by simpa using hlater
        obtain ⟨rfl, -⟩ := List.append_inj' hlater' rfl
        exact hnone begun next rest rfl
    · refine ⟨steps, last, [], rfl, ⟨hbefore, ?_⟩, ?_⟩
      · rwa [after_concat] at hopen
      · intro begun next rest hnil
        simp at hnil

/-- **An open console holds the pause of its last opening.** -/
theorem LastOpening.holdsPause_eq {host : Host ω ε} {steps earlier : List (Step ω)}
    (h : host.LastOpening steps earlier) (hconsistent : host.console.visibility.Consistent)
    (hopen : (host.after steps).console.visibility.state = .opened) :
    (host.after steps).console.visibility.holdsPause =
      (host.after earlier).console.visibility.pauseEnabled := by
  obtain ⟨opening, later, rfl, hopens, hnone⟩ := h
  induction later using List.reverseRecOn with
  | nil =>
    rw [after_concat] at hopen ⊢
    rw [holdsPause_step (consistent_after hconsistent earlier) opening hopen, if_neg hopens.1]
  | append_singleton later last ih =>
    have hsplit : earlier ++ opening :: (later ++ [last]) = (earlier ++ opening :: later) ++ [last] := by
      simp
    rw [hsplit, after_concat] at hopen ⊢
    -- the last step has not opened the console, so it was open before it
    have hbefore : (host.after (earlier ++ opening :: later)).console.visibility.state = .opened := by
      by_contra hclosed
      exact hnone later last [] rfl ⟨hclosed, hopen⟩
    rw [holdsPause_step (consistent_after hconsistent _) last hopen, if_pos hbefore]
    refine ih hbefore (fun begun next rest hlater => ?_)
    exact hnone begun next (rest ++ [last]) (by simp [hlater])

-- ════════════════════════════════════════════════════════════════════════
-- Runs from the start
-- ════════════════════════════════════════════════════════════════════════

/-- The moves by which a new console comes to its visibility. -/
def firstMoves (settings : Settings) : List Visibility.Move :=
  [.pauseEnabled settings.pauseEnabled, .allowInRelease settings.allowedInRelease] ++
    if settings.enabled then [.enable] else []

theorem visibility_start (settings : Settings) (world : ω) (clock : Option Bool) (terminal : Terminal)
    (capture : Capture) :
    (start settings world clock terminal capture : Host ω ε).console.visibility =
        (Visibility.new false).after (firstMoves settings) ∧
      (start settings world clock terminal capture : Host ω ε).console.requests = [] := by
  obtain ⟨registry, visibility, diagnostics, hmade⟩ :=
    Console.withBuiltins_eq (ω := ω) (ε := Notice ε) settings
  have hfresh : (Console.withBuiltins settings : Console ω (Notice ε)).visibility =
      (Visibility.new false).after (firstMoves settings) :=
    (Console.visibility_fresh true settings).trans (Console.visibility_new settings)
  -- connecting the host touches the observers alone
  unfold start
  generalize (Console.withBuiltins settings : Console ω (Notice ε)) = console at *
  exact ⟨hfresh, congrArg (·.requests) hmade⟩

theorem mayOpen_firstMoves (settings : Settings) :
    ∀ move ∈ firstMoves settings, move.mayOpen = false := by
  intro move hmove
  rcases List.mem_append.mp hmove with hswitch | henable
  · rcases List.mem_pair.mp hswitch with rfl | rfl <;> rfl
  · split at henable
    · rw [List.mem_singleton.mp henable]
      rfl
    · cases henable

theorem consistent_start (settings : Settings) (world : ω) (clock : Option Bool) (terminal : Terminal)
    (capture : Capture) :
    (start settings world clock terminal capture : Host ω ε).console.visibility.Consistent := by
  rw [(visibility_start settings world clock terminal capture).1]
  exact (Visibility.Consistent.new false).after (firstMoves settings)

theorem not_opened_start (settings : Settings) (world : ω) (clock : Option Bool) (terminal : Terminal)
    (capture : Capture) :
    (start settings world clock terminal capture : Host ω ε).console.visibility.state ≠ .opened := by
  intro hopen
  rw [(visibility_start settings world clock terminal capture).1] at hopen
  cases ((Visibility.Consistent.new false).opened_of_after (mayOpen_firstMoves settings) hopen).1

theorem inStep_start (settings : Settings) (world : ω) (terminal : Terminal) (capture : Capture) :
    (start settings world (some false) terminal capture : Host ω ε).InStep := by
  refine ⟨false, rfl, ?_⟩
  rw [(visibility_start settings world (some false) terminal capture).2,
    (consistent_start settings world (some false) terminal capture).holdsPause_eq
      (not_opened_start settings world (some false) terminal capture)]
  rfl

/-- **The clock shows what was switched on at the last opening.** An application starts, with whatever settings,
on a clock that goes. Its frames, the moves of its console, the changes of its settings and all other uses
take place in any order, and a change may fall into the middle of a frame. If handlers ask for nothing but
the end, then a step that serves the requests leaves none, and it leaves the clock stopped exactly if the
console is open and the coupling to the clock was on when it was last opened. So the clock goes whenever the
console is closed or disabled then. -/
theorem clock_follows_opening (settings : Settings) (world : ω) (terminal : Terminal)
    (capture : Capture) (steps : List (Step ω))
    (hquits : ∀ request ∈
      (start settings world (some false) terminal capture : Host ω ε).askedAlong steps, request = .quit) :
    let started : Host ω ε := start settings world (some false) terminal capture
    let host := started.after (steps ++ [.part .serveRequests])
    host.console.requests = [] ∧
      ∃ stopped, host.clock = some stopped ∧
        (stopped = true ↔ host.console.visibility.state = .opened ∧
          ∃ earlier, started.LastOpening steps earlier ∧
            (started.after earlier).console.visibility.pauseEnabled = true) ∧
        (host.console.visibility.state ≠ .opened → stopped = false) := by
  intro started host
  have hconsistent : started.console.visibility.Consistent :=
    consistent_start settings world (some false) terminal capture
  have hclosed : started.console.visibility.state ≠ .opened :=
    not_opened_start settings world (some false) terminal capture
  have hinStep : (started.after steps).InStep :=
    inStep_after (inStep_start settings world terminal capture) hconsistent steps hquits
  have hsteps := consistent_after hconsistent steps
  have hhost : host = (started.after steps).serveRequests := started.after_concat steps _
  have hsame : host.console.visibility = (started.after steps).console.visibility :=
    hhost ▸ (started.after steps).visibility_step (.part .serveRequests)
  rw [hsame, hhost]
  refine ⟨requests_serveRequests _, _, hinStep.clock_served, ?_, hsteps.holdsPause_eq⟩
  constructor
  · intro hholds
    have hopen : (started.after steps).console.visibility.state = .opened := by
      by_contra hstate
      rw [hsteps.holdsPause_eq hstate] at hholds
      cases hholds
    obtain ⟨earlier, hlast⟩ := exists_lastOpening hclosed steps hopen
    exact ⟨hopen, earlier, hlast, (hlast.holdsPause_eq hconsistent hopen).symm.trans hholds⟩
  · rintro ⟨hopen, earlier, hlast, hpause⟩
    exact (hlast.holdsPause_eq hconsistent hopen).trans hpause

/-- The coupling to the clock is switched off while the console is open. The frame that does so leaves the clock
stopped all the same, for the console was coupled to it when it was opened. -/
theorem clock_stopped_when_uncoupled :
    let started : Host Unit Unit := start { pauseEnabled := true } () (some false) {} {}
    let steps : List (Step Unit) :=
      [.move .openUp, .configure {}, .submit "quit"] ++ frameParts.take 4
    let host := started.after (steps ++ [.part .serveRequests])
    started.askedAlong steps = [.quit] ∧ host.clock = some true ∧
      host.console.visibility.pauseEnabled = false ∧
      ∃ earlier, started.LastOpening steps earlier ∧
        (started.after earlier).console.visibility.pauseEnabled = true := by
  intro started steps host
  have hasked : started.askedAlong steps = [.quit] := by decide +kernel
  have hclock : host.clock = some true := by decide +kernel
  have hquits : ∀ request ∈ started.askedAlong steps, request = .quit :=
    fun request hmem => List.mem_singleton.mp (hasked ▸ hmem)
  obtain ⟨-, stopped, hstopped, hiff, -⟩ :=
    clock_follows_opening (ε := Unit) { pauseEnabled := true } () {} {} steps hquits
  have htrue : stopped = true := Option.some.inj (hstopped.symm.trans hclock)
  exact ⟨hasked, hclock, by decide +kernel, (hiff.mp htrue).2⟩

end CommandConsole.Host
