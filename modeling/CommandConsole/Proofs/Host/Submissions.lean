import CommandConsole.Proofs.Host.Runs

/-!
# Submitted lines on their way

A line that is submitted waits in up to three places until it is run: it is typed at the terminal, it waits for a
frame to read it, and it waits for the frame to run what it has read. Nothing is lost, repeated or overtaken on
this way, so that the application is left as if there were no such places and each frame were handed its lines.

## Main definitions

- `Host.Doing.submitted`, `Host.Doing.typed`, `Host.messages` — the lines that are handed to the next frame
- `Host.holding` — an application with given lines on their way
- `Host.frameOf`, `Host.directly` — a frame that is handed its lines, and a run of such frames
- `Host.written`, `Host.ran` — the lines that are submitted in a run, and those that are run

## Main statements

- `Host.frame_holding` — a frame runs the lines that are on their way, and leaves none
- `Host.ran_happen` — no line gets lost, repeated or overtaken by anything that happens
- `Host.submissions_run_once` — every line that is submitted is run once, in order
-/

namespace CommandConsole.Host

variable {ω ε : Type}

def Doing.submitted : Doing ω ε → List String
  | .act (.step (.submit line) _) _ => [line]
  | _ => []

/-- The line that the terminal takes. A blank one does not count. -/
def Doing.typed : Doing ω ε → List String
  | .act (.step (.typeLine line) _) _ => if Text.trim line = "" then [] else [Text.trim line]
  | _ => []

def Doing.isMessage : Doing ω ε → Bool
  | .act (.step (.submit _) _) _ | .act (.step (.typeLine _) _) _ => true
  | _ => false

/-- The lines that are handed to the next frame. The ones that are typed are submitted when it begins, behind all
others. -/
def messages (doings : List (Doing ω ε)) : List String :=
  doings.flatMap Doing.submitted ++ doings.flatMap Doing.typed

/-- The application with these lines on their way. -/
def holding (host : Host ω ε) (typed inputs pending : List String) : Host ω ε :=
  { host with typed, inputs, pending }

/-- A frame that is handed its lines: its console executes them at once, one after the other. -/
def frameOf (host : Host ω ε) (lines : List String) : Host ω ε :=
  (lines.foldl executes host.applySettings).serveRequests.sendNotifications.showCaptured.print

def roundOf (host : Host ω ε) (doings : List (Doing ω ε)) : Host ω ε :=
  (host.doesAll (doings.filter (!·.isMessage))).frameOf (messages doings)

/-- A run of whole frames, each of which is handed the lines that were submitted before it. -/
def directly (host : Host ω ε) (rounds : List (List (Doing ω ε))) : Host ω ε := rounds.foldl roundOf host

/-- No line is on its way. -/
def Idle (host : Host ω ε) : Prop := host.typed = [] ∧ host.inputs = [] ∧ host.pending = []

theorem idle_holding (host : Host ω ε) : (host.holding [] [] []).Idle := ⟨rfl, rfl, rfl⟩

theorem Idle.holding_eq {host : Host ω ε} (h : host.Idle) : host.holding [] [] [] = host := by
  cases host
  obtain ⟨rfl, rfl, rfl⟩ := h
  rfl

-- ════════════════════════════════════════════════════════════════════════
-- What is done before a frame
-- ════════════════════════════════════════════════════════════════════════

section Holding

variable (typed inputs pending : List String)

/-- Lines on their way are no concern of anything else that is done. -/
theorem does_holding (host : Host ω ε) {doing : Doing ω ε} (hother : doing.isMessage = false) :
    (host.holding typed inputs pending).does doing =
      (host.does doing).holding typed inputs pending := by
  cases doing with
  | act activity own =>
    cases activity with
    | step step quiet =>
      cases step with
      | part part => cases own
      | submit | typeLine => cases hother
      | move | use | configure | log => rfl
    | print | editOutput | editHistory | setFontSize | applySettings => rfl
  | connect | disconnect => rfl

theorem does_message_holding (host : Host ω ε) {doing : Doing ω ε} (hmessage : doing.isMessage = true) :
    (host.holding typed inputs pending).does doing =
      host.holding (typed ++ doing.typed) (inputs ++ doing.submitted) pending := by
  cases doing with
  | act activity own =>
    cases activity with
    | step step quiet =>
      cases step with
      | submit line =>
        show host.holding typed (inputs ++ [line]) pending = host.holding (typed ++ []) _ pending
        rw [List.append_nil]
        rfl
      | typeLine line =>
        show (host.holding typed inputs pending).typeLine line =
          host.holding (typed ++ if Text.trim line = "" then [] else [Text.trim line]) (inputs ++ [])
            pending
        rw [List.append_nil]
        by_cases hblank : Text.trim line = ""
        · simp [typeLine, hblank]
        · simp [typeLine, hblank, holding]
      | part | move | use | configure | log => cases hmessage
    | print | editOutput | editHistory | setFontSize | applySettings => cases hmessage
  | connect | disconnect => cases hmessage

theorem not_message {doing : Doing ω ε} (hother : doing.isMessage = false) :
    doing.submitted = [] ∧ doing.typed = [] := by
  cases doing with
  | act activity own =>
    cases activity with
    | step step quiet =>
      cases step with
      | submit | typeLine => cases hother
      | part | move | use | configure | log => exact ⟨rfl, rfl⟩
    | print | editOutput | editHistory | setFontSize | applySettings => exact ⟨rfl, rfl⟩
  | connect | disconnect => exact ⟨rfl, rfl⟩

theorem doesAll_holding (doings : List (Doing ω ε)) (host : Host ω ε) :
    (host.holding typed inputs pending).doesAll doings =
      (host.doesAll (doings.filter (!·.isMessage))).holding (typed ++ doings.flatMap Doing.typed)
        (inputs ++ doings.flatMap Doing.submitted) pending := by
  induction doings generalizing host typed inputs with
  | nil => simp [doesAll]
  | cons doing doings ih =>
    show ((host.holding typed inputs pending).does doing).doesAll doings = _
    rw [List.flatMap_cons, List.flatMap_cons, ← List.append_assoc, ← List.append_assoc]
    cases hmessage : doing.isMessage with
    | true =>
      rw [does_message_holding _ _ _ _ hmessage, ih, List.filter_cons_of_neg (by simp [hmessage])]
    | false =>
      obtain ⟨hsubmitted, htyped⟩ := not_message hmessage
      rw [does_holding _ _ _ _ hmessage, ih, List.filter_cons_of_pos (by simp [hmessage]), hsubmitted,
        htyped, List.append_nil, List.append_nil]
      rfl

-- ════════════════════════════════════════════════════════════════════════
-- Frames
-- ════════════════════════════════════════════════════════════════════════

theorem applySettings_holding (host : Host ω ε) :
    (host.holding typed inputs pending).applySettings =
      host.applySettings.holding typed inputs pending := by
  unfold applySettings
  show (if host.applied = host.settings then _ else _) = _
  split <;> rfl

theorem foldl_executes_holding (lines : List String) (host : Host ω ε) :
    lines.foldl executes (host.holding typed inputs pending) =
      (lines.foldl executes host).holding typed inputs pending := by
  induction lines generalizing host with
  | nil => rfl
  | cons line lines ih => exact ih (host.executes line)

theorem serveRequests_holding (host : Host ω ε) :
    (host.holding typed inputs pending).serveRequests =
      host.serveRequests.holding typed inputs pending := by
  rw [serveRequests_eq, serveRequests_eq]
  rfl

end Holding

theorem Idle.does {host : Host ω ε} (h : host.Idle) {doing : Doing ω ε}
    (hother : doing.isMessage = false) : (host.does doing).Idle := by
  rw [← h.holding_eq, does_holding _ _ _ _ hother]
  exact idle_holding _

theorem Idle.doesAll {host : Host ω ε} (h : host.Idle) {doings : List (Doing ω ε)}
    (hothers : ∀ doing ∈ doings, doing.isMessage = false) : (host.doesAll doings).Idle := by
  induction doings generalizing host with
  | nil => exact h
  | cons doing doings ih =>
    obtain ⟨hfirst, hrest⟩ := List.forall_mem_cons.mp hothers
    exact ih (h.does hfirst) hrest

theorem Idle.doesAll_filter {host : Host ω ε} (h : host.Idle) (doings : List (Doing ω ε)) :
    (host.doesAll (doings.filter (!·.isMessage))).Idle :=
  h.doesAll fun doing hmem => by simpa using (List.mem_filter.mp hmem).2

theorem idle_frameOf {host : Host ω ε} (h : host.Idle) (lines : List String) :
    (host.frameOf lines).Idle := by
  have hframe : host.frameOf lines = (host.frameOf lines).holding [] [] [] := by
    conv_lhs => rw [← h.holding_eq]
    unfold frameOf
    rw [applySettings_holding, foldl_executes_holding, serveRequests_holding]
    rfl
  rw [hframe]
  exact idle_holding _

/-- **A frame runs the lines that are on their way**, and leaves none. -/
theorem frame_holding {host : Host ω ε} (h : host.Idle) (typed inputs : List String) :
    (host.holding typed inputs []).frame = host.frameOf (inputs ++ typed) := by
  have hqueued : (host.holding typed inputs []).readTyped.applySettings.queueInputs =
      host.applySettings.holding [] [] (inputs ++ typed) := by
    show ((host.holding [] (inputs ++ typed) []).applySettings).queueInputs = _
    rw [applySettings_holding]
    rfl
  have hlines : (host.holding typed inputs []).readTyped.applySettings.queueInputs.runPending =
      (inputs ++ typed).foldl executes host.applySettings := by
    rw [hqueued]
    unfold runPending
    rw [runLine_eq_executes]
    show { (inputs ++ typed).foldl executes
      (host.applySettings.holding [] [] (inputs ++ typed)) with pending := [] } = _
    rw [foldl_executes_holding]
    conv_rhs => rw [← h.holding_eq, applySettings_holding, foldl_executes_holding]
    rfl
  unfold frame update frameOf
  rw [hlines]

theorem Idle.round_eq {host : Host ω ε} (h : host.Idle) (doings : List (Doing ω ε)) :
    host.round doings = host.roundOf doings := by
  have hdone : host.doesAll doings =
      (host.doesAll (doings.filter (!·.isMessage))).holding (doings.flatMap Doing.typed)
        (doings.flatMap Doing.submitted) [] := by
    conv_lhs => rw [← h.holding_eq]
    exact doesAll_holding [] [] [] doings host
  rw [round, hdone, frame_holding (h.doesAll_filter doings)]
  rfl

theorem Idle.round {host : Host ω ε} (h : host.Idle) (doings : List (Doing ω ε)) :
    (host.round doings).Idle := by
  rw [h.round_eq]
  exact idle_frameOf (h.doesAll_filter doings) _

theorem Idle.afterRounds {host : Host ω ε} (h : host.Idle) (rounds : List (List (Doing ω ε))) :
    (host.afterRounds rounds).Idle ∧ host.afterRounds rounds = host.directly rounds := by
  induction rounds generalizing host with
  | nil => exact ⟨h, rfl⟩
  | cons doings rounds ih =>
    obtain ⟨hidle, hsame⟩ := ih (h.round doings)
    refine ⟨hidle, hsame.trans ?_⟩
    rw [h.round_eq]
    rfl

theorem idle_start (settings : Settings) (world : ω) (clock : Option Bool) (terminal : Terminal)
    (capture : Capture) : (start settings world clock terminal capture : Host ω ε).Idle :=
  ⟨rfl, rfl, rfl⟩

-- ════════════════════════════════════════════════════════════════════════
-- Everything that happens
-- ════════════════════════════════════════════════════════════════════════

/-- The lines that are submitted. What was typed at the terminal is submitted when a frame begins. -/
def written (host : Host ω ε) : Happening ω ε → List String
  | .part .readTyped => host.typed
  | .part _ => []
  | .doing doing => doing.submitted

/-- The submitted lines that are run, with their outcomes. -/
def ran (host : Host ω ε) : Happening ω ε → List (String × Outcome)
  | .part .runPending => host.runs host.pending
  | _ => []

/-- The submitted lines that have not been run. -/
def waiting (host : Host ω ε) : List String := host.pending ++ host.inputs

/-- **No line gets lost, repeated or overtaken** by anything that happens. -/
theorem ran_happen (host : Host ω ε) (happening : Happening ω ε) :
    (host.ran happening).map Prod.fst ++ (host.happen happening).waiting =
      host.waiting ++ host.written happening := by
  -- what has no place for lines keeps those that are in their places
  have hkept {after : Host ω ε} (h : after = after.holding host.typed host.inputs host.pending) :
      after.waiting = host.waiting ++ [] := by
    rw [List.append_nil, h]
    rfl
  cases happening with
  | part part =>
    cases part with
    | readTyped =>
      show host.pending ++ (host.inputs ++ host.typed) = host.pending ++ host.inputs ++ host.typed
      rw [List.append_assoc]
    | queueInputs => rfl
    | runPending =>
      have hlines := foldl_executes_holding host.typed host.inputs host.pending host.pending host
      have hinputs : host.runPending.inputs = host.inputs := congrArg (·.inputs) hlines
      show (host.runs host.pending).map Prod.fst ++ ([] ++ host.runPending.inputs) = _ ++ []
      rw [map_fst_runs, hinputs, List.nil_append, List.append_nil]
      rfl
    | applySettings => exact hkept (applySettings_holding _ _ _ host)
    | serveRequests => exact hkept (serveRequests_holding _ _ _ host)
    | sendNotifications | showCaptured | print => exact hkept rfl
  | doing doing =>
    cases hmessage : doing.isMessage with
    | true =>
      have hdone := does_message_holding host.typed host.inputs host.pending host hmessage
      show (host.does doing).waiting = _
      rw [show host.does doing = _ from hdone]
      exact (List.append_assoc _ _ _).symm
    | false =>
      show (host.does doing).waiting = _ ++ doing.submitted
      rw [(not_message hmessage).1]
      exact hkept (does_holding _ _ _ host hmessage)

theorem ran_along (run : List (Happening ω ε)) (host : Host ω ε) :
    (host.along ran run).map Prod.fst ++ (host.afterRun run).waiting =
      host.waiting ++ host.along written run := by
  induction run generalizing host with
  | nil => rw [along, along, List.append_nil]; rfl
  | cons first run ih =>
    rw [along, along, List.map_append, List.append_assoc, ← List.append_assoc host.waiting,
      ← ran_happen, List.append_assoc]
    exact congrArg _ (ih (host.happen first))

/-- The lines that each of some frames runs, with their outcomes. -/
def ranByFrames (host : Host ω ε) : List (List (Doing ω ε)) → List (List (String × Outcome))
  | [] => []
  | doings :: rounds =>
    (host.doesAll doings).along ran wholeFrame :: (host.round doings).ranByFrames rounds

theorem Idle.ran_frame {host : Host ω ε} (h : host.Idle) (doings : List (Doing ω ε)) :
    ((host.doesAll doings).along ran wholeFrame).map Prod.fst = messages doings := by
  have haccount := ran_along wholeFrame (host.doesAll doings)
  have hleft : ((host.doesAll doings).afterRun wholeFrame).waiting = [] := by
    obtain ⟨-, hinputs, hpending⟩ := h.round doings
    show (host.round doings).waiting = []
    rw [waiting, hinputs, hpending]
    rfl
  have hdone := doesAll_holding [] [] [] doings host
  rw [h.holding_eq] at hdone
  have hwaiting : (host.doesAll doings).waiting = doings.flatMap Doing.submitted := by
    rw [hdone]
    rfl
  have hwritten : (host.doesAll doings).along written wholeFrame = doings.flatMap Doing.typed := by
    have htyped : (host.doesAll doings).typed = doings.flatMap Doing.typed := by
      rw [hdone]
      rfl
    simp [along, wholeFrame, written, htyped]
  rwa [hleft, List.append_nil, hwaiting, hwritten] at haccount

theorem Idle.map_ranByFrames {host : Host ω ε} (h : host.Idle) (rounds : List (List (Doing ω ε))) :
    (host.ranByFrames rounds).map (·.map Prod.fst) = rounds.map messages := by
  induction rounds generalizing host with
  | nil => rfl
  | cons doings rounds ih =>
    rw [ranByFrames, List.map_cons, List.map_cons, h.ran_frame, ih (h.round doings)]

/-- **Every line that is submitted is run once, in order.** An application starts and goes through frames, and
before each of them anything is done with it. Each frame runs the lines that were submitted or typed since the
frame before it, no others and in that order, whatever their outcomes, and leaves none waiting. What is left in
the end is what a run leaves in which nothing ever waits: each frame is handed its lines, and its console executes
them one after the other, between the change of the settings and the serving of the requests. Even if anything is
done in the middle of frames, the lines that were run, followed by those that wait, are the ones that were
submitted. -/
theorem submissions_run_once (settings : Settings) (world : ω) (clock : Option Bool)
    (terminal : Terminal) (capture : Capture) (rounds : List (List (Doing ω ε))) :
    let started : Host ω ε := start settings world clock terminal capture
    let host := started.afterRounds rounds
    (started.ranByFrames rounds).map (·.map Prod.fst) = rounds.map messages ∧
      (host.pending = [] ∧ host.inputs = [] ∧ host.typed = []) ∧
      host = started.directly rounds ∧
      ∀ run : List (Happening ω ε),
        (started.along ran run).map Prod.fst ++
            ((started.afterRun run).pending ++ (started.afterRun run).inputs) =
          started.along written run := by
  intro started host
  have hidle : started.Idle := idle_start settings world clock terminal capture
  obtain ⟨⟨htyped, hinputs, hpending⟩, hdirectly⟩ := hidle.afterRounds rounds
  exact ⟨hidle.map_ranByFrames rounds, ⟨hpending, hinputs, htyped⟩, hdirectly,
    fun run => ran_along run started⟩

end CommandConsole.Host
