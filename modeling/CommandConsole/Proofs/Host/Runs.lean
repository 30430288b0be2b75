import CommandConsole.Proofs.Console.Notices
import CommandConsole.Proofs.Host.Activities

/-!
# Runs of an application

An application goes through frames, and its owner and its other systems do with it and with its console what they
like. In a run all of that stands in a row, so that anything may be done in the middle of a frame. In a run of
whole frames it is done before each of them.

## Main definitions

- `Host.Doing`, `Host.does` — what is done with an application apart from its frames
- `Host.Happening`, `Host.happen`, `Host.afterRun` — a part of a frame or something that is done
- `Host.along` — what is collected in the course of a run
- `Host.executes` — the application after its console has executed a line
- `Host.runs` — lines that are run one after the other, with their outcomes
- `Host.afterRounds` — what a run of whole frames leaves

## Main statements

- `Host.does_cases` — what is done apart from the frames
- `Host.afterRounds_eq_afterRun` — a run of whole frames is a run
- `Host.visibility_happen` — everything that happens leaves the visibility as its moves do
-/

namespace CommandConsole.Host

variable {ω ε β : Type}

/-- Whether an activity is a part of a frame. -/
def Activity.isPart : Activity ω → Bool
  | .step (.part _) _ => true
  | _ => false

/-- Something that is done with an application apart from its frames. -/
inductive Doing (ω ε : Type) where
  | act (activity : Activity ω) (own : activity.isPart = false)
  | connect (listener : Console.Listener ε)
  /-- End the connection with an identifier, whosever it is. -/
  | disconnect (event : Console.Event) (id : Nat)

def does (host : Host ω ε) : Doing ω ε → Host ω ε
  | .act activity _ => host.act activity
  | .connect listener => host.changeConsole (·.listen listener)
  | .disconnect event id => host.changeConsole (·.unlisten event id)

def doesAll (host : Host ω ε) (doings : List (Doing ω ε)) : Host ω ε := doings.foldl does host

/-- What is done apart from the frames changes the console, or else what a frame has still to read. -/
theorem does_cases (host : Host ω ε) (doing : Doing ω ε) :
    (∃ console, host.does doing = { host with console }.collect) ∨
      ∃ settings typed inputs capture, host.does doing = { host with settings, typed, inputs, capture } := by
  cases doing with
  | act activity own =>
    cases activity with
    | step step quiet =>
      cases step with
      | part part => cases own
      | move | use => exact Or.inl ⟨_, rfl⟩
      | typeLine line =>
        obtain ⟨typed, htyped⟩ := host.typeLine_eq line
        exact Or.inr ⟨_, typed, _, _, htyped⟩
      | configure | submit | log => exact Or.inr ⟨_, _, _, _, rfl⟩
    | print | editOutput | editHistory | setFontSize | applySettings => exact Or.inl ⟨_, rfl⟩
  | connect | disconnect => exact Or.inl ⟨_, rfl⟩

/-- A part of a frame, or something that is done apart from the frames. -/
inductive Happening (ω ε : Type) where
  | part (part : Part)
  | doing (doing : Doing ω ε)

def happen (host : Host ω ε) : Happening ω ε → Host ω ε
  | .part part => host.runPart part
  | .doing doing => host.does doing

def afterRun (host : Host ω ε) (run : List (Happening ω ε)) : Host ω ε := run.foldl happen host

theorem afterRun_append (host : Host ω ε) (earlier later : List (Happening ω ε)) :
    host.afterRun (earlier ++ later) = (host.afterRun earlier).afterRun later := by
  simp [afterRun]

/-- What is collected in the course of a run, if everything that happens adds something. -/
def along (host : Host ω ε) (collected : Host ω ε → Happening ω ε → List β) :
    List (Happening ω ε) → List β
  | [] => []
  | first :: run => collected host first ++ (host.happen first).along collected run

theorem along_append (host : Host ω ε) (collected : Host ω ε → Happening ω ε → List β)
    (earlier later : List (Happening ω ε)) :
    host.along collected (earlier ++ later) =
      host.along collected earlier ++ (host.afterRun earlier).along collected later := by
  induction earlier generalizing host with
  | nil => rfl
  | cons first earlier ih =>
    show collected host first ++ (host.happen first).along collected (earlier ++ later) = _
    rw [ih, ← List.append_assoc]
    rfl

/-- The application after its console has executed a line in its world, with what is then collected from the
console. -/
def executes (host : Host ω ε) (line : String) : Host ω ε :=
  let left := (host.console.executeIn line host.world).2
  { host with console := left.1, world := left.2 }.collect

theorem runLine_eq_executes : (runLine : Host ω ε → String → Host ω ε) = executes := rfl

/-- Lines that are run one after the other in the world of the application, with their outcomes. -/
def runs (host : Host ω ε) : List String → List (String × Outcome)
  | [] => []
  | line :: lines => (line, (host.console.executeIn line host.world).1) :: (host.executes line).runs lines

theorem map_fst_runs (lines : List String) (host : Host ω ε) :
    (host.runs lines).map Prod.fst = lines := by
  induction lines generalizing host with
  | nil => rfl
  | cons line lines ih => rw [runs, List.map_cons, ih]

-- ════════════════════════════════════════════════════════════════════════
-- Runs of whole frames
-- ════════════════════════════════════════════════════════════════════════

/-- A frame, and what is done before it. -/
def round (host : Host ω ε) (doings : List (Doing ω ε)) : Host ω ε := (host.doesAll doings).frame

def afterRounds (host : Host ω ε) (rounds : List (List (Doing ω ε))) : Host ω ε :=
  rounds.foldl round host

/-- The parts of a frame in order. -/
def wholeFrame : List (Happening ω ε) :=
  [.part .readTyped, .part .applySettings, .part .queueInputs, .part .runPending,
    .part .serveRequests, .part .sendNotifications, .part .showCaptured, .part .print]

/-- **A run of whole frames is a run.** -/
theorem afterRounds_eq_afterRun (rounds : List (List (Doing ω ε))) (host : Host ω ε) :
    host.afterRounds rounds =
      host.afterRun (rounds.flatMap fun doings => doings.map .doing ++ wholeFrame) := by
  induction rounds generalizing host with
  | nil => rfl
  | cons doings rounds ih =>
    have hdone : host.afterRun (doings.map .doing) = host.doesAll doings := List.foldl_map
    have hround : host.round doings = host.afterRun (doings.map .doing ++ wholeFrame) := by
      rw [afterRun_append, hdone]
      rfl
    rw [List.flatMap_cons, afterRun_append, ← hround]
    exact ih (host.round doings)

-- ════════════════════════════════════════════════════════════════════════
-- Moves
-- ════════════════════════════════════════════════════════════════════════

/-- The moves of the visibility that are made when something is done. -/
def movesOfDoing (host : Host ω ε) : Doing ω ε → List Visibility.Move
  | .act (.step step _) _ => host.moves step
  | .act (.applySettings before after) _ => before.moves after
  | _ => []

def movesOf (host : Host ω ε) : Happening ω ε → List Visibility.Move
  | .part part => host.moves (.part part)
  | .doing doing => host.movesOfDoing doing

theorem visibility_does (host : Host ω ε) (doing : Doing ω ε) :
    (host.does doing).console.visibility = host.console.visibility.after (host.movesOfDoing doing) := by
  cases doing with
  | act activity own =>
    cases activity with
    | step step quiet => exact host.visibility_step step
    | applySettings before after => exact (host.console.moved_applySettings before after).visibility
    | print style text toLog =>
      obtain ⟨diagnostics, hprint⟩ := host.console.print_eq style text toLog
      exact congrArg (·.visibility) hprint
    | editOutput | editHistory | setFontSize => rfl
  | connect listener => cases listener <;> rfl
  | disconnect event id => cases event <;> rfl

/-- Everything that happens leaves the visibility as its moves do. -/
theorem visibility_happen (host : Host ω ε) (happening : Happening ω ε) :
    (host.happen happening).console.visibility =
      host.console.visibility.after (host.movesOf happening) := by
  cases happening with
  | part part => exact host.visibility_step (.part part)
  | doing doing => exact host.visibility_does doing

end CommandConsole.Host
