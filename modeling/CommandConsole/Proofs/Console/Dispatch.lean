import CommandConsole.Proofs.Console.Deeds
import CommandConsole.Proofs.Line.Scanning

/-!
# What running a line does

Running a line is a sequence of steps that the line, the registry and the handlers determine. A line
without a command has no steps. Every other line is echoed, recorded and ends the completion of the
input; the steps behind these three depend on what the registry knows of the command.

## Main definitions

- `Console.Concluded` — how a line that was echoed and recorded ends, and by which steps
- `Console.Refuses`, `Console.Invokes` — the two ways in which a line goes on that names a known command

## Main statements

- `Console.refuses_of_find?`, `Console.invokes_of_find?` — which way a line goes on
- `Console.dispatch_refines` — running a line has the outcome and takes the steps that belong to it
-/

namespace CommandConsole.Console

variable {ω ε : Type}

/-- The first steps of a line that names a command. -/
def openingDeeds (line : String) : List (Deed ω) :=
  [.push .plain ("> " ++ Text.trim line), .record (Text.trim line), .forget]

/-- The steps that report an unknown command. The observers are told the line as it was typed. -/
def unknownDeeds (line name : String) (meant? : Option String) : List (Deed ω) :=
  [.log .debug ("Console: unknown command '" ++ name ++ "'"), .tell line,
    .push .error ("Command not found: '" ++ name ++ "'")] ++
  (meant?.map fun meant => Deed.push .info ("Did you mean '" ++ meant ++ "'?")).toList

/-- The steps that report how the handler of the command `name` ended. -/
def reportDeeds (name : String) (result : Except Fault Unit) : List (Deed ω) :=
  match result with
  | .ok () => []
  | .error (.failed message) =>
    [.log .warn ("Console: command '" ++ name ++ "' failed: " ++ message),
      .push .error (name ++ ": " ++ message)]
  | .error (.crashed message?) =>
    let message := message?.getD "Unknown panic"
    [.log .warn ("Console: command '" ++ name ++ "' panicked: " ++ message),
      .push .error ("Command '" ++ name ++ "' panicked: " ++ message)]

/-- How a line ends whose handler ended with `result`. -/
def outcomeOf (result : Except Fault Unit) : Outcome :=
  match result with
  | .ok () => .executed
  | .error fault => .handlerFailed fault.message

/-- What a handler can reach that is called by a line: the line has been echoed and recorded. -/
def reachedBy (console : Console ω ε) (line : String) (world : Option ω) : Context ω where
  catalogue := console.registry.catalogue
  output := console.output.push .plain ("> " ++ Text.trim line)
  history := console.history.record (Text.trim line)
  requests := console.requests
  world

/-- The outcome of a line that names a command, and the steps behind the first ones. -/
structure Concluded (console : Console ω ε) (line : String) (world : Option ω) (outcome : Outcome)
    (rest : List (Deed ω)) : Prop where
  /-- An unknown command is reported, with a hint if a visible name is close enough. -/
  unknown : console.registry.find? (Line.read line).command = none →
    outcome = .unknownCommand ∧
      rest = unknownDeeds line (Line.read line).command
        (Spelling.closest? (Line.read line).command console.registry.visibleNames)
  /-- Without the required arguments an error is shown, and the handler is not run. -/
  missing : ∀ command, console.registry.find? (Line.read line).command = some command →
    (Line.read line).arguments.length < command.signature.required →
      let names := command.signature.missing (Line.read line).arguments.length
      outcome = .missingArguments names ∧
        rest = [.push .error (missingText command.signature names)]
  /-- Otherwise the handler is run once, on the arguments of the line and in the console that has echoed
  and recorded the line. A fault is reported behind all that the handler did. -/
  invoked : ∀ command, console.registry.find? (Line.read line).command = some command →
    command.signature.required ≤ (Line.read line).arguments.length →
      let action := command.handler ⟨line, (Line.read line).arguments⟩
      let context := console.reachedBy line world
      outcome = outcomeOf (action.run context).1 ∧
        rest = (action.performed context).map Deed.handle ++
          reportDeeds command.name (action.run context).1

/-- Required arguments are missing. The line is echoed and recorded, an error is shown that lists them, and no
handler is run. -/
def Refuses (console : Console ω ε) (line : String) (command : Command (Handler ω))
    (missing : List String) : Prop :=
  ∀ world, console.dispatch line world =
    (.missingArguments missing,
      (openingDeeds line ++ [Deed.push .error (missingText command.signature missing)]).foldl perform
        (console, world))

/-- The line is echoed and recorded, and then the handler of the command is run on it with these arguments. The
outcome is how the handler ends; what it does, with the report of its fault behind, is all that comes of the
line. -/
def Invokes (console : Console ω ε) (line : String) (command : Command (Handler ω))
    (arguments : List String) : Prop :=
  ∀ world,
    let action := command.handler ⟨line, arguments⟩
    let context := console.reachedBy line world
    console.dispatch line world =
      (outcomeOf (action.run context).1,
        (openingDeeds line ++ ((action.performed context).map Deed.handle ++
          reportDeeds command.name (action.run context).1)).foldl perform (console, world))

theorem foldl_openingDeeds (console : Console ω ε) (line : String) (world : Option ω) :
    (openingDeeds line).foldl perform (console, world) = (console.echo line, world) := rfl

theorem foldl_unknownDeeds (console : Console ω ε) (line name : String) (world : Option ω) :
    (unknownDeeds line name (console.hint? name)).foldl perform (console, world) =
      (console.reportUnknown line name, world) := by
  have hhint : ((console.note .debug ("Console: unknown command '" ++ name ++ "'")).notify
      (console.onUnknown.notify line)).hint? name = console.hint? name := rfl
  have hobservers : (console.note .debug
      ("Console: unknown command '" ++ name ++ "'")).onUnknown = console.onUnknown := rfl
  simp only [reportUnknown, hobservers, hhint]
  cases console.hint? name <;> rfl

theorem foldl_reportDeeds (console : Console ω ε) (name : String) (fault : Fault)
    (world : Option ω) :
    (reportDeeds name (.error fault)).foldl perform (console, world) =
      (console.reportFault name fault, world) := by
  cases fault with
  | failed message => rfl
  | crashed message? => cases message? <;> rfl

/-- Running a handler is carrying out its operations and reporting its end. -/
theorem invoke_eq (console : Console ω ε) (command : Command (Handler ω)) (arguments : Arguments)
    (world : Option ω) :
    console.invoke command arguments world =
      (outcomeOf ((command.handler arguments).run (console.context world)).1,
        (((command.handler arguments).performed (console.context world)).map Deed.handle ++
          reportDeeds command.name ((command.handler arguments).run (console.context world)).1).foldl
            perform (console, world)) := by
  rw [List.foldl_append, foldl_handle, ← Action.run_snd_eq_foldl]
  unfold invoke
  rcases (command.handler arguments).run (console.context world) with ⟨result, left⟩
  cases result with
  | ok value => rfl
  | error fault =>
    simp only [foldl_reportDeeds]
    rfl

theorem told_reportDeeds (name : String) (result : Except Fault Unit) :
    (reportDeeds name result : List (Deed ω)).filterMap Deed.told? = [] := by
  match result with
  | .ok () => rfl
  | .error (.failed _) => rfl
  | .error (.crashed _) => rfl

theorem told_unknownDeeds (line name : String) (meant? : Option String) :
    (unknownDeeds line name meant? : List (Deed ω)).filterMap Deed.told? = [line] := by
  cases meant? <;> rfl

theorem told_handle (operations : List (Operation ω)) :
    (operations.map Deed.handle).filterMap Deed.told? = [] := by
  simp [Deed.told?]

/-- A line that names a command takes the first steps and those that belong to its end. -/
theorem dispatch_concluded (console : Console ω ε) (line : String) (world : Option ω)
    (hname : (Line.read line).command ≠ "") :
    ∃ rest, Concluded console line world (console.dispatch line world).1 rest ∧
      (console.dispatch line world).2 =
        (openingDeeds line ++ rest).foldl perform (console, world) := by
  have hnamed : (Line.read line).isEmpty = false := by simpa [Line.isEmpty] using hname
  have hregistry : (console.echo line).registry = console.registry := rfl
  unfold dispatch
  simp only [hnamed, Bool.false_eq_true, if_false, hregistry, List.foldl_append,
    foldl_openingDeeds]
  cases hfind : console.registry.find? (Line.read line).command with
  | none =>
    refine ⟨_, ⟨fun _ => ⟨rfl, rfl⟩, ?_, ?_⟩, (foldl_unknownDeeds _ line _ world).symm⟩
    · intro command hcommand
      cases hfind.symm.trans hcommand
    · intro command hcommand
      cases hfind.symm.trans hcommand
  | some command =>
    have hknown : console.registry.find? (Line.read line).command ≠ none := by simp [hfind]
    by_cases hshort : (Line.read line).arguments.length < command.signature.required
    · let names := command.signature.missing (Line.read line).arguments.length
      simp only [hshort, if_true]
      refine ⟨[.push .error (missingText command.signature names)],
        ⟨fun hnone => absurd hnone hknown, ?_, ?_⟩, rfl⟩
      · intro command' hcommand _
        cases hfind.symm.trans hcommand
        exact ⟨rfl, rfl⟩
      · intro command' hcommand henough
        cases hfind.symm.trans hcommand
        exact absurd hshort (Nat.not_lt.mpr henough)
    · simp only [hshort, if_false, invoke_eq]
      refine ⟨_, ⟨fun hnone => absurd hnone hknown, ?_, ?_⟩, rfl⟩
      · intro command' hcommand hshort'
        cases hfind.symm.trans hcommand
        exact absurd hshort' hshort
      · intro command' hcommand _
        cases hfind.symm.trans hcommand
        exact ⟨rfl, rfl⟩

section Found

variable {console : Console ω ε} {line : String} {command : Command (Handler ω)}
  (hname : (Line.read line).command ≠ "")
  (hfind : console.registry.find? (Line.read line).command = some command)

include hname hfind

theorem refuses_of_find? (hshort : (Line.read line).arguments.length < command.signature.required) :
    console.Refuses line command (command.signature.missing (Line.read line).arguments.length) := by
  intro world
  obtain ⟨rest, hrest, hfinal⟩ := dispatch_concluded console line world hname
  obtain ⟨houtcome, rfl⟩ := hrest.missing command hfind hshort
  exact Prod.ext houtcome hfinal

theorem invokes_of_find? (henough : command.signature.required ≤ (Line.read line).arguments.length) :
    console.Invokes line command (Line.read line).arguments := by
  intro world
  obtain ⟨rest, hrest, hfinal⟩ := dispatch_concluded console line world hname
  obtain ⟨houtcome, rfl⟩ := hrest.invoked command hfind henough
  exact Prod.ext houtcome hfinal

end Found

theorem dispatch_unnamed (console : Console ω ε) {line : String} (world : Option ω)
    (h : (Line.read line).command = "") : console.dispatch line world = (.empty, console, world) := by
  have hempty : (Line.read line).isEmpty = true := by simpa [Line.isEmpty] using h
  simp [dispatch, hempty]

theorem unshaken_dispatch (console : Console ω ε) (line : String) (world : Option ω) :
    Unshaken console (console.dispatch line world).2.1 := by
  by_cases hname : (Line.read line).command = ""
  · rw [console.dispatch_unnamed world hname]
    exact Unshaken.refl console
  · obtain ⟨rest, -, hfinal⟩ := dispatch_concluded console line world hname
    rw [hfinal]
    exact unshaken_foldl _ (console, world)

/-- A line that names a command does not end as one without, and its observers are told of it exactly if
the command is unknown. -/
theorem Concluded.told {console : Console ω ε} {line : String} {world : Option ω}
    {outcome : Outcome} {rest : List (Deed ω)} (h : Concluded console line world outcome rest) :
    outcome ≠ .empty ∧
      rest.filterMap Deed.told? = if outcome = .unknownCommand then [line] else [] := by
  cases hfind : console.registry.find? (Line.read line).command with
  | none =>
    obtain ⟨rfl, rfl⟩ := h.unknown hfind
    exact ⟨by simp, by simp [told_unknownDeeds]⟩
  | some command =>
    by_cases hshort : (Line.read line).arguments.length < command.signature.required
    · obtain ⟨rfl, rfl⟩ := h.missing command hfind hshort
      exact ⟨by simp, by simp [Deed.told?]⟩
    · obtain ⟨houtcome, rfl⟩ := h.invoked command hfind (Nat.not_lt.mp hshort)
      rw [List.filterMap_append, told_handle, told_reportDeeds, houtcome]
      cases (command.handler _).run _ |>.1 <;> simp [outcomeOf]

/-- **Running a line refines its specification.** A line without a command, that is a blank one or one
that starts with an empty quoted token, changes nothing. Every other line is echoed and recorded and
forgets the suggestions, in this order, and concludes with the steps that belong to it. Nothing else is
touched, and the observers are called, in the order of their connections, exactly for an unknown
command. -/
theorem dispatch_refines (console : Console ω ε) (line : String) (world : Option ω) :
    let name := (Line.read line).command
    let outcome := (console.dispatch line world).1
    let final := (console.dispatch line world).2
    (outcome = .empty ↔ name = "") ∧
      (name = "" ↔ (∀ c ∈ line.toList, Text.isBlank c = true) ∨
        ∃ first ∈ (Token.scan line).head?, first.form ≠ .bare ∧ first.text = "") ∧
      (name = "" → final = (console, world)) ∧
      (name ≠ "" → ∃ rest, Concluded console line world outcome rest ∧
        final = (openingDeeds line ++ rest).foldl perform (console, world) ∧
        final.1.completion = .empty) ∧
      Unshaken console final.1 ∧
      final.1.notices = console.notices ++
        if outcome = .unknownCommand then
          console.onUnknown.connected.map fun observer => observer.2 line
        else [] := by
  intro name outcome final
  by_cases hname : name = ""
  · have hidle := console.dispatch_unnamed world hname
    have houtcome : outcome = .empty := congrArg Prod.fst hidle
    have hfinal : final = (console, world) := congrArg Prod.snd hidle
    refine ⟨by simp [houtcome, hname], Line.command_read_eq_empty_iff line, fun _ => hfinal,
      fun hne => absurd hname hne, ?_, ?_⟩
    · rw [hfinal]
      exact Unshaken.refl console
    · simp [hfinal, houtcome]
  · obtain ⟨rest, hrest, hfinal⟩ := dispatch_concluded console line world hname
    obtain ⟨houtcome, htold⟩ := hrest.told
    have hfinal' : final = (openingDeeds line ++ rest).foldl perform (console, world) := hfinal
    refine ⟨by simp [outcome, houtcome, hname], Line.command_read_eq_empty_iff line,
      fun hempty => absurd hempty hname, fun _ => ⟨rest, hrest, hfinal', ?_⟩, ?_, ?_⟩
    · rw [hfinal', List.foldl_append, foldl_openingDeeds]
      exact completion_foldl rest rfl
    · rw [hfinal']
      exact unshaken_foldl _ (console, world)
    · have hopening : (openingDeeds line : List (Deed ω)).filterMap Deed.told? = [] := rfl
      rw [hfinal', notices_foldl, List.filterMap_append, hopening, htold, List.nil_append]
      by_cases hunknown : outcome = .unknownCommand
      · have hunknown' : (console.dispatch line world).1 = .unknownCommand := hunknown
        simp [hunknown, hunknown', Observers.notify]
      · have hunknown' : (console.dispatch line world).1 ≠ .unknownCommand := hunknown
        simp [hunknown, hunknown']

end CommandConsole.Console
