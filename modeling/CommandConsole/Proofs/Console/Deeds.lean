import CommandConsole.Console.Dispatch
import CommandConsole.Proofs.Handler.Performed

/-!
# Deeds of a console

Running a line changes a console in steps of a few kinds. Each kind touches one part of the console, so
that the order of the steps can be told and everything that no step touches stays as it was.

## Main definitions

- `Deed` — one step
- `Console.perform` — what a step does to the console and to the world of the application
- `Console.Unshaken` — two consoles agree on everything that no step touches

## Main statements

- `Console.foldl_handle` — the operations of a handler as steps
- `Console.unshaken_foldl` — no sequence of steps touches the registry, the visibility or the observers
-/

namespace CommandConsole

/-- One step in the running of a line. -/
inductive Deed (ω : Type) where
  | push (style : Style) (text : String)
  | record (line : String)
  | forget
  /-- Call all observers of unknown commands, in the order of their connections. -/
  | tell (line : String)
  | log (level : Level) (message : String)
  | handle (operation : Operation ω)

/-- The line that the observers are told in a step, if they are. -/
def Deed.told? {ω : Type} : Deed ω → Option String
  | .tell line => some line
  | _ => none

namespace Console

variable {ω ε : Type}

/-- What a step does to a console and to the world of the application. -/
def perform (state : Console ω ε × Option ω) : Deed ω → Console ω ε × Option ω
  | .push style text => ({ state.1 with output := state.1.output.push style text }, state.2)
  | .record line => ({ state.1 with history := state.1.history.record line }, state.2)
  | .forget => ({ state.1 with completion := .empty }, state.2)
  | .tell line =>
    let recorded := state.1.onUnknown.connected.map fun observer => observer.2 line
    ({ state.1 with notices := state.1.notices ++ recorded }, state.2)
  | .log level message =>
    ({ state.1 with diagnostics := state.1.diagnostics ++ [⟨level, message⟩] }, state.2)
  | .handle operation =>
    let reached : Context ω := {
      catalogue := state.1.registry.catalogue
      output := state.1.output
      history := state.1.history
      requests := state.1.requests
      world := state.2 }
    let left := reached.apply operation
    ({ state.1 with output := left.output, history := left.history, requests := left.requests },
      left.world)

/-- Two consoles agree on what no step of a running line touches. -/
structure Unshaken (before after : Console ω ε) : Prop where
  registry : after.registry = before.registry
  visibility : after.visibility = before.visibility
  fontSize : after.fontSize = before.fontSize
  onOpened : after.onOpened = before.onOpened
  onClosed : after.onClosed = before.onClosed
  onUnknown : after.onUnknown = before.onUnknown

theorem Unshaken.refl (console : Console ω ε) : Unshaken console console :=
  ⟨rfl, rfl, rfl, rfl, rfl, rfl⟩

theorem Unshaken.trans {first second third : Console ω ε} (h : Unshaken first second)
    (h' : Unshaken second third) : Unshaken first third :=
  ⟨h'.registry.trans h.registry, h'.visibility.trans h.visibility, h'.fontSize.trans h.fontSize,
    h'.onOpened.trans h.onOpened, h'.onClosed.trans h.onClosed, h'.onUnknown.trans h.onUnknown⟩

theorem unshaken_perform (state : Console ω ε × Option ω) (deed : Deed ω) :
    Unshaken state.1 (perform state deed).1 := by
  cases deed <;> exact ⟨rfl, rfl, rfl, rfl, rfl, rfl⟩

theorem unshaken_foldl (deeds : List (Deed ω)) (state : Console ω ε × Option ω) :
    Unshaken state.1 (deeds.foldl perform state).1 := by
  induction deeds generalizing state with
  | nil => exact Unshaken.refl state.1
  | cons deed deeds ih => exact (unshaken_perform state deed).trans (ih (perform state deed))

/-- Once the suggestions are forgotten, no step brings them back. -/
theorem completion_foldl (deeds : List (Deed ω)) {state : Console ω ε × Option ω}
    (h : state.1.completion = .empty) : (deeds.foldl perform state).1.completion = .empty := by
  induction deeds generalizing state with
  | nil => exact h
  | cons deed deeds ih =>
    refine ih ?_
    cases deed with
    | forget => rfl
    | push | record | tell | log | handle => exact h

/-- Each step that tells the observers a line calls each of them once, and no other step calls one. -/
theorem notices_foldl (deeds : List (Deed ω)) (state : Console ω ε × Option ω) :
    (deeds.foldl perform state).1.notices =
      state.1.notices ++ (deeds.filterMap Deed.told?).flatMap state.1.onUnknown.notify := by
  induction deeds generalizing state with
  | nil => simp
  | cons deed deeds ih =>
    have hobservers := (unshaken_perform state deed).onUnknown
    rw [List.foldl_cons, ih, hobservers]
    cases deed with
    | tell line => simp [perform, Deed.told?, Observers.notify]
    | push | record | forget | log | handle => rfl

/-- A handler that is run leaves the console as its operations do, one step after the other. -/
theorem foldl_handle (operations : List (Operation ω)) (console : Console ω ε) (world : Option ω) :
    (operations.map Deed.handle).foldl perform (console, world) =
      (console.adopt (operations.foldl Context.apply (console.context world)),
        (operations.foldl Context.apply (console.context world)).world) := by
  induction operations generalizing console world with
  | nil => rfl
  | cons operation operations ih =>
    let context := (console.context world).apply operation
    have hcontext : (console.adopt context).context context.world = context := by
      have hcatalogue : context.catalogue = console.registry.catalogue := by simp [context, Console.context]
      simp only [Console.context, adopt, ← hcatalogue]
    have hstep : perform (console, world) (.handle operation) =
        (console.adopt context, context.world) := rfl
    rw [List.map_cons, List.foldl_cons, hstep, ih, hcontext]
    rfl

end Console

end CommandConsole
