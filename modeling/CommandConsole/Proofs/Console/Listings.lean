import CommandConsole.Console.Builtin
import CommandConsole.Proofs.Console.Output
import CommandConsole.Proofs.Handler.Printing
import CommandConsole.Proofs.Registry.Listing

/-!
# What the listings tell of hidden commands

The built-in commands that list others are programs that only print. Most of what they print depends on the
commands that are not hidden and on nothing else. The exception is the overview of `help`: it looks its commands
up by name, and so it shows one of them that is hidden like any other.

## Main definitions

- `Builtin.Listing` — the commands that list others
- `Builtin.Listing.answer` — what a listing prints for given commands, and how it ends
- `Builtin.hiddenOverview` — the lines of the overview that are about hidden commands
- `Registry.HasListings` — the listings are registered, not hidden, and have their own handlers

## Main statements

- `Builtin.Listing.says_handler` — a listing only prints
- `Builtin.Listing.answer_congr` — what it prints depends on the visible commands and the hidden overview
- `Console.listings_of_visible` — so do two consoles that list their commands
-/

namespace CommandConsole

-- ════════════════════════════════════════════════════════════════════════
-- What the listings print
-- ════════════════════════════════════════════════════════════════════════

namespace Builtin

variable {κ κ' ω : Type}

/-- The commands that list others. -/
inductive Listing where
  | help
  | names
  | commands
  deriving DecidableEq, Repr

namespace Listing

def name : Listing → String
  | help => "help"
  | names => "commands_list"
  | commands => "commands"

def handler : Listing → Handler ω
  | help => Builtin.help
  | names => listNames
  | commands => listCommands

end Listing

/-- The overview shows commands whether or not they are hidden. -/
def overview (registry : Registry κ) : List Scrollback.Edit :=
  [.push .plain "Built-in commands:"] ++
  (overviewNames.filterMap fun name => (registry.signature? name).map overviewLine).map (.push .plain) ++
  [.push .plain "Controls:", .push .plain "  Up/Down arrow keys browse the command history",
    .push .plain "  Tab cycles through autocomplete suggestions",
    .push .info "Type 'help <command>' for details on one command."]

/-- The lines of the overview that are about hidden commands. -/
def hiddenOverview (registry : Registry κ) : List (Option String) :=
  overviewNames.map fun name => ((registry.signature? name).filter (·.hidden)).map overviewLine

def details (signature : Signature) : List Scrollback.Edit :=
  [.push .plain ("Usage: " ++ signature.usage)] ++
  (if signature.description != "" then [.push .info signature.description] else []) ++
  (offerLines signature).map (.push .plain)

/-- What is answered to a question for one command, if the visible command of this name has this signature. -/
def detailsOn (name : String) (signature? : Option Signature) : Except Fault Unit × List Scrollback.Edit :=
  match signature? with
  | none => (.error (.failed ("unknown command '" ++ name ++ "'")), [])
  | some signature => (.ok (), details signature)

/-- How a listing ends for given commands, and what it prints. -/
def Listing.answer (registry : Registry κ) (arguments : Arguments) :
    Listing → Except Fault Unit × List Scrollback.Edit
  | help =>
    match arguments.get? 0 with
    | none => (.ok (), overview registry)
    | some name => detailsOn name ((registry.findVisible? name).map (·.signature))
  | names => (.ok (), (registry.visibleWithPrefix "").map (.push .plain))
  | commands =>
    (.ok (), (registry.visible.map (·.signature)).map fun signature => .push .plain (listingLine signature))

theorem says_helpOverview (catalogue : Registry Unit) :
    (helpOverview : Action ω Unit).Says catalogue (.ok ()) (overview catalogue) := by
  have hlines : (overviewNames.filterMap fun name => (catalogue.signature? name).map overviewLine) =
      (overviewNames.filterMap catalogue.find?).map fun command => overviewLine command.signature := by
    rw [List.map_filterMap]
    simp only [Registry.signature?, Option.map_map]
    rfl
  have hparts : overview catalogue =
      [.push .plain "Built-in commands:"] ++ ([] ++
        ((overviewNames.filterMap catalogue.find?).map (fun command =>
            .push .plain (overviewLine command.signature)) ++
          ([.push .plain "Controls:"] ++ ([.push .plain "  Up/Down arrow keys browse the command history"] ++
            ([.push .plain "  Tab cycles through autocomplete suggestions"] ++
              [.push .info "Type 'help <command>' for details on one command."]))))) := by
    rw [overview, hlines, List.map_map]
    rfl
  rw [hparts]
  unfold helpOverview
  refine (Action.says_print .plain _).bind (Action.says_catalogue.bind ?_)
  refine (Action.says_forM_line _ _).bind ((Action.says_print .plain _).bind ?_)
  exact (Action.says_print .plain _).bind ((Action.says_print .plain _).bind (Action.says_print .info _))

theorem says_helpOn (catalogue : Registry Unit) (name : String) :
    (helpOn name : Action ω Unit).Says catalogue
      (detailsOn name ((catalogue.findVisible? name).map (·.signature))).1
      (detailsOn name ((catalogue.findVisible? name).map (·.signature))).2 := by
  unfold helpOn
  refine Action.says_catalogue.bind ?_
  cases catalogue.findVisible? name with
  | none => exact Action.says_fail _
  | some command =>
    have hlines : ((offerLines command.signature).forM Action.line : Action ω Unit).Says catalogue (.ok ())
        ((offerLines command.signature).map (.push .plain)) := Action.says_forM_line _ id
    show Action.Says _ catalogue (.ok ()) (details command.signature)
    unfold details
    by_cases hdescribed : command.signature.description != ""
    · simp only [hdescribed, if_true, List.append_assoc]
      exact (Action.says_print .plain _).bind ((Action.says_print .info _).bind hlines)
    · simp only [hdescribed]
      exact (Action.says_print .plain _).bind hlines

/-- **A listing only prints.** -/
theorem Listing.says_handler (listing : Listing) (arguments : Arguments) (catalogue : Registry Unit) :
    (listing.handler arguments : Action ω Unit).Says catalogue (listing.answer catalogue arguments).1
      (listing.answer catalogue arguments).2 := by
  cases listing with
  | help =>
    simp only [Listing.handler, Builtin.help, Listing.answer]
    cases arguments.get? 0 with
    | none => exact says_helpOverview catalogue
    | some name => exact says_helpOn catalogue name
  | names => exact Action.says_catalogue.bind (Action.says_forM_line _ id)
  | commands =>
    simp only [Listing.answer, List.map_map]
    exact Action.says_catalogue.bind (Action.says_forM_line _ _)

theorem Listing.answer_catalogue (listing : Listing) (registry : Registry κ) (arguments : Arguments) :
    listing.answer registry.catalogue arguments = listing.answer registry arguments := by
  unfold Registry.catalogue
  cases listing with
  | help =>
    have hshown : overview (registry.map fun _ => ()) = overview registry := by
      simp only [overview, Registry.signature?_map]
    simp only [Listing.answer, hshown, Registry.findVisible?_signature, Registry.signature?_map]
  | names => simp only [Listing.answer, Registry.visibleWithPrefix_map]
  | commands => simp only [Listing.answer, Registry.signatures_visible_map]

-- ════════════════════════════════════════════════════════════════════════
-- Two registries
-- ════════════════════════════════════════════════════════════════════════

section SameListing

variable {registry : Registry κ} {registry' : Registry κ'}

/-- A line of the overview is about a visible command or about a hidden one. -/
theorem overviewLine_eq (signature? : Option Signature) :
    signature?.map overviewLine =
      ((signature?.filter (!·.hidden)).map overviewLine).or
        ((signature?.filter (·.hidden)).map overviewLine) := by
  cases signature? with
  | none => rfl
  | some signature => cases hhidden : signature.hidden <;> simp [Option.filter, hhidden]

variable (hvisible : ∀ name, (registry.findVisible? name).map (·.signature) =
  (registry'.findVisible? name).map (·.signature))
include hvisible

theorem overview_congr (hhidden : hiddenOverview registry = hiddenOverview registry') :
    overview registry = overview registry' := by
  have hlines : (overviewNames.filterMap fun name => (registry.signature? name).map overviewLine) =
      overviewNames.filterMap fun name => (registry'.signature? name).map overviewLine := by
    refine List.filterMap_congr fun name hname => ?_
    have hshown := hvisible name
    rw [Registry.findVisible?_signature, Registry.findVisible?_signature] at hshown
    rw [overviewLine_eq, overviewLine_eq (registry'.signature? name), hshown,
      List.map_inj_left.mp hhidden name hname]
  rw [overview, overview, hlines]

/-- Whether a listing fails depends on the visible commands. -/
theorem Listing.fst_answer_congr (listing : Listing) (arguments : Arguments) :
    (listing.answer registry arguments).1 = (listing.answer registry' arguments).1 := by
  cases listing with
  | help =>
    simp only [Listing.answer, hvisible]
    cases arguments.get? 0 <;> rfl
  | names | commands => rfl

/-- **What a listing prints depends on the visible commands**, and for the overview of `help` on those that are
hidden among its own. -/
theorem Listing.answer_congr (listing : Listing) (arguments : Arguments)
    (hbehind : registry.visibleWithPrefix "" = registry'.visibleWithPrefix "")
    (hlisted : registry.visible.map (·.signature) = registry'.visible.map (·.signature))
    (hhidden : listing = .help → arguments.get? 0 = none →
      hiddenOverview registry = hiddenOverview registry') :
    listing.answer registry arguments = listing.answer registry' arguments := by
  cases listing with
  | help =>
    simp only [Listing.answer, hvisible]
    cases hfirst : arguments.get? 0 with
    | none => rw [overview_congr hvisible (hhidden rfl hfirst)]
    | some name => rfl
  | names => simp only [Listing.answer, hbehind]
  | commands => simp only [Listing.answer, hlisted]

end SameListing

/-- How a line with a listing ends, and the steps behind its first ones. -/
def Listing.conclusion (signature : Signature) (given : Nat)
    (answer : Except Fault Unit × List Scrollback.Edit) : Outcome × List (Deed ω) :=
  if given < signature.required then
    (.missingArguments (signature.missing given),
      [.push .error (Console.missingText signature (signature.missing given))])
  else
    (Console.outcomeOf answer.1,
      (answer.2.map .output).map .handle ++ Console.reportDeeds signature.name answer.1)

end Builtin

/-- The listings are registered and not hidden, and each one has its own handler. -/
def Registry.HasListings {ω : Type} (registry : Registry (Handler ω)) : Prop :=
  ∀ listing : Builtin.Listing, ∃ command,
    registry.findVisible? listing.name = some command ∧ command.handler = listing.handler

namespace Console

open Builtin

variable {ω ε : Type}

theorem perform_withRegistry (registry : Registry (Handler ω)) (state : Console ω ε × Option ω)
    (deed : Deed ω) :
    perform ({ state.1 with registry }, state.2) deed =
      ({ (perform state deed).1 with registry }, (perform state deed).2) := by
  cases deed with
  | handle operation => cases operation <;> rfl
  | push | record | forget | tell | log => rfl

/-- The steps of a line do not look at the commands. -/
theorem foldl_perform_withRegistry (registry : Registry (Handler ω)) (deeds : List (Deed ω))
    (state : Console ω ε × Option ω) :
    deeds.foldl perform ({ state.1 with registry }, state.2) =
      ({ (deeds.foldl perform state).1 with registry }, (deeds.foldl perform state).2) := by
  induction deeds generalizing state with
  | nil => rfl
  | cons deed deeds ih =>
    rw [List.foldl_cons, List.foldl_cons, perform_withRegistry]
    exact ih (perform state deed)

theorem dispatch_listing (console : Console ω ε) {listing : Listing} {command : Command (Handler ω)}
    (hfind : console.registry.find? listing.name = some command)
    (hhandler : command.handler = listing.handler) {line : String}
    (hline : (Line.read line).command = listing.name) (world : Option ω) :
    let concluded : Outcome × List (Deed ω) :=
      Listing.conclusion command.signature (Line.read line).arguments.length
        (listing.answer console.registry ⟨line, (Line.read line).arguments⟩)
    console.dispatch line world =
      (concluded.1, (openingDeeds line ++ concluded.2).foldl perform (console, world)) := by
  intro concluded
  have hname : (Line.read line).command ≠ "" := by
    rw [hline]
    cases listing <;> decide
  obtain ⟨rest, hrest, hfinal⟩ := dispatch_concluded console line world hname
  rw [← hline] at hfind
  have hconcluded : ((console.dispatch line world).1, rest) = concluded := by
    unfold concluded Listing.conclusion
    by_cases hshort : (Line.read line).arguments.length < command.signature.required
    · obtain ⟨houtcome, hsteps⟩ := hrest.missing command hfind hshort
      rw [if_pos hshort, houtcome, hsteps]
    · obtain ⟨houtcome, hsteps⟩ := hrest.invoked command hfind (Nat.not_lt.mp hshort)
      have hsays := listing.says_handler (ω := ω) ⟨line, (Line.read line).arguments⟩
        console.registry.catalogue
      rw [listing.answer_catalogue] at hsays
      rw [if_neg hshort, houtcome, hsteps, hhandler, hsays.result _ rfl, hsays.performed _ rfl]
      rfl
  rw [← hconcluded, ← hfinal]

/-- **The listings tell of visible commands.** Let two registries, reached by whatever registrations, removals and
offers, list the same visible commands in the same order, and let both have the listings with their own handlers.
Then every line with a listing ends in the same way in both, and it leaves the same console, the registry apart:
no hidden command can be told from the listing. There is one exception. Without an argument, `help` shows the
hidden commands among those of the overview, so that these have to be the same. -/
theorem listings_of_visible {registry registry' : Registry (Handler ω)} (hreach : registry.Reachable)
    (hreach' : registry'.Reachable) (hhas : registry.HasListings) (hhas' : registry'.HasListings)
    (hlisted : registry.visible.map (·.signature) = registry'.visible.map (·.signature))
    (console : Console ω ε) (listing : Listing) (line : String)
    (hline : (Line.read line).command = listing.name) (world : Option ω) :
    let left := { console with registry }.dispatch line world
    let left' := { console with registry := registry' }.dispatch line world
    left'.1 = left.1 ∧
      ((listing = .help → (Line.read line).arguments = [] →
          hiddenOverview registry = hiddenOverview registry') →
        left' = (left.1, { left.2.1 with registry := registry' }, left.2.2)) := by
  intro left left'
  have hsame : registry.SameListing registry' := fun signature => by rw [hlisted]
  have hvisible := hsame.findVisible?_eq hreach.sound hreach'.sound
  obtain ⟨command, hfind, hhandler⟩ := hhas listing
  obtain ⟨command', hfind', hhandler'⟩ := hhas' listing
  have hsignature : command'.signature = command.signature := by
    have hboth := hvisible listing.name
    rw [hfind, hfind'] at hboth
    exact (Option.some.inj hboth).symm
  have hleft := dispatch_listing { console with registry } (Option.filter_eq_some_iff.mp hfind).1 hhandler
    hline world
  have hleft' := dispatch_listing { console with registry := registry' }
    (Option.filter_eq_some_iff.mp hfind').1 hhandler' hline world
  rw [hsignature] at hleft'
  have hends := listing.fst_answer_congr hvisible ⟨line, (Line.read line).arguments⟩
  refine ⟨?_, fun hhidden => ?_⟩
  · show ({ console with registry := registry' }.dispatch line world).1 = _
    rw [hleft', show left.1 = _ from congrArg Prod.fst hleft]
    unfold Listing.conclusion
    split
    · rfl
    · exact congrArg outcomeOf hends.symm
  · have hanswer := listing.answer_congr hvisible ⟨line, (Line.read line).arguments⟩
      (hsame.visibleWithPrefix_eq hreach.sound hreach'.sound "") hlisted fun hhelp hnone =>
        hhidden hhelp (by simpa [Arguments.get?] using hnone)
    have hsteps : left' = _ := hleft'
    have hsteps' : left = _ := hleft
    rw [hsteps, hsteps', ← hanswer]
    exact congrArg _ (foldl_perform_withRegistry registry' _ ({ console with registry }, world))

/-- A hidden command cannot be told from one that is not registered: not from the overview, in which it has no place,
and not by asking for it. -/
theorem listings_beside_hidden_pause :
    let registry : Registry (Handler Unit) := .after (Builtin.commands.map .register ++ [.remove "pause"])
    let registry' : Registry (Handler Unit) :=
      .after (Builtin.commands.map .register ++ [.register (.unlisted "pause" Builtin.pause [] 0)])
    (registry.Reachable ∧ registry'.Reachable) ∧ (registry.HasListings ∧ registry'.HasListings) ∧
      registry.visible.map (·.signature) = registry'.visible.map (·.signature) ∧
      registry.contains "pause" = false ∧ registry'.contains "pause" = true ∧
      hiddenOverview registry = hiddenOverview registry' ∧
      ∀ (console : Console Unit Unit), ∀ line ∈ ["help", "help pause"],
        { console with registry := registry' }.dispatch line none =
          let left := { console with registry }.dispatch line none
          (left.1, { left.2.1 with registry := registry' }, left.2.2) := by
  intro registry registry'
  have hreach : registry.Reachable ∧ registry'.Reachable := ⟨⟨_, rfl⟩, ⟨_, rfl⟩⟩
  have hhas : registry.HasListings ∧ registry'.HasListings := by
    constructor <;> intro listing <;> cases listing <;> exact ⟨_, rfl, rfl⟩
  have hlisted : registry.visible.map (·.signature) = registry'.visible.map (·.signature) := by
    decide +kernel
  have hhidden : hiddenOverview registry = hiddenOverview registry' := by decide +kernel
  refine ⟨hreach, hhas, hlisted, by decide +kernel, by decide +kernel, hhidden, ?_⟩
  intro console line hline
  have hhelp : ∀ line ∈ ["help", "help pause"], (Line.read line).command = Listing.help.name := by
    decide +kernel
  exact (listings_of_visible hreach.1 hreach.2 hhas.1 hhas.2 hlisted console .help line (hhelp line hline)
    none).2 fun _ _ => hhidden

/-- The command that ends the application is hidden, or taken away. Only where it is hidden the overview describes
it. -/
theorem help_shows_hidden_quit :
    let registry : Registry (Handler Unit) := .after (Builtin.commands.map .register ++ [.remove "quit"])
    let registry' : Registry (Handler Unit) :=
      .after (Builtin.commands.map .register ++
        [.register ⟨{ name := "quit", hidden := true, description := "Secret" }, Builtin.quit⟩])
    let console : Console Unit Unit := .new {}
    let texts (registry : Registry (Handler Unit)) : List String :=
      ({ console with registry }.dispatch "help" none).2.1.output.rows.map Row.text
    (registry.Reachable ∧ registry'.Reachable) ∧ (registry.HasListings ∧ registry'.HasListings) ∧
      registry.visible.map (·.signature) = registry'.visible.map (·.signature) ∧
      "  quit - Secret" ∉ texts registry ∧ "  quit - Secret" ∈ texts registry' := by
  intro registry registry' console texts
  have hreach : registry.Reachable ∧ registry'.Reachable := ⟨⟨_, rfl⟩, ⟨_, rfl⟩⟩
  have hhas : registry.HasListings ∧ registry'.HasListings := by
    constructor <;> intro listing <;> cases listing <;> exact ⟨_, rfl, rfl⟩
  exact ⟨hreach, hhas, by decide +kernel, by decide +kernel, by decide +kernel⟩

end Console

end CommandConsole
