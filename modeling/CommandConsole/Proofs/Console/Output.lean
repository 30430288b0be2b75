import CommandConsole.Proofs.Console.Faults
import CommandConsole.Proofs.Scrollback.Log

/-!
# What a line writes

The output of a console is edited from several sides. A line that is run is repeated first, as an echo; then
come the edits that its handler makes, or the report of the console that it went wrong, or both.

## Main definitions

- `Source`, `Revision` — where an edit of the output comes from, and the edit with it
- `Console.concluding` — the steps of a line behind its first ones
- `Console.revisions` — the revisions that a line makes
- `Revision.sourced` — the rows that some revisions push, each with its source

## Main statements

- `Console.output_dispatch` — a line that is run changes the output by its revisions
- `Console.edit_of_echo` — an echo is the line behind the mark of echoes
-/

namespace CommandConsole

variable {ω ε : Type}

/-- Where an edit of the output comes from. -/
inductive Source where
  /-- The console repeats a line that is run. -/
  | echo
  /-- The console says that a line went wrong. -/
  | report
  | handler
  /-- The owner of the application, who prints, edits the output or changes its settings. -/
  | owner
  /-- The log of the process, as far as it is captured. -/
  | capture
  deriving DecidableEq, Repr

/-- An edit of the output with its source. -/
structure Revision where
  source : Source
  edit : Scrollback.Edit
  deriving DecidableEq, Repr

/-- The rows that some revisions push, each with its source, if the next row gets the number `first`. -/
def Revision.sourced (first : Nat) : List Revision → List (Source × Row)
  | [] => []
  | revision :: revisions =>
    (revision.edit.pushed first).map (revision.source, ·) ++
      sourced (first + (revision.edit.pushed first).length) revisions

theorem Revision.map_snd_sourced (first : Nat) (revisions : List Revision) :
    (sourced first revisions).map Prod.snd = Scrollback.log first (revisions.map (·.edit)) := by
  induction revisions generalizing first with
  | nil => rfl
  | cons revision revisions ih => simp [sourced, Scrollback.log, ih, Function.comp_def]

/-- A step in the running of a line, as a revision. What the console itself pushes comes from `source`. -/
def Deed.revision? (source : Source) : Deed ω → Option Revision
  | .push style text => some ⟨source, .push style text⟩
  | .handle (.output edit) => some ⟨.handler, edit⟩
  | _ => none

namespace Console

/-- The steps of a line that names a command, behind its first ones. -/
def concluding (console : Console ω ε) (line : String) (world : Option ω) : List (Deed ω) :=
  let said := Line.read line
  match console.registry.find? said.command with
  | none => unknownDeeds line said.command (console.hint? said.command)
  | some command =>
    if said.arguments.length < command.signature.required then
      [.push .error
        (missingText command.signature (command.signature.missing said.arguments.length))]
    else
      let context := (console.echo line).context world
      ((called line command).performed context).map .handle ++
        reportDeeds command.name ((called line command).run context).1

/-- The revisions that a line makes when it is run. -/
def revisions (console : Console ω ε) (line : String) (world : Option ω) : List Revision :=
  if (Line.read line).isEmpty then []
  else
    (openingDeeds line : List (Deed ω)).filterMap (Deed.revision? .echo) ++
      (console.concluding line world).filterMap (Deed.revision? .report)

theorem Concluded.rest_eq {console : Console ω ε} {line : String} {world : Option ω}
    {outcome : Outcome} {rest : List (Deed ω)} (h : Concluded console line world outcome rest) :
    rest = console.concluding line world := by
  cases hfind : console.registry.find? (Line.read line).command with
  | none =>
    simp only [concluding, hfind]
    exact (h.unknown hfind).2
  | some command =>
    by_cases hshort : (Line.read line).arguments.length < command.signature.required
    · simp only [concluding, hfind, hshort, if_true]
      exact (h.missing command hfind hshort).2
    · simp only [concluding, hfind, hshort, if_false]
      exact (h.invoked command hfind (Nat.not_lt.mp hshort)).2

theorem dispatch_eq_foldl (console : Console ω ε) (line : String) (world : Option ω)
    (hname : (Line.read line).command ≠ "") :
    (console.dispatch line world).2 =
      (openingDeeds line ++ console.concluding line world).foldl perform (console, world) := by
  obtain ⟨rest, hrest, hfinal⟩ := dispatch_concluded console line world hname
  rw [hfinal, hrest.rest_eq]

theorem output_foldl (source : Source) (deeds : List (Deed ω)) (state : Console ω ε × Option ω) :
    (deeds.foldl perform state).1.output =
      state.1.output.after ((deeds.filterMap (Deed.revision? source)).map (·.edit)) := by
  induction deeds generalizing state with
  | nil => rfl
  | cons deed deeds ih =>
    rw [List.foldl_cons, ih]
    cases deed with
    | push style text => rfl
    | handle operation =>
      cases operation with
      | output edit => rfl
      | history | request | world => rfl
    | record | forget | tell | log => rfl

/-- **A line that is run changes the output by its revisions.** -/
theorem output_dispatch (console : Console ω ε) (line : String) (world : Option ω) :
    (console.dispatch line world).2.1.output =
      console.output.after ((console.revisions line world).map (·.edit)) := by
  unfold revisions
  by_cases hname : (Line.read line).command = ""
  · have hempty : (Line.read line).isEmpty = true := by simpa [Line.isEmpty] using hname
    rw [console.dispatch_unnamed world hname, if_pos hempty]
    rfl
  · have hnamed : (Line.read line).isEmpty = false := by simpa [Line.isEmpty] using hname
    rw [console.dispatch_eq_foldl line world hname, List.foldl_append, output_foldl .report,
      output_foldl .echo, ← Scrollback.after_append, ← List.map_append]
    simp [hnamed]

-- ════════════════════════════════════════════════════════════════════════
-- Echoes
-- ════════════════════════════════════════════════════════════════════════

theorem source_revision? {source : Source} {deed : Deed ω} {revision : Revision}
    (h : deed.revision? source = some revision) :
    revision.source = source ∨ revision.source = .handler := by
  cases deed with
  | push style text =>
    cases h
    exact Or.inl rfl
  | handle operation =>
    cases operation with
    | output edit =>
      cases h
      exact Or.inr rfl
    | history | request | world => cases h
  | record | forget | tell | log => cases h

/-- An echo is the line without blanks at its ends, behind the mark of echoes. -/
theorem edit_of_echo {console : Console ω ε} {line : String} {world : Option ω} {revision : Revision}
    (hmem : revision ∈ console.revisions line world) (hecho : revision.source = .echo) :
    revision.edit = .push .plain ("> " ++ Text.trim line) := by
  unfold revisions at hmem
  split at hmem
  · cases hmem
  · rcases List.mem_append.mp hmem with hopening | hrest
    · have hone : revision ∈ [(⟨.echo, .push .plain ("> " ++ Text.trim line)⟩ : Revision)] := hopening
      rw [List.mem_singleton.mp hone]
    · obtain ⟨deed, -, hdeed⟩ := List.mem_filterMap.mp hrest
      rcases source_revision? hdeed with hsource | hsource
      · cases hecho.symm.trans hsource
      · cases hecho.symm.trans hsource

end Console

end CommandConsole
