import CommandConsole.Proofs.Completion.Offers
import CommandConsole.Proofs.Console.Calls
import CommandConsole.Proofs.Line.Grammar

/-!
# Submitting a suggested name

A name is suggested as it is, while an argument is suggested as it is written in a line. As a line of its own
the name is one bare word, unless it begins with a quotation mark: the line then names what stands between
that mark and the next one of its kind, which may be another command.

## Main definitions

- `Console.RunsAlone` — a line that runs a command without arguments

## Main statements

- `Console.runsAlone_iff` — the name of a command runs it unless it begins with a mark
- `Console.suggested_name_run_iff` — what a suggested name runs
-/

namespace CommandConsole

/-- A text that can stand in a line as it is, is a line that names it and has no arguments. -/
theorem Line.read_of_isBare {name : String} (h : IsBare name.toList) : Line.read name = ⟨name, []⟩ := by
  have hwritten : Token.Written 0 [] _ name.toList := Token.Written.bare h (by simp)
  rw [Line.read, Token.scan, hwritten.reading.scanFrom_eq]
  simp [Line.ofTexts]

/-- A line that begins with a mark names what stands up to the next such mark. -/
theorem Line.command_read_of_mark {line : String} {mark : Mark} {rest : List Char}
    (h : line.toList = mark.char :: rest) :
    (Line.read line).command = String.ofList (rest.takeWhile (· != mark.char)) := by
  obtain ⟨first, others, hreading, htext⟩ := Token.exists_reading_quoted 0 mark rest
  rw [Line.read, Token.scan, h, hreading.scanFrom_eq]
  exact htext

theorem Line.command_read_ne_of_mark {line : String} {mark : Mark} {rest : List Char}
    (h : line.toList = mark.char :: rest) : (Line.read line).command ≠ line := by
  intro hsame
  have hlength : (rest.takeWhile (· != mark.char)).length = rest.length + 1 := by
    rw [command_read_of_mark h] at hsame
    simpa [h] using congrArg (fun text => text.toList.length) hsame
  have hshorter := (rest.takeWhile_sublist (· != mark.char)).length_le
  omega

/-- What begins as a bare word does not begin with a mark. -/
theorem Completion.BeginsName.not_mark {input begun name : String} (h : BeginsName input begun)
    (hbegun : begun ≠ "") (hstarts : begun.toList <+: name.toList) (mark : Mark) :
    name.toList.head? ≠ some mark.char := by
  intro hhead
  rcases h with ⟨-, rfl⟩ | ⟨only, hscan, hform, -, rfl⟩
  · exact hbegun rfl
  · have hmem : only ∈ Token.scan input := hscan ▸ List.mem_cons_self
    have hadmits := Token.admits_of_mem_scan hmem
    rw [hform] at hadmits
    have hbare : IsBare only.text.toList := hadmits
    obtain ⟨rest, hrest⟩ := hstarts
    rw [← hrest, List.head?_append_of_ne_nil _ hbare.ne_nil] at hhead
    exact hbare.head?_ne mark hhead

namespace Console

variable {ω ε : Type}

/-- The line is resolved to the command and has no arguments. The handler is run at once if the command
requires none; otherwise those that it requires are reported as missing. -/
structure RunsAlone (console : Console ω ε) (line : String) (command : Command (Handler ω)) : Prop where
  read : Line.read line = ⟨command.name, []⟩
  called : console.called? line = some command
  invoked : command.signature.required = 0 → console.Invokes line command []
  missing : 0 < command.signature.required →
    console.Refuses line command (command.signature.missing 0)

theorem runsAlone_of_read {console : Console ω ε} (h : console.registry.Sound) {line : String}
    {command : Command (Handler ω)} (hfind : console.registry.find? command.name = some command)
    (hread : Line.read line = ⟨command.name, []⟩) : console.RunsAlone line command := by
  have hcalled : console.called? line = some command :=
    (called?_iff_name h hfind line).mpr (congrArg Line.command hread)
  have harguments : (Line.read line).arguments = [] := congrArg Line.arguments hread
  exact ⟨hread, hcalled, fun hnone => invokes_of_called? hcalled harguments (Nat.le_of_eq hnone),
    refuses_of_called? hcalled harguments⟩

/-- The name of a command, submitted as a line, runs the command unless it begins with a mark. -/
theorem runsAlone_iff {console : Console ω ε} (h : console.registry.Sound)
    {command : Command (Handler ω)} (hfind : console.registry.find? command.name = some command) :
    console.RunsAlone command.name command ↔
      ∀ mark : Mark, command.name.toList.head? ≠ some mark.char := by
  constructor
  · intro hruns mark hhead
    obtain ⟨rest, hrest⟩ := List.head?_eq_some_iff.mp hhead
    exact Line.command_read_ne_of_mark hrest (congrArg Line.command hruns.read)
  · intro hnone
    have hvalid : command.signature.Valid := (h.filed hfind).2
    have hname : command.name ≠ "" := hvalid.name_ne_empty
    have hbare : IsBare command.name.toList :=
      IsBare.of_head?_ne (by simpa using hname) hvalid.not_blank hnone
    exact runsAlone_of_read h hfind (Line.read_of_isBare hbare)

/-- **What a suggested name runs.** Let the input be blank, or one bare word with nothing behind it. Every
suggestion is the name of a command that is known and not hidden, and submitting it runs that command without
arguments exactly if the name does not begin with a mark, which it never does behind a word that was begun.
A name that begins with a mark is read up to the next such mark, so that the line is not resolved to the
command. -/
theorem suggested_name_run_iff {console : Console ω ε} (hreach : console.registry.Reachable)
    {input begun : String} (hinput : Completion.BeginsName input begun) {name : String}
    (hname : name ∈ Completion.suggestions console.registry input) :
    ∃ command, console.registry.find? name = some command ∧ command.name = name ∧
      command.signature.hidden = false ∧
      (console.RunsAlone name command ↔ ∀ mark : Mark, name.toList.head? ≠ some mark.char) ∧
      (begun ≠ "" → console.RunsAlone name command) ∧
      ∀ (mark : Mark) (rest : List Char), name.toList = mark.char :: rest →
        (Line.read name).command = String.ofList (rest.takeWhile (· != mark.char)) ∧
          console.called? name ≠ some command := by
  have hsound := hreach.sound
  rw [Completion.suggestions, Completion.target_of_beginsName hinput] at hname
  obtain ⟨hvisible, hstarts⟩ := (hsound.mem_visibleWithPrefix begun name).mp hname
  obtain ⟨command, hcommand⟩ := Option.isSome_iff_exists.mp hvisible
  obtain ⟨hfind, hshown⟩ := Option.filter_eq_some_iff.mp hcommand
  obtain ⟨rfl, -⟩ := hsound.filed hfind
  have hruns := runsAlone_iff hsound hfind
  refine ⟨command, hfind, rfl, by simpa [Command.isVisible] using hshown, hruns, ?_, ?_⟩
  · intro hbegun
    exact hruns.mpr (hinput.not_mark hbegun hstarts)
  · intro mark rest hmark
    refine ⟨Line.command_read_of_mark hmark, fun hcalled => ?_⟩
    exact Line.command_read_ne_of_mark hmark ((called?_iff_name hsound hfind _).mp hcalled)

/-- Of two names that begin as the input does, each runs its command. -/
theorem heal_run :
    let named (name : String) : Use Unit := .register ⟨{ name }, fun _ => .done ()⟩
    let console : Console Unit Unit := (fresh false {}).afterUses [named "heal", named "hel\"p"]
    console.registry.Reachable ∧ Completion.BeginsName " he" "he" ∧
      Completion.suggestions console.registry " he" = ["heal", "hel\"p"] ∧
      ∃ command, console.registry.find? "hel\"p" = some command ∧
        console.RunsAlone "hel\"p" command := by
  intro named console
  have hreach : console.registry.Reachable := reachable_afterUses false {} _
  have hinput : Completion.BeginsName " he" "he" :=
    Or.inr ⟨⟨"he", 1, 3, .bare⟩, by decide +kernel, rfl, by decide +kernel, rfl⟩
  have hsuggested : Completion.suggestions console.registry " he" = ["heal", "hel\"p"] := by
    decide +kernel
  have hmem : "hel\"p" ∈ Completion.suggestions console.registry " he" := by simp [hsuggested]
  obtain ⟨command, hfind, -, -, -, hruns, -⟩ := suggested_name_run_iff hreach hinput hmem
  exact ⟨hreach, hinput, hsuggested, command, hfind, hruns (by decide)⟩

/-- A name that begins with a mark is suggested for the empty input, and submitting it runs another command. -/
theorem marked_heal_runs_heal :
    let named (name : String) : Use Unit := .register ⟨{ name }, fun _ => .done ()⟩
    let console : Console Unit Unit := (fresh false {}).afterUses [named "heal", named "\"heal"]
    console.registry.Reachable ∧ Completion.BeginsName "" "" ∧
      "\"heal" ∈ Completion.suggestions console.registry "" ∧
      Line.read "\"heal" = ⟨"heal", []⟩ ∧
      (console.registry.findVisible? "\"heal").map (·.name) = some "\"heal" ∧
      (console.called? "\"heal").map (·.name) = some "heal" := by
  intro named console
  refine ⟨reachable_afterUses false {} _, Or.inl ⟨by simp, rfl⟩, ?_, ?_, ?_, ?_⟩
  all_goals decide +kernel

end Console

end CommandConsole
