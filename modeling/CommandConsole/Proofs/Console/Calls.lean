import CommandConsole.Proofs.Console.Uses
import CommandConsole.Proofs.Line.RoundTrip

/-!
# Calling a command by its name

A registration asks of a name that it is not empty and has no blank in it. That is not enough for a line to
name the command. The first token of a line stands for itself or was read from between two quotation marks of
one kind, so that a name that begins with a mark must lack one of the two. All other names can be called, with
all arguments that can be typed.

## Main definitions

- `Console.called?` — the command that a line is resolved to

## Main statements

- `Console.reachable_afterUses` — the registry of a console that was used stays reachable
- `Console.refuses_of_called?`, `Console.invokes_of_called?` — what becomes of a line that calls a command
- `Console.callable_iff` — which commands some line calls
-/

namespace CommandConsole

namespace Line

theorem not_both_iff {cs : List Char} :
    ¬(Mark.double.char ∈ cs ∧ Mark.single.char ∈ cs) ↔ ∃ mark : Mark, mark.char ∉ cs := by
  constructor
  · intro h
    by_cases hdouble : Mark.double.char ∈ cs
    · exact ⟨.single, fun hsingle => h ⟨hdouble, hsingle⟩⟩
    · exact ⟨.double, hdouble⟩
  · rintro ⟨mark, hmark⟩ ⟨hdouble, hsingle⟩
    cases mark with
    | double => exact hmark hdouble
    | single => exact hmark hsingle

/-- A text without blanks can be written unless it begins with a mark and has both. -/
theorem writable_iff_of_not_blank {name : String} (hname : name ≠ "")
    (hblank : ∀ c ∈ name.toList, Text.isBlank c = false) :
    Writable name ↔ ((∃ mark : Mark, name.toList.head? = some mark.char) →
      ∃ mark : Mark, mark.char ∉ name.toList) := by
  rw [Writable, not_both_iff]
  constructor
  · rintro (hbare | hlacks) ⟨mark, hhead⟩
    · exact absurd hhead (hbare.head?_ne mark)
    · exact hlacks
  · intro hlacks
    by_cases hbegins : ∃ mark : Mark, name.toList.head? = some mark.char
    · exact Or.inr (hlacks hbegins)
    · exact Or.inl (IsBare.of_head?_ne (by simpa using hname) hblank (not_exists.mp hbegins))

end Line

theorem Registry.Reachable.change {κ : Type} {registry : Registry κ} (h : registry.Reachable)
    (next : Registry.Change κ) : (registry.change next).Reachable := by
  obtain ⟨changes, rfl⟩ := h
  exact ⟨changes ++ [next], Registry.after_concat changes next⟩

namespace Console

variable {ω ε : Type}

-- ════════════════════════════════════════════════════════════════════════
-- Consoles whose registry is reachable
-- ════════════════════════════════════════════════════════════════════════

theorem reachable_registerBuiltins {console : Console ω ε} (h : console.registry.Reachable) :
    console.registerBuiltins.registry.Reachable := by
  unfold registerBuiltins
  generalize Builtin.commands = commands
  induction commands generalizing console with
  | nil => exact h
  | cons command commands ih =>
    apply ih
    have hone : (console.registerBuiltin command).registry =
        console.registry.change (.register command) := by
      simp only [registerBuiltin, register]
      cases (console.registry.register command).1 <;> rfl
    rw [hone]
    exact h.change _

theorem reachable_fresh (builtins : Bool) (settings : Settings) :
    (fresh builtins settings : Console ω ε).registry.Reachable := by
  have hnew : (new settings : Console ω ε).registry.Reachable := by
    obtain ⟨visibility, diagnostics, hnew⟩ := new_eq (ω := ω) (ε := ε) settings
    rw [hnew]
    exact ⟨[], rfl⟩
  unfold fresh
  split
  · exact reachable_registerBuiltins hnew
  · exact hnew

theorem reachable_use {console : Console ω ε} (h : console.registry.Reachable) (next : Use ω) :
    (console.use next).registry.Reachable := by
  cases next with
  | register command => exact h.change (.register command)
  | remove name => exact h.change (.remove name)
  | offer name place values =>
    have hoffer : (console.offer name place values).2.registry =
        console.registry.change (.offer name place values) := by
      unfold offer Registry.change
      cases hfind : console.registry.find? name <;> simp [Registry.offer_eq, hfind]
    exact hoffer ▸ h.change _
  | execute line world =>
    have hsame := (console.unshaken_dispatch line world).registry
    exact hsame.symm ▸ h
  | complete input => exact h
  | resetCompletion => exact h
  | inputEdited => exact h

theorem reachable_afterUses (builtins : Bool) (settings : Settings) (uses : List (Use ω)) :
    ((fresh builtins settings : Console ω ε).afterUses uses).registry.Reachable := by
  induction uses using List.reverseRecOn with
  | nil => exact reachable_fresh builtins settings
  | append_singleton uses last ih =>
    rw [afterUses_concat]
    exact reachable_use ih last

theorem find?_of_registered {console : Console ω ε} {command : Command (Handler ω)}
    {registration : Registration} (h : (console.register command).1 = .ok registration) :
    (console.register command).2.registry.find? command.name = some command := by
  have hfound : ∀ registry : Registry (Handler ω), (registry.register command).1 = .ok registration →
      (registry.register command).2.find? command.name = some command := by
    intro registry hregistered
    by_cases hvalid : command.signature.Valid
    · rw [registry.register_of_valid hvalid]
      split
      · simp [Registry.find?_enter]
      · simp [Registry.find?_refile]
    · obtain ⟨fault, hrefused⟩ := registry.register_of_not_valid hvalid
      rw [hrefused] at hregistered
      cases hregistered
  exact hfound console.registry h

-- ════════════════════════════════════════════════════════════════════════
-- Lines that call a command
-- ════════════════════════════════════════════════════════════════════════

/-- The command that a line is resolved to. -/
def called? (console : Console ω ε) (line : String) : Option (Command (Handler ω)) :=
  if (Line.read line).isEmpty then none else console.registry.find? (Line.read line).command

theorem called?_eq_some {console : Console ω ε} {line : String} {command : Command (Handler ω)} :
    console.called? line = some command ↔
      (Line.read line).command ≠ "" ∧
        console.registry.find? (Line.read line).command = some command := by
  by_cases hname : (Line.read line).command = "" <;> simp [called?, Line.isEmpty, hname]

theorem refuses_of_called? {console : Console ω ε} {line : String} {command : Command (Handler ω)}
    {arguments : List String} (h : console.called? line = some command)
    (hread : (Line.read line).arguments = arguments)
    (hshort : arguments.length < command.signature.required) :
    console.Refuses line command (command.signature.missing arguments.length) := by
  subst hread
  obtain ⟨hname, hfind⟩ := called?_eq_some.mp h
  exact refuses_of_find? hname hfind hshort

/-- A line runs the handler of the command that it is resolved to, once enough arguments are there. -/
theorem invokes_of_called? {console : Console ω ε} {line : String} {command : Command (Handler ω)}
    {arguments : List String} (h : console.called? line = some command)
    (hread : (Line.read line).arguments = arguments)
    (henough : command.signature.required ≤ arguments.length) :
    console.Invokes line command arguments := by
  subst hread
  obtain ⟨hname, hfind⟩ := called?_eq_some.mp h
  exact invokes_of_find? hname hfind henough

/-- A command is called by the lines that name it. -/
theorem called?_iff_name {console : Console ω ε} (h : console.registry.Sound) {name : String}
    {command : Command (Handler ω)} (hfind : console.registry.find? name = some command)
    (line : String) :
    console.called? line = some command ↔ (Line.read line).command = name := by
  obtain ⟨rfl, hvalid⟩ := h.filed hfind
  rw [called?_eq_some]
  constructor
  · rintro ⟨-, hread⟩
    exact (h.filed hread).1.symm
  · intro hread
    rw [hread]
    exact ⟨hvalid.name_ne_empty, hfind⟩

/-- **Which commands can be called.** A line calls a command of a reachable registry exactly if its first token
is the name of the command. There is such a line unless the name begins with a quotation mark and has marks of
both kinds, and then the command can be run on any arguments that can be typed. -/
theorem callable_iff {console : Console ω ε} (hreach : console.registry.Reachable) {name : String}
    {command : Command (Handler ω)} (hfind : console.registry.find? name = some command) :
    (∀ line, console.called? line = some command ↔ (Line.read line).command = name) ∧
      ((∃ line, console.called? line = some command) ↔
        ((∃ mark : Mark, name.toList.head? = some mark.char) →
          ∃ mark : Mark, mark.char ∉ name.toList)) ∧
      ((∃ line, console.called? line = some command) →
        ∀ typed, ∃ line, console.called? line = some command ∧
          (Line.read line).arguments = (Line.read typed).arguments ∧
          (command.signature.required ≤ (Line.read typed).arguments.length →
            console.Invokes line command (Line.read typed).arguments)) := by
  have hsound := hreach.sound
  have hcalls := called?_iff_name hsound hfind
  obtain ⟨rfl, hvalid⟩ := hsound.filed hfind
  -- a name that some line reads as can be written, and is then read back behind any arguments
  have hwritable : (∃ line, console.called? line = some command) → Line.Writable command.name := by
    rintro ⟨line, hline⟩
    rw [← (hcalls line).mp hline]
    exact Line.writable_of_mem_tokens_read List.mem_cons_self
  have hread : Line.Writable command.name → ∀ typed,
      Line.read (Line.write ⟨command.name, (Line.read typed).arguments⟩) =
        ⟨command.name, (Line.read typed).arguments⟩ := by
    intro hname typed
    apply Line.read_write
    intro token htoken
    rcases List.mem_cons.mp htoken with rfl | hargument
    · exact hname
    · exact Line.writable_of_mem_tokens_read (List.mem_cons_of_mem _ hargument)
  refine ⟨hcalls, ?_, ?_⟩
  · have hname : command.name ≠ "" := hvalid.name_ne_empty
    rw [← Line.writable_iff_of_not_blank hname hvalid.not_blank]
    exact ⟨hwritable, fun hname => ⟨_, (hcalls _).mpr (congrArg Line.command (hread hname ""))⟩⟩
  · intro hcallable typed
    let line := Line.write ⟨command.name, (Line.read typed).arguments⟩
    have hback : Line.read line = ⟨command.name, (Line.read typed).arguments⟩ :=
      hread (hwritable hcallable) typed
    have hsame : (Line.read line).arguments = (Line.read typed).arguments :=
      hback ▸ rfl
    have hcalled : console.called? line = some command :=
      (hcalls line).mpr (congrArg Line.command hback)
    exact ⟨line, hcalled, hsame, invokes_of_called? hcalled hsame⟩

/-- A name with marks of both kinds is callable if it begins with neither. -/
theorem callable_behind_letter :
    let command : Command (Handler Unit) := ⟨{ name := "a\"'" }, fun _ => .done ()⟩
    let console : Console Unit Unit := (fresh false {}).afterUses [.register command]
    console.registry.Reachable ∧ console.registry.find? "a\"'" = some command ∧
      ∃ line, console.called? line = some command := by
  intro command console
  have hreach : console.registry.Reachable := reachable_afterUses false {} [.register command]
  have hadded : ((fresh false {} : Console Unit Unit).register command).1 = .ok .added := by
    decide +kernel
  have hfind : console.registry.find? "a\"'" = some command := find?_of_registered hadded
  have hbegins : ¬∃ mark : Mark, "a\"'".toList.head? = some mark.char := by
    rintro ⟨mark, hmark⟩
    cases mark <;> revert hmark <;> decide
  exact ⟨hreach, hfind, (callable_iff hreach hfind).2.1.mpr fun h => absurd h hbegins⟩

/-- A command whose name begins with a mark and has both is registered, and no line calls it. -/
theorem mixed_marks_not_callable :
    let command : Command (Handler Unit) := ⟨{ name := "\"'" }, fun _ => .done ()⟩
    let console : Console Unit Unit := (fresh false {}).afterUses [.register command]
    ((fresh false {} : Console Unit Unit).register command).1 = .ok .added ∧
      console.registry.find? "\"'" = some command ∧
      ∀ line, console.called? line ≠ some command := by
  intro command console
  have hadded : ((fresh false {} : Console Unit Unit).register command).1 = .ok .added := by
    decide +kernel
  have hfind : console.registry.find? "\"'" = some command := find?_of_registered hadded
  refine ⟨hadded, hfind, fun line hline => ?_⟩
  have hsound : console.registry.Sound := (reachable_afterUses false {} [.register command]).sound
  have hname : (Line.read line).command = "\"'" := (called?_iff_name hsound hfind line).mp hline
  have hwritable : Line.Writable "\"'" := hname ▸ Line.writable_of_mem_tokens_read List.mem_cons_self
  rcases hwritable with hbare | hlacks
  · have hnone := hbare.not_mark Mark.double.char (by decide)
    rw [Mark.ofChar?_char] at hnone
    cases hnone
  · exact hlacks (by decide)

end Console

end CommandConsole
