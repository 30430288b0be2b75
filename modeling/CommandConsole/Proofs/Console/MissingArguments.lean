import CommandConsole.Proofs.Console.Calls

/-!
# Lines with too few arguments

A line that names a command with too few arguments is refused, and the arguments that it lacks are listed. The
list is never empty, since a command cannot require more arguments than it declares. With the listed arguments
written behind the line it is no longer refused, and with some of them the others are listed.

## Main statements

- `Signature.missing_add` — arguments that are added are dropped from the front of the list
- `Console.refused_until_complete` — a line with too few arguments, and the same line with more of them
-/

namespace CommandConsole

namespace Signature

variable {signature : Signature}

theorem missing_add (signature : Signature) (given more : Nat) :
    signature.missing (given + more) = (signature.missing given).drop more := by
  rw [missing, missing, List.drop_drop]

/-- The arguments that are missing are those declared behind the given ones, up to the last required one. -/
theorem getElem?_missing {given i : Nat} (hi : i < signature.required - given) :
    (signature.missing given)[i]? = signature.arguments[given + i]? := by
  rw [missing, List.getElem?_drop, List.getElem?_take_of_lt (by omega)]

theorem Valid.length_missing (h : signature.Valid) (given : Nat) :
    (signature.missing given).length = signature.required - given := by
  have hrequired : signature.required ≤ signature.arguments.length := h.required_le
  rw [missing, List.length_drop, List.length_take, Nat.min_eq_left hrequired]

end Signature

namespace Console

variable {ω ε : Type} {console : Console ω ε} {name : String} {command : Command (Handler ω)}
  {arguments : List String}

/-- A command and arguments that can be written are called by the line that they are written as. -/
theorem called?_write (hsound : console.registry.Sound)
    (hfind : console.registry.find? name = some command) (hname : Line.Writable name)
    (harguments : ∀ argument ∈ arguments, Line.Writable argument) :
    console.called? (Line.write ⟨name, arguments⟩) = some command ∧
      (Line.read (Line.write ⟨name, arguments⟩)).arguments = arguments := by
  have hread : Line.read (Line.write ⟨name, arguments⟩) = ⟨name, arguments⟩ :=
    Line.read_write (List.forall_mem_cons.mpr ⟨hname, harguments⟩)
  exact ⟨(called?_iff_name hsound hfind _).mpr (congrArg Line.command hread),
    congrArg Line.arguments hread⟩

/-- **A line is refused until it is complete.** Let the name of a command of a reachable registry and some
arguments be such that they can be written, and let the command require more arguments. The line they are written
as is refused, and what it is said to lack are the declared arguments behind the given ones, up to the last
required one: at least one of them. With more arguments behind these it is refused for the others that it was
said to lack, as long as there are any, and with all of them the handler is called with all the arguments. -/
theorem refused_until_complete (hreach : console.registry.Reachable)
    (hfind : console.registry.find? name = some command) (hname : Line.Writable name)
    (harguments : ∀ argument ∈ arguments, Line.Writable argument)
    (hshort : arguments.length < command.signature.required) :
    let given := arguments.length
    let lacking := command.signature.required - given
    let missing := command.signature.missing given
    console.Refuses (Line.write ⟨name, arguments⟩) command missing ∧
    missing ≠ [] ∧ missing.length = lacking ∧
    (∀ i < lacking, ∃ declared,
      command.signature.arguments[given + i]? = some declared ∧ missing[i]? = some declared) ∧
    (∀ more : List String, (∀ argument ∈ more, Line.Writable argument) →
      (more.length < lacking →
        console.Refuses (Line.write ⟨name, arguments ++ more⟩) command (missing.drop more.length)) ∧
      (lacking ≤ more.length →
        console.Invokes (Line.write ⟨name, arguments ++ more⟩) command (arguments ++ more))) := by
  intro given lacking missing
  have hsound := hreach.sound
  have hlength : missing.length = lacking := (hsound.filed hfind).2.length_missing given
  obtain ⟨hcalled, hread⟩ := called?_write hsound hfind hname harguments
  refine ⟨refuses_of_called? hcalled hread hshort, ?_, hlength, ?_, ?_⟩
  · intro hnil
    rw [hnil, List.length_nil] at hlength
    omega
  · intro i hi
    have hdeclared : missing[i]? = command.signature.arguments[given + i]? :=
      Signature.getElem?_missing hi
    have hsome : missing[i]? = some missing[i] := List.getElem?_eq_getElem (hlength ▸ hi)
    exact ⟨missing[i], hdeclared.symm.trans hsome, hsome⟩
  · intro more hmore
    have hall : ∀ argument ∈ arguments ++ more, Line.Writable argument :=
      List.forall_mem_append.mpr ⟨harguments, hmore⟩
    have htotal : (arguments ++ more).length = given + more.length := List.length_append
    obtain ⟨hcalled, hread⟩ := called?_write hsound hfind hname hall
    constructor
    · intro hfew
      have hrefuses := refuses_of_called? hcalled hread (by omega)
      rwa [htotal, Signature.missing_add] at hrefuses
    · intro henough
      exact invokes_of_called? hcalled hread (by omega)

/-- A command with two required arguments and one that can be left out is given one of them, and then the second
one with a blank in it. Its handler prints the arguments that it is called with. -/
theorem teleport_refused_until_complete :
    let command : Command (Handler Unit) :=
      ⟨{ name := "tp", arguments := ["x", "y", "z"], required := 2 },
        fun arguments => Action.line (arguments.join " / ")⟩
    let console : Console Unit Unit := (fresh false {}).afterUses [.register command]
    let complete := console.dispatch "tp 1 \"2 m\"" none
    console.registry.Reachable ∧ console.registry.find? "tp" = some command ∧
      Line.Writable "tp" ∧ (∀ argument ∈ ["1"], Line.Writable argument) ∧
      console.Refuses "tp 1" command ["y"] ∧
      console.Invokes "tp 1 \"2 m\"" command ["1", "2 m"] ∧
      complete.1 = .executed ∧
      complete.2.1.output.rows.map (·.text) = ["> tp 1 \"2 m\"", "1 / 2 m"] := by
  intro command console complete
  have hreach : console.registry.Reachable := reachable_afterUses false {} [.register command]
  have hadded : ((fresh false {} : Console Unit Unit).register command).1 = .ok .added := by
    decide +kernel
  have hfind : console.registry.find? "tp" = some command := find?_of_registered hadded
  have hwritable (token : String) (h : Mark.single.char ∉ token.toList) : Line.Writable token :=
    Or.inr fun hboth => h hboth.2
  have hname : Line.Writable "tp" := hwritable "tp" (by decide)
  have hone : ∀ argument ∈ ["1"], Line.Writable argument := by
    intro argument hargument
    rw [List.mem_singleton.mp hargument]
    exact hwritable "1" (by decide)
  have htwo : ∀ argument ∈ ["2 m"], Line.Writable argument := by
    intro argument hargument
    rw [List.mem_singleton.mp hargument]
    exact hwritable "2 m" (by decide)
  obtain ⟨hrefuses, -, -, -, hmore⟩ := refused_until_complete hreach hfind hname hone (by decide)
  have hshort : Line.write ⟨"tp", ["1"]⟩ = "tp 1" := by decide +kernel
  have hlong : Line.write ⟨"tp", ["1", "2 m"]⟩ = "tp 1 \"2 m\"" := by decide +kernel
  have hinvokes : console.Invokes "tp 1 \"2 m\"" command ["1", "2 m"] :=
    hlong ▸ (hmore ["2 m"] htwo).2 (by decide)
  have hcomplete := hinvokes none
  refine ⟨hreach, hfind, hname, hone, hshort ▸ hrefuses, hinvokes, ?_, ?_⟩
  · rw [show complete = _ from hcomplete]
    rfl
  · rw [show complete = _ from hcomplete]
    decide +kernel

end Console

end CommandConsole
