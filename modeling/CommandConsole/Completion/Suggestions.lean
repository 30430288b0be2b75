import CommandConsole.Line.Written
import CommandConsole.Registry
import CommandConsole.Text.Sorted

/-!
# Suggestions for an input

The lines that an unfinished input may be completed to. An input that is blank, or one bare word with
nothing behind it, is completed to the name of a command. Every other input names its command
already, and is completed by a value offered for one of the arguments: the last token if the input
ends with it, and otherwise a new argument.

## Main definitions

- `Completion.Target`, `Completion.target` — what is completed in an input
- `Completion.suggestions` — the completed lines, in order
-/

namespace CommandConsole.Completion

/-- What is completed in an input. -/
inductive Target where
  /-- The name of a command, of which `typed` is there. -/
  | name (typed : String)
  /-- The argument at `place` of a command, of which `typed` is there. What is in front of it in the
  input is `head`. -/
  | argument (command : String) (place : Nat) (typed head : String)
  deriving DecidableEq, Repr

/-- The part of the input before a byte offset. -/
def before (input : String) (offset : Nat) : String :=
  String.ofList (Text.takeWidth offset input.toList)

/-- The argument that is completed behind the token of a command: the last one of the `rest` of the
tokens if the input ends with it, or else one more. -/
def argumentTarget (input : String) (command : Token) (rest : List Token) : Target :=
  match rest.getLast? with
  | none => .argument command.text 0 "" input
  | some last =>
    if last.stop = Text.width input.toList then
      .argument command.text (rest.length - 1) last.text (before input last.start)
    else .argument command.text rest.length "" input

/-- What is completed in an input. -/
def target (input : String) : Target :=
  match Token.scan input with
  | [] => .name ""
  | [only] =>
    if only.stop = Text.width input.toList && only.form = .bare then .name only.text
    else argumentTarget input only []
  | command :: rest => argumentTarget input command rest

/-- The values offered for an argument of a visible command that start with what is typed, in byte
order and each one once. -/
def values {κ : Type} (registry : Registry κ) (command : String) (place : Nat) (typed : String) :
    List String :=
  match registry.findVisible? command with
  | none => []
  | some command =>
    Text.sortedDistinct
      ((command.signature.offersAt place).filter fun value => typed.toList.isPrefixOf value.toList)

/-- The lines that an input may be completed to, in order. A value is written so that it is read back
as one token. -/
def suggestions {κ : Type} (registry : Registry κ) (input : String) : List String :=
  match target input with
  | .name typed => registry.visibleWithPrefix typed
  | .argument command place typed head =>
    (values registry command place typed).map fun value => head ++ Line.quote value

end CommandConsole.Completion
