import CommandConsole.Text.Blank
import CommandConsole.Text.Utf8

/-!
# Tokens of a typed line

A line is read from left to right into tokens. Blanks separate tokens. A quotation mark at the start
of a token opens a quoted token, which runs to the next mark of the same kind, keeps its blanks and
needs no blank behind it; a quotation mark inside a bare word is an ordinary character. Reading never
fails: a quoted token that is still open at the end of the line is a token too.

## Main definitions

- `Token` — a token with its place in the line, counted in UTF-8 bytes
- `Token.scan` — the tokens of a line

## Design notes

The reader is a machine with three modes that takes one character at a time and gives back at most
one token for it. A line can therefore be cut anywhere: what the second part reads as depends only on
the mode that the first part ends in.
-/

namespace CommandConsole

/-- A quotation mark. -/
inductive Mark where
  | double
  | single
  deriving DecidableEq, Repr

/-- The character that a mark is written as. -/
def Mark.char : Mark → Char
  | double => '"'
  | single => '\x27'

/-- The mark that a character is, if it is one. -/
def Mark.ofChar? (c : Char) : Option Mark :=
  if c = Mark.double.char then some double
  else if c = Mark.single.char then some single
  else none

/-- Reading the character of a mark gives back the mark. -/
@[simp] theorem Mark.ofChar?_char (mark : Mark) : Mark.ofChar? mark.char = some mark := by
  cases mark <;> decide

/-- Only its own character reads as a mark. -/
theorem Mark.eq_char_of_ofChar? {c : Char} {mark : Mark} (h : Mark.ofChar? c = some mark) :
    c = mark.char := by
  unfold Mark.ofChar? at h
  split at h
  · cases h; assumption
  · split at h
    · cases h; assumption
    · cases h

/-- How a token stands in the line. -/
inductive Token.Form where
  | bare
  /-- Behind an opening mark; `closed` tells whether the mark comes again at its end. -/
  | quoted (mark : Mark) (closed : Bool)
  deriving DecidableEq, Repr

/-- A token of a line. -/
structure Token where
  /-- The text, without quotation marks. -/
  text : String
  /-- The byte offset at which the token starts, its opening mark included. -/
  start : Nat
  /-- The byte offset behind the token, its closing mark included. -/
  stop : Nat
  form : Token.Form
  deriving DecidableEq, Repr

namespace Token

/-- The mark around a quoted token. -/
def mark? (token : Token) : Option Mark :=
  match token.form with
  | .bare => none
  | .quoted mark _ => some mark

/-- Whether the token is complete: a bare word always is, a quoted token if its mark came again. -/
def isTerminated (token : Token) : Bool :=
  match token.form with
  | .bare => true
  | .quoted _ closed => closed

/-- What the reader is in the middle of. A token that has begun is kept with the offset of its start
and its characters so far, the latest first. -/
inductive Mode where
  | between
  | word (start : Nat) (seen : List Char)
  | quote (mark : Mark) (start : Nat) (seen : List Char)
  deriving DecidableEq, Repr

/-- Read one character, which stands at the byte offset `position`. A blank ends a bare word, and the
mark of a quoted token ends that. -/
def Mode.step (position : Nat) (c : Char) : Mode → Mode × Option Token
  | between =>
    if Text.isBlank c then (between, none)
    else match Mark.ofChar? c with
      | some mark => (quote mark position [], none)
      | none => (word position [c], none)
  | word start seen =>
    if Text.isBlank c then (between, some ⟨String.ofList seen.reverse, start, position, .bare⟩)
    else (word start (c :: seen), none)
  | quote mark start seen =>
    if c = mark.char then
      (between,
        some ⟨String.ofList seen.reverse, start, position + c.utf8Size, .quoted mark true⟩)
    else (quote mark start (c :: seen), none)

/-- The token that the end of the line, at the byte offset `position`, completes. -/
def Mode.finish (position : Nat) : Mode → Option Token
  | between => none
  | word start seen => some ⟨String.ofList seen.reverse, start, position, .bare⟩
  | quote mark start seen => some ⟨String.ofList seen.reverse, start, position, .quoted mark false⟩

/-- The tokens completed while reading characters from the byte offset `position` on, to the end of
the line. -/
def scanFrom (position : Nat) (mode : Mode) : List Char → List Token
  | [] => (mode.finish position).toList
  | c :: cs =>
    let (mode', token?) := mode.step position c
    token?.toList ++ scanFrom (position + c.utf8Size) mode' cs

/-- The tokens of a line, in order. -/
def scan (line : String) : List Token :=
  scanFrom 0 .between line.toList

end Token

end CommandConsole
