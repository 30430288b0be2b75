import CommandConsole.Line.Basic

/-!
# Lines written out

The normal form of a line: its tokens separated by one space, each one bare where it can be and
between quotation marks where it must.

## Main definitions

- `Line.quote` — how one token is written
- `Line.write` — how a command with arguments is written
-/

namespace CommandConsole.Line

/-- Whether a token would not be read back as itself if it were written bare: it is empty, holds a
blank, or starts with a quotation mark. -/
def needsQuotes (token : List Char) : Bool :=
  match token with
  | [] => true
  | c :: _ => token.any Text.isBlank || (Mark.ofChar? c).isSome

/-- The mark to put around a token: the double mark unless the token holds one. -/
def markFor (token : List Char) : Mark :=
  if token.contains Mark.double.char then .single else .double

/-- The characters that a token is written as. -/
def quoteChars (token : List Char) : List Char :=
  if needsQuotes token then
    (markFor token).char :: (token ++ [(markFor token).char])
  else token

/-- How one token is written. -/
def quote (token : String) : String :=
  String.ofList (quoteChars token.toList)

/-- How a command with arguments is written: all tokens in order, separated by a space. -/
def write (line : Line) : String :=
  String.intercalate " " ((line.command :: line.arguments).map quote)

end CommandConsole.Line
