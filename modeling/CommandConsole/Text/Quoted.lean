import CommandConsole.Text.Unprintable

/-!
# Quoted texts

A text between double quotes for a log message: every character that a reader could mistake or not
see is written as an escape.

## Main definitions

- `Text.escape` — how one character is written
- `Text.quoted` — a whole text
- `Text.quotedList` — several texts between square brackets
-/

namespace CommandConsole.Text

/-- A character inside a quoted text. The null, tab, line feed and carriage return have letters, the
double quote and the backslash are marked with a backslash, and a character without a glyph of its
own is written by its number in lowercase hexadecimal digits. -/
def escape (c : Char) : String :=
  if c.toNat = 0 then "\\0"
  else if c = '\t' then "\\t"
  else if c = '\n' then "\\n"
  else if c = '\r' then "\\r"
  else if c = '"' then "\\\""
  else if c = '\\' then "\\\\"
  else if hasOwnGlyph c then c.toString
  else "\\u\x7b" ++ String.ofList (Nat.toDigits 16 c.toNat) ++ "\x7d"

/-- A text between double quotes, each character as `escape` writes it. -/
def quoted (s : String) : String :=
  "\"" ++ String.join (s.toList.map escape) ++ "\""

/-- Quoted texts between square brackets, separated by a comma and a space. -/
def quotedList (texts : List String) : String :=
  "[" ++ String.intercalate ", " (texts.map quoted) ++ "]"

end CommandConsole.Text
