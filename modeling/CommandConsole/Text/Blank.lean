/-!
# Blank characters

The characters that separate the words of a typed line, and the removal of blanks from both ends
of a text. The set is the Unicode property `White_Space`: it holds the no-break spaces and the line
separators, and leaves out the zero-width space, the byte order mark and the information separators
U+001C to U+001F.

## Main definitions

- `Text.isBlank` — the property, decided by a table of ranges
- `Text.trim` — a text without the blanks at its two ends
-/

namespace CommandConsole.Text

/-- The code points with the property `White_Space`, as inclusive ranges in increasing order. -/
def blankRanges : List (Nat × Nat) :=
  [(0x0009, 0x000D), (0x0020, 0x0020), (0x0085, 0x0085), (0x00A0, 0x00A0), (0x1680, 0x1680),
   (0x2000, 0x200A), (0x2028, 0x2029), (0x202F, 0x202F), (0x205F, 0x205F), (0x3000, 0x3000)]

/-- A blank separates words: spaces of every width, tabs, and line and paragraph ends. -/
def isBlank (c : Char) : Bool :=
  blankRanges.any fun (first, last) => first ≤ c.toNat && c.toNat ≤ last

/-- The characters from the first one that is not blank. -/
def dropBlanks (cs : List Char) : List Char :=
  cs.dropWhile isBlank

/-- The characters up to the last one that is not blank. -/
def dropTrailingBlanks (cs : List Char) : List Char :=
  (dropBlanks cs.reverse).reverse

/-- A text without the blanks at its two ends. -/
def trim (s : String) : String :=
  String.ofList (dropTrailingBlanks (dropBlanks s.toList))

end CommandConsole.Text
