/-!
# Rows of a text

A text of several lines as the list of its rows. Line feeds separate rows, so there is one row more
than line feeds, and the carriage returns at the end of a row belong to the line end.

## Main definitions

- `Text.splitRows` — cut at every line feed
- `Text.rows` — the rows of a text, without the carriage returns at their ends
- `Text.joinRows` — rows as one text again
-/

namespace CommandConsole.Text

/-- Cut at every line feed. -/
def splitRows : List Char → List (List Char)
  | [] => [[]]
  | c :: cs =>
    if c = '\n' then [] :: splitRows cs
    else match splitRows cs with
      | [] => [[c]]
      | row :: rows => (c :: row) :: rows

/-- A row without the carriage returns at its end. -/
def dropReturns (row : List Char) : List Char :=
  (row.reverse.dropWhile (· = '\r')).reverse

/-- The rows of a text. -/
def rows (s : String) : List String :=
  (splitRows s.toList).map fun row => String.ofList (dropReturns row)

/-- Rows as one text, separated by line feeds. -/
def joinRows (rows : List String) : String :=
  String.intercalate "\n" rows

end CommandConsole.Text
