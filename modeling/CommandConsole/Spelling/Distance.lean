import CommandConsole.Text.Utf8

/-!
# Distance between spellings

How many insertions, deletions and replacements of single bytes lead from one text to another. The
distances from all beginnings of the first text to all beginnings of the second form a table, which is
filled row by row.

## Main definitions

- `Spelling.Rows` — the two rows of the table that are kept
- `Spelling.fillRow?` — fill the next row
- `Spelling.distance?`, `Spelling.distance` — the last entry of the last row

## Design notes

The rows are used in turns: the next row is filled in the place of the one before the last, whose entries
stay where no new ones have been written yet. All entries are read and written by index, and an index that
is out of range leaves the computation without an answer.
-/

namespace CommandConsole.Spelling

variable {α : Type} [DecidableEq α]

/-- The rows of the table that are kept while it is filled. -/
structure Rows where
  /-- The last row that was filled. -/
  above : Array Nat
  /-- The place of the next row. -/
  spare : Array Nat
  deriving Repr

/-- Write one entry of a row. -/
def store? (row : Array Nat) (j entry : Nat) : Option (Array Nat) :=
  if h : j < row.size then some (row.set j entry h) else none

/-- The entry at `j` of the row for the first `i` elements of `as`, of which the entries before `j` stand
in `row`. -/
def cell? (as bs : Array α) (i : Nat) (above row : Array Nat) (j : Nat) : Option Nat := do
  let x ← as[i - 1]?
  let y ← bs[j - 1]?
  let up ← above[j]?
  let left ← row[j - 1]?
  let corner ← above[j - 1]?
  return min (min (up + 1) (left + 1)) (corner + if x = y then 0 else 1)

/-- Fill the next entry of a row. -/
def fillCell? (as bs : Array α) (i : Nat) (above row : Array Nat) (j : Nat) : Option (Array Nat) := do
  store? row j (← cell? as bs i above row j)

/-- Fill the row for the first `i` elements of `as`. It begins with the `i` deletions that leave nothing. -/
def fillRow? (as bs : Array α) (rows : Rows) (i : Nat) : Option Rows := do
  let row ← store? rows.spare 0 i
  let row ← (List.range' 1 bs.size).foldlM (fillCell? as bs i rows.above) row
  return { above := row, spare := rows.above }

/-- The first row: from nothing to the first `j` elements of `bs` takes `j` insertions. -/
def firstRows (bs : Array α) : Rows where
  above := (List.range (bs.size + 1)).toArray
  spare := Array.replicate (bs.size + 1) 0

/-- The last entry of the table, if every index on the way to it is in range. -/
def distanceBetween? (as bs : Array α) : Option Nat := do
  let rows ← (List.range' 1 as.size).foldlM (fillRow? as bs) (firstRows bs)
  rows.above[bs.size]?

/-- The distance between two texts, counted in bytes, if every index is in range. -/
def distance? (a b : String) : Option Nat :=
  distanceBetween? (Text.bytes a).toArray (Text.bytes b).toArray

/-- The least number of insertions, deletions and replacements of bytes that turn `a` into `b`. -/
def distance (a b : String) : Nat := (distance? a b).getD 0

end CommandConsole.Spelling
