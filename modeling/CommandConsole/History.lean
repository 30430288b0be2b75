/-!
# History

The submitted lines, of which the newest are kept, and the cursor of someone who browses them.
Browsing starts at the newest line and stops at the oldest; who goes past the newest line again finds
the input that was being typed before.

## Main definitions

- `History` — the kept lines, with the cursor and the saved input
- `History.record`, `History.clear`, `History.limit` — the changes to the lines
- `History.older`, `History.newer`, `History.leave` — browsing
- `History.Edit`, `History.edit` — all of them as data
-/

namespace CommandConsole

/-- The submitted lines that are kept. -/
structure History where
  /-- The kept lines, oldest first. -/
  entries : List String := []
  /-- How many lines are kept at most; `0` records nothing. -/
  capacity : Nat := 100
  /-- The place in `entries` of the line that is shown, while someone browses. -/
  cursor : Option Nat := none
  /-- The input that was being typed when browsing began. -/
  draft : String := ""
  deriving DecidableEq, Repr

namespace History

/-- An empty history that keeps at most `capacity` lines. -/
def new (capacity : Nat) : History := { capacity }

instance : Inhabited History := ⟨{}⟩

/-- The number of lines kept. -/
def size (history : History) : Nat := history.entries.length

/-- Whether no line is kept. -/
def isEmpty (history : History) : Bool := history.entries.isEmpty

/-- The newest line. -/
def last? (history : History) : Option String := history.entries.getLast?

/-- Stop browsing and forget the saved input. -/
def leave (history : History) : History := { history with cursor := none, draft := "" }

/-- The newest lines of a list, at most `capacity` of them. -/
def newest (capacity : Nat) (lines : List String) : List String :=
  lines.drop (lines.length - capacity)

/-- Record a submitted line, dropping the oldest one if the history is full, and stop browsing. A
capacity of `0` records nothing. -/
def record (history : History) (line : String) : History :=
  if history.capacity = 0 then history.leave
  else if history.size = history.capacity then
    { history.leave with entries := history.entries.tail ++ [line] }
  else { history.leave with entries := history.entries ++ [line] }

/-- Show the line before the one shown, or the newest one if none is shown; the oldest line stays. The
`input` is saved when browsing begins. Without any line the input itself is shown. -/
def older (history : History) (input : String) : String × History :=
  match history.entries.getLast? with
  | none => (input, { history with draft := input })
  | some newestLine =>
    match history.cursor with
    | none => (newestLine, { history with cursor := some (history.size - 1), draft := input })
    | some place => (history.entries.getD (place - 1) "", { history with cursor := some (place - 1) })

/-- Show the line after the one shown. Past the newest line, and while no line is shown, the saved
input is shown and browsing ends. -/
def newer (history : History) : String × History :=
  match history.cursor with
  | none => (history.draft, history)
  | some place =>
    match history.entries[place + 1]? with
    | some line => (line, { history with cursor := some (place + 1) })
    | none => (history.draft, { history with cursor := none })

/-- Forget every line and stop browsing. -/
def clear (history : History) : History := { history with entries := [] }.leave

/-- Keep at most `capacity` lines from now on, dropping the oldest that are too many, and stop
browsing. -/
def limit (history : History) (capacity : Nat) : History :=
  { history with capacity, entries := newest capacity history.entries }.leave

/-- A change to a history. -/
inductive Edit where
  | record (line : String)
  | older (input : String)
  | newer
  /-- Stop browsing. -/
  | leave
  | clear
  | limit (capacity : Nat)
  deriving DecidableEq, Repr

/-- Make a change. -/
def edit (history : History) : Edit → History
  | .record line => history.record line
  | .older input => (history.older input).2
  | .newer => history.newer.2
  | .leave => history.leave
  | .clear => history.clear
  | .limit capacity => history.limit capacity

end History

end CommandConsole
