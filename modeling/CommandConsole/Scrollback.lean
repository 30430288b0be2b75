import CommandConsole.Text.Rows

/-!
# Scrollback

The output of the console: styled rows with sequence numbers, of which the newest are kept. The
numbers count every row ever pushed, so that a display can ask for what is new since it last looked,
whatever was dropped or cleared in between.

## Main definitions

- `Style`, `Row` — how a row is meant, and the row itself
- `Scrollback` — the rows kept, with the number that the next one gets
- `Scrollback.push`, `Scrollback.clear`, `Scrollback.limit` — the changes to the rows
- `Scrollback.since` — the kept rows from a sequence number on
- `Scrollback.Edit`, `Scrollback.edit` — the changes as data
-/

namespace CommandConsole

/-- How an output row is meant. -/
inductive Style where
  | plain
  | info
  | warning
  | error
  deriving DecidableEq, Repr, Inhabited

/-- The short label that a display without colours can put in front of a row. -/
def Style.label : Style → String
  | plain => ""
  | info => "INFO"
  | warning => "WARN"
  | error => "ERROR"

/-- A row of output. -/
structure Row where
  /-- How many rows were pushed before this one: a counter of 64 bits, held as a natural number. -/
  seq : Nat
  style : Style
  /-- The text. It holds no line feed and ends in no carriage return. -/
  text : String
  deriving DecidableEq, Repr

/-- The output rows that are kept. -/
structure Scrollback where
  /-- The kept rows, oldest first. -/
  rows : List Row := []
  /-- How many rows are kept at most; `0` for no limit. -/
  maxRows : Nat := 1000
  /-- The sequence number that the next row gets: a counter of 64 bits, held as a natural number. -/
  nextSeq : Nat := 0
  /-- Whether a push asks the display to show the newest row. -/
  autoScroll : Bool := true
  /-- Whether the display has been asked to show the newest row and has not done it yet. -/
  scrollRequested : Bool := false
  deriving DecidableEq, Repr

namespace Scrollback

/-- An empty scrollback that keeps at most `maxRows` rows, or all if that is `0`. -/
def new (maxRows : Nat) : Scrollback := { maxRows }

instance : Inhabited Scrollback := ⟨{}⟩

/-- The number of rows kept. -/
def size (scrollback : Scrollback) : Nat := scrollback.rows.length

/-- Whether no row is kept. -/
def isEmpty (scrollback : Scrollback) : Bool := scrollback.rows.isEmpty

/-- The newest row. -/
def last? (scrollback : Scrollback) : Option Row := scrollback.rows.getLast?

/-- The newest rows of a list, as many as the limit allows; `0` allows all. -/
def newest (maxRows : Nat) (rows : List Row) : List Row :=
  if maxRows = 0 then rows else rows.drop (rows.length - maxRows)

/-- Rows of one style with consecutive sequence numbers from `first` on. -/
def numbered (style : Style) (first : Nat) : List String → List Row
  | [] => []
  | text :: texts => ⟨first, style, text⟩ :: numbered style (first + 1) texts

/-- Append a text, one row per line of it, and drop the oldest rows that are too many. -/
def push (scrollback : Scrollback) (style : Style) (text : String) : Scrollback :=
  let fresh := numbered style scrollback.nextSeq (Text.rows text)
  { scrollback with
    rows := newest scrollback.maxRows (scrollback.rows ++ fresh)
    nextSeq := scrollback.nextSeq + fresh.length
    scrollRequested := scrollback.scrollRequested || scrollback.autoScroll }

/-- Append a text without a style. -/
def plain (scrollback : Scrollback) (text : String) : Scrollback := scrollback.push .plain text

/-- Append general information. -/
def info (scrollback : Scrollback) (text : String) : Scrollback := scrollback.push .info text

/-- Append a warning. -/
def warning (scrollback : Scrollback) (text : String) : Scrollback := scrollback.push .warning text

/-- Append an error. -/
def error (scrollback : Scrollback) (text : String) : Scrollback := scrollback.push .error text

/-- Drop every row. The sequence numbers go on from where they were. -/
def clear (scrollback : Scrollback) : Scrollback := { scrollback with rows := [] }

/-- Keep at most `maxRows` rows from now on, and drop those that are too many at once. -/
def limit (scrollback : Scrollback) (maxRows : Nat) : Scrollback :=
  { scrollback with maxRows, rows := newest maxRows scrollback.rows }

/-- Choose whether a push asks the display to show the newest row. -/
def setAutoScroll (scrollback : Scrollback) (on : Bool) : Scrollback :=
  { scrollback with autoScroll := on }

/-- Ask the display to show the newest row. -/
def scrollToBottom (scrollback : Scrollback) : Scrollback :=
  { scrollback with scrollRequested := true }

/-- Whether the display has been asked to show the newest row; the request is then forgotten. -/
def takeScroll (scrollback : Scrollback) : Bool × Scrollback :=
  (scrollback.scrollRequested, { scrollback with scrollRequested := false })

/-- The kept rows with a sequence number of at least `seq`, oldest first. -/
def since (scrollback : Scrollback) (seq : Nat) : List Row :=
  scrollback.rows.filter (seq ≤ ·.seq)

/-- The kept rows as one text, one line per row. -/
def text (scrollback : Scrollback) : String :=
  Text.joinRows (scrollback.rows.map (·.text))

/-- A change to a scrollback. -/
inductive Edit where
  | push (style : Style) (text : String)
  | clear
  | limit (maxRows : Nat)
  /-- Choose whether a push asks for the newest row to be shown. -/
  | autoScroll (on : Bool)
  /-- Ask for the newest row to be shown. -/
  | scrollToBottom
  /-- Take the request to show the newest row. -/
  | takeScroll
  deriving DecidableEq, Repr

/-- Make a change. -/
def edit (scrollback : Scrollback) : Edit → Scrollback
  | .push style text => scrollback.push style text
  | .clear => scrollback.clear
  | .limit maxRows => scrollback.limit maxRows
  | .autoScroll on => scrollback.setAutoScroll on
  | .scrollToBottom => scrollback.scrollToBottom
  | .takeScroll => scrollback.takeScroll.2

end Scrollback

end CommandConsole
