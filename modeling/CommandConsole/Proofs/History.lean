import Mathlib.Data.List.DropRight
import CommandConsole.History

/-!
# The history as a bounded log

A history drops one line at a time, when a line is recorded and there is no room left. That is enough for it to
keep the newest lines within its capacity, as long as every change of the capacity drops all the lines that are
too many at once. Whoever browses it looks at a line that is kept.

## Main definitions

- `History.Log`, `History.Log.after` — the log that keeps the newest lines each time
- `History.Edit.browses` — the edits that are about browsing
- `History.Follows` — a history keeps the lines of a log, and its cursor stands at one of them

## Main statements

- `History.Follows.edit` — one edit is followed
- `History.Follows.shown_older`, `History.shown_newer` — what is shown is a line that is kept
- `History.after_refines_bounded_log` — every sequence of edits leaves the lines of the log
-/

namespace CommandConsole.History

/-- Whether an edit is about browsing, and not about the lines. -/
def Edit.browses : Edit → Bool
  | older _ | newer | leave => true
  | record _ | clear | limit _ => false

def after (history : History) (edits : List Edit) : History := edits.foldl edit history

/-- A list of lines, of which the newest ones are kept each time. -/
structure Log where
  lines : List String
  capacity : Nat

def Log.edit (log : Log) : Edit → Log
  | .record line => { log with lines := (log.lines ++ [line]).rtake log.capacity }
  | .clear => { log with lines := [] }
  | .limit capacity => ⟨log.lines.rtake capacity, capacity⟩
  | .older _ | .newer | .leave => log

def Log.after (log : Log) (edits : List Edit) : Log := edits.foldl Log.edit log

/-- A history keeps the lines of a log. There is room for them, and the cursor, if there is one, stands at one
of them. -/
structure Follows (history : History) (log : Log) : Prop where
  entries_eq : history.entries = log.lines
  capacity_eq : history.capacity = log.capacity
  within : history.size ≤ history.capacity
  cursor_lt : ∀ place, history.cursor = some place → place < history.size

variable {history : History} {log : Log}

theorem Follows.new (capacity : Nat) : (new capacity).Follows ⟨[], capacity⟩ :=
  ⟨rfl, rfl, Nat.zero_le _, nofun⟩

-- ════════════════════════════════════════════════════════════════════════
-- The lines
-- ════════════════════════════════════════════════════════════════════════

/-- Where there was room for all lines, dropping the oldest one makes room for one more. -/
theorem entries_record (h : history.size ≤ history.capacity) (line : String) :
    (history.record line).entries = (history.entries ++ [line]).rtake history.capacity := by
  have hlength : (history.entries ++ [line]).length = history.size + 1 := by simp [size]
  unfold record
  split
  · rename_i hnone
    have hempty : history.entries = [] := List.length_eq_zero_iff.mp (by simp only [size] at h; omega)
    simp [hnone, leave, hempty]
  · rename_i hsome
    split
    · rename_i hfull
      -- a full history that records anything has an oldest line
      obtain ⟨oldest, others, hentries⟩ := List.exists_cons_of_ne_nil (l := history.entries) <| by
        rintro hempty
        simp [size, hempty] at hfull
        omega
      have hone : history.size + 1 - history.capacity = 1 := by omega
      rw [List.rtake, hlength, hone, hentries]
      rfl
    · have hall : history.size + 1 - history.capacity = 0 := by omega
      rw [List.rtake, hlength, hall]
      rfl

theorem capacity_record (history : History) (line : String) :
    (history.record line).capacity = history.capacity := by
  unfold record
  split
  · rfl
  · split <;> rfl

theorem cursor_record (history : History) (line : String) : (history.record line).cursor = none := by
  unfold record
  split
  · rfl
  · split <;> rfl

theorem length_rtake_le {α : Type} (lines : List α) (capacity : Nat) :
    (lines.rtake capacity).length ≤ capacity := by
  rw [List.rtake, List.length_drop]
  omega

theorem Follows.record (h : history.Follows log) (line : String) :
    (history.record line).Follows (log.edit (.record line)) := by
  have hentries := entries_record h.within line
  have hcapacity := history.capacity_record line
  refine ⟨?_, hcapacity.trans h.capacity_eq, ?_, ?_⟩
  · rw [hentries, h.entries_eq, h.capacity_eq]
    rfl
  · rw [size, hentries, hcapacity]
    exact length_rtake_le _ _
  · rw [cursor_record]
    nofun

theorem Follows.limit (h : history.Follows log) (capacity : Nat) :
    (history.limit capacity).Follows (log.edit (.limit capacity)) :=
  ⟨congrArg (List.rtake · capacity) h.entries_eq, rfl, length_rtake_le history.entries capacity, nofun⟩

-- ════════════════════════════════════════════════════════════════════════
-- Browsing
-- ════════════════════════════════════════════════════════════════════════

theorem older_of_empty (hempty : history.entries = []) (input : String) :
    history.older input = (input, { history with draft := input }) := by
  simp [older, hempty]

/-- The first step back goes to the newest line, and every other one to the line before or to the oldest. -/
theorem older_of_ne_nil (hlines : history.entries ≠ []) (input : String) :
    history.older input =
      match history.cursor with
      | none => (history.entries.getD (history.size - 1) "",
          { history with cursor := some (history.size - 1), draft := input })
      | some place =>
        (history.entries.getD (place - 1) "", { history with cursor := some (place - 1) }) := by
  have hlast : history.entries.getLast? = some (history.entries.getD (history.size - 1) "") := by
    have hsize : history.size - 1 < history.entries.length := by
      have hpos := List.length_pos_of_ne_nil hlines
      simp only [size]
      omega
    rw [List.getLast?_eq_getElem?, List.getD_eq_getElem?_getD]
    simp only [size] at hsize ⊢
    rw [List.getElem?_eq_getElem hsize]
    rfl
  unfold older
  cases history.cursor with
  | none => rw [hlast]
  | some place => rw [hlast]

/-- A history without lines gives the input back. Any other one shows the line at its cursor. -/
theorem Follows.shown_older (h : history.Follows log) (input : String) :
    (history.entries = [] ∧ history.older input = (input, { history with draft := input })) ∨
      ∃ place, (history.older input).2.cursor = some place ∧
        history.entries[place]? = some (history.older input).1 := by
  by_cases hempty : history.entries = []
  · exact Or.inl ⟨hempty, older_of_empty hempty input⟩
  · right
    have hpos : 0 < history.entries.length := List.length_pos_of_ne_nil hempty
    have hshown (place : Nat) (hplace : place < history.entries.length) :
        history.entries[place]? = some (history.entries.getD place "") := by
      rw [List.getD_eq_getElem?_getD, List.getElem?_eq_getElem hplace]
      rfl
    rw [older_of_ne_nil hempty]
    cases hcursor : history.cursor with
    | none => exact ⟨_, rfl, hshown _ (by simp only [size]; omega)⟩
    | some place =>
      have hplace : place < history.entries.length := h.cursor_lt place hcursor
      exact ⟨_, rfl, hshown _ (by omega)⟩

/-- Past the newest line the saved input is shown and browsing ends. Before that, it is the line at the
cursor. -/
theorem shown_newer (history : History) :
    history.newer = (history.draft, { history with cursor := none }) ∨
      ∃ place, history.newer.2.cursor = some place ∧
        history.entries[place]? = some history.newer.1 := by
  unfold newer
  split
  · rename_i hcursor
    left
    rw [← hcursor]
  · rename_i place hcursor
    split
    · rename_i line hline
      exact Or.inr ⟨place + 1, rfl, hline⟩
    · exact Or.inl rfl

/-- Browsing changes the cursor and the saved input alone. -/
theorem edit_of_browses (history : History) {next : Edit} (hnext : next.browses = true) :
    (history.edit next).entries = history.entries ∧
      (history.edit next).capacity = history.capacity := by
  cases next with
  | older input =>
    show (history.older input).2.entries = _ ∧ (history.older input).2.capacity = _
    unfold older
    split
    · exact ⟨rfl, rfl⟩
    · split <;> exact ⟨rfl, rfl⟩
  | newer =>
    show history.newer.2.entries = _ ∧ history.newer.2.capacity = _
    unfold newer
    split
    · exact ⟨rfl, rfl⟩
    · split <;> exact ⟨rfl, rfl⟩
  | leave => exact ⟨rfl, rfl⟩
  | record | clear | limit => cases hnext

theorem cursor_edit_of_not_browses (history : History) {next : Edit} (hnext : next.browses = false) :
    (history.edit next).cursor = none := by
  cases next with
  | record line => exact history.cursor_record line
  | clear | limit => rfl
  | older | newer | leave => cases hnext

theorem Follows.cursor_lt_of_browses (h : history.Follows log) {next : Edit}
    (hnext : next.browses = true) (place : Nat) (hplace : (history.edit next).cursor = some place) :
    place < history.size := by
  cases next with
  | older input =>
    rcases h.shown_older input with ⟨-, hempty⟩ | ⟨shown, hcursor, hline⟩
    · have hsame : (history.edit (.older input)).cursor = history.cursor := by
        show (history.older input).2.cursor = _
        rw [hempty]
      exact h.cursor_lt place (hsame.symm.trans hplace)
    · cases hcursor.symm.trans hplace
      exact (List.getElem?_eq_some_iff.mp hline).1
  | newer =>
    rcases history.shown_newer with hdraft | ⟨shown, hcursor, hline⟩
    · have hnone : (history.edit .newer).cursor = none := congrArg (·.2.cursor) hdraft
      cases hnone.symm.trans hplace
    · cases hcursor.symm.trans hplace
      exact (List.getElem?_eq_some_iff.mp hline).1
  | leave => cases hplace
  | record | clear | limit => cases hnext

-- ════════════════════════════════════════════════════════════════════════
-- All edits
-- ════════════════════════════════════════════════════════════════════════

/-- One edit is followed. -/
theorem Follows.edit (h : history.Follows log) (next : Edit) :
    (history.edit next).Follows (log.edit next) := by
  have hbrowses (hnext : next.browses = true) (hlog : log.edit next = log) :
      (history.edit next).Follows (log.edit next) := by
    obtain ⟨hentries, hcapacity⟩ := history.edit_of_browses hnext
    have hsize : (history.edit next).size = history.size := congrArg List.length hentries
    rw [hlog]
    refine ⟨hentries.trans h.entries_eq, hcapacity.trans h.capacity_eq, ?_, fun place hplace => ?_⟩
    · rw [hsize, hcapacity]
      exact h.within
    · rw [hsize]
      exact h.cursor_lt_of_browses hnext place hplace
  cases next with
  | record line => exact h.record line
  | clear => exact ⟨rfl, h.capacity_eq, Nat.zero_le _, nofun⟩
  | limit capacity => exact h.limit capacity
  | older | newer | leave => exact hbrowses rfl rfl

theorem Follows.after (h : history.Follows log) (edits : List Edit) :
    (history.after edits).Follows (log.after edits) := by
  induction edits generalizing history log with
  | nil => exact h
  | cons next edits ih => exact ih (h.edit next)

/-- **A history keeps the lines of the bounded log.** Whatever has been recorded, cleared, limited and browsed in
any order since it was made, its lines are those of the log that keeps the newest ones each time, and they are
never more than the capacity in force. A cursor stands at one of them. So whoever goes on browsing is shown the
line at the cursor, unless there is none or the newest one was passed. Browsing changes no line, and every other
edit ends it. -/
theorem after_refines_bounded_log (capacity : Nat) (edits : List Edit) :
    let history := (new capacity).after edits
    let log := (Log.mk [] capacity).after edits
    history.entries = log.lines ∧ history.capacity = log.capacity ∧
      history.size ≤ history.capacity ∧
      (∀ place, history.cursor = some place → place < history.size) ∧
      (∀ input,
        (history.entries = [] ∧ history.older input = (input, { history with draft := input })) ∨
        ∃ place, (history.older input).2.cursor = some place ∧
          history.entries[place]? = some (history.older input).1) ∧
      (history.newer = (history.draft, { history with cursor := none }) ∨
        ∃ place, history.newer.2.cursor = some place ∧
          history.entries[place]? = some history.newer.1) ∧
      (∀ next : Edit, next.browses = true → (history.edit next).entries = history.entries) ∧
      (∀ next : Edit, next.browses = false → (history.edit next).cursor = none) := by
  intro history log
  have h : history.Follows log := (Follows.new capacity).after edits
  exact ⟨h.entries_eq, h.capacity_eq, h.within, h.cursor_lt, h.shown_older, history.shown_newer,
    fun _ hnext => (history.edit_of_browses hnext).1,
    fun _ hnext => history.cursor_edit_of_not_browses hnext⟩

/-- The capacity goes down to `0` and up again while someone browses. -/
example :
    let history := (new 3).after
      [.record "a", .record "b", .older "", .limit 0, .record "c", .limit 2, .record "d", .record "e",
        .record "f", .older "g"]
    history.entries = ["e", "f"] ∧ history.cursor = some 1 ∧ history.draft = "g" := by decide

end CommandConsole.History
