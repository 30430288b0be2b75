import Mathlib.Data.List.DropRight
import CommandConsole.Scrollback

/-!
# The scrollback as a capped log

All the rows that were ever pushed make a log, in which the number of a row is its place. A scrollback keeps
the end of this log. Clearing and limits shorten what is kept, and never touch the numbers.

## Main definitions

- `Scrollback.log` — the rows that some edits push, with their numbers
- `Scrollback.limitIn` — the limit in force behind some edits
- `Scrollback.HasPlace` — neither the last of some edits nor the limit in force takes away a row
- `Scrollback.Follows` — a scrollback keeps the end of a log, within its limit

## Main statements

- `Scrollback.Follows.edit` — one edit is followed
- `Scrollback.Follows.since_eq_rtake` — what is new since a number is the end of what is kept
- `Scrollback.mem_rows_iff` — which rows are kept
- `Scrollback.after_refines_capped_log` — every sequence of edits leaves the end of its log
-/

namespace CommandConsole.Scrollback

/-- The rows that an edit pushes, if the next row gets the number `first`. -/
def Edit.pushed (first : Nat) : Edit → List Row
  | .push style text => numbered style first (Text.rows text)
  | _ => []

def Edit.limitFrom (maxRows : Nat) : Edit → Nat
  | .limit maxRows => maxRows
  | _ => maxRows

/-- The rows that some edits push, if the next row gets the number `first`. -/
def log (first : Nat) : List Edit → List Row
  | [] => []
  | next :: edits => next.pushed first ++ log (first + (next.pushed first).length) edits

/-- The limit in force behind some edits, if it was `maxRows` before them. -/
def limitIn (maxRows : Nat) (edits : List Edit) : Nat := edits.foldl Edit.limitFrom maxRows

/-- How many of `size` rows are too many. -/
def excess (maxRows size : Nat) : Nat := if maxRows = 0 then 0 else size - maxRows

def after (scrollback : Scrollback) (edits : List Edit) : Scrollback := edits.foldl edit scrollback

theorem after_append (scrollback : Scrollback) (earlier later : List Edit) :
    scrollback.after (earlier ++ later) = (scrollback.after earlier).after later := by
  simp [after]

theorem after_concat (scrollback : Scrollback) (edits : List Edit) (last : Edit) :
    scrollback.after (edits ++ [last]) = (scrollback.after edits).edit last :=
  scrollback.after_append edits [last]

theorem log_append (first : Nat) (earlier later : List Edit) :
    log first (earlier ++ later) =
      log first earlier ++ log (first + (log first earlier).length) later := by
  induction earlier generalizing first with
  | nil => rfl
  | cons next earlier ih => simp [log, ih, Nat.add_assoc]

theorem log_concat (first : Nat) (edits : List Edit) (last : Edit) :
    log first (edits ++ [last]) =
      log first edits ++ last.pushed (first + (log first edits).length) := by
  rw [log_append, log, log, List.append_nil]

theorem limitIn_concat (maxRows : Nat) (edits : List Edit) (last : Edit) :
    limitIn maxRows (edits ++ [last]) = last.limitFrom (limitIn maxRows edits) := by
  simp [limitIn]

-- ════════════════════════════════════════════════════════════════════════
-- Numbers
-- ════════════════════════════════════════════════════════════════════════

/-- The rows have consecutive numbers from `first` on. -/
def Consecutive (first : Nat) (rows : List Row) : Prop :=
  rows.map (·.seq) = List.range' first rows.length

theorem consecutive_numbered (style : Style) (first : Nat) (texts : List String) :
    Consecutive first (numbered style first texts) := by
  induction texts generalizing first with
  | nil => rfl
  | cons text texts ih =>
    have hrest := ih (first + 1)
    simp only [Consecutive, numbered, List.map_cons, List.length_cons, List.range'_succ] at hrest ⊢
    rw [hrest]

theorem consecutive_pushed (first : Nat) (next : Edit) : Consecutive first (next.pushed first) := by
  cases next with
  | push style text => exact consecutive_numbered style first _
  | clear | limit | autoScroll | scrollToBottom | takeScroll => rfl

theorem Consecutive.append {first : Nat} {rows rows' : List Row} (h : Consecutive first rows)
    (h' : Consecutive (first + rows.length) rows') : Consecutive first (rows ++ rows') := by
  unfold Consecutive at *
  rw [List.map_append, h, h', List.length_append, ← List.range'_append_1]

theorem consecutive_log (first : Nat) (edits : List Edit) : Consecutive first (log first edits) := by
  induction edits generalizing first with
  | nil => rfl
  | cons next edits ih => exact (consecutive_pushed first next).append (ih _)

theorem Consecutive.seq_mem {first : Nat} {rows : List Row} (h : Consecutive first rows) {row : Row}
    (hrow : row ∈ rows) : first ≤ row.seq ∧ row.seq < first + rows.length := by
  have hseq : row.seq ∈ rows.map (·.seq) := List.mem_map_of_mem hrow
  rwa [h, List.mem_range'_1] at hseq

theorem Consecutive.of_suffix {first : Nat} {rows all : List Row} (h : Consecutive first all)
    (hsuffix : rows <:+ all) : Consecutive (first + (all.length - rows.length)) rows := by
  have hlength := hsuffix.length_le
  have hrows := List.suffix_iff_eq_drop.mp hsuffix
  have hmap : rows.map (·.seq) = (all.map (·.seq)).drop (all.length - rows.length) := by
    rw [← List.map_drop, ← hrows]
  unfold Consecutive at *
  rw [hmap, h, List.drop_range', Nat.mul_one]
  congr 1
  omega

/-- Of consecutive rows those from a number on are the end. -/
theorem Consecutive.filter_eq_drop {first : Nat} {rows : List Row} (h : Consecutive first rows)
    (seq : Nat) : rows.filter (seq ≤ ·.seq) = rows.drop (seq - first) := by
  induction rows generalizing first with
  | nil => simp
  | cons row rows ih =>
    have hcons := h
    simp only [Consecutive, List.map_cons, List.length_cons, List.range'_succ, List.cons.injEq] at hcons
    obtain ⟨hseq, hrest⟩ := hcons
    have hrest := ih hrest
    by_cases hle : seq ≤ first
    · have hkept : seq - (first + 1) = 0 := by omega
      have hall : seq - first = 0 := by omega
      rw [List.filter_cons_of_pos (by simpa [hseq] using hle), hrest, hkept, hall, List.drop_zero,
        List.drop_zero]
    · obtain ⟨further, hfurther⟩ : ∃ further, seq - first = further + 1 := ⟨seq - first - 1, by omega⟩
      have hdropped : seq - (first + 1) = further := by omega
      rw [List.filter_cons_of_neg (by simpa [hseq] using hle), hrest, hdropped, hfurther,
        List.drop_succ_cons]

-- ════════════════════════════════════════════════════════════════════════
-- One edit
-- ════════════════════════════════════════════════════════════════════════

/-- A scrollback keeps the end of a log that is numbered from `0` on, within its limit, and gives the next row
the next number. -/
structure Follows (scrollback : Scrollback) (all : List Row) : Prop where
  consecutive : Consecutive 0 all
  nextSeq_eq : scrollback.nextSeq = all.length
  suffix : scrollback.rows <:+ all
  within : excess scrollback.maxRows scrollback.rows.length = 0

theorem newest_eq_drop (maxRows : Nat) (rows : List Row) :
    newest maxRows rows = rows.drop (excess maxRows rows.length) := by
  unfold newest excess
  split <;> simp

theorem nextSeq_edit (scrollback : Scrollback) (next : Edit) :
    (scrollback.edit next).nextSeq =
      scrollback.nextSeq + (next.pushed scrollback.nextSeq).length := by
  cases next <;> rfl

theorem nextSeq_after (scrollback : Scrollback) (edits : List Edit) :
    (scrollback.after edits).nextSeq =
      scrollback.nextSeq + (log scrollback.nextSeq edits).length := by
  induction edits generalizing scrollback with
  | nil => rfl
  | cons next edits ih =>
    show ((scrollback.edit next).after edits).nextSeq = _
    rw [ih, nextSeq_edit, log, List.length_append, Nat.add_assoc]

theorem maxRows_edit (scrollback : Scrollback) (next : Edit) :
    (scrollback.edit next).maxRows = next.limitFrom scrollback.maxRows := by
  cases next <;> rfl

theorem maxRows_after (scrollback : Scrollback) (edits : List Edit) :
    (scrollback.after edits).maxRows = limitIn scrollback.maxRows edits := by
  induction edits generalizing scrollback with
  | nil => rfl
  | cons next edits ih =>
    show ((scrollback.edit next).after edits).maxRows = _
    rw [ih, maxRows_edit]
    rfl

/-- What is kept behind an edit is the end of what was kept and what it pushes. -/
theorem rows_edit_suffix (scrollback : Scrollback) (next : Edit) :
    (scrollback.edit next).rows <:+ scrollback.rows ++ next.pushed scrollback.nextSeq := by
  cases next with
  | push style text =>
    show newest _ _ <:+ _
    rw [newest_eq_drop]
    exact List.drop_suffix _ _
  | clear => exact List.nil_suffix
  | limit maxRows =>
    show newest maxRows scrollback.rows <:+ scrollback.rows ++ []
    rw [newest_eq_drop, List.append_nil]
    exact List.drop_suffix _ _
  | autoScroll | scrollToBottom | takeScroll =>
    exact ⟨[], (List.append_nil scrollback.rows).symm⟩

theorem rows_after_suffix (scrollback : Scrollback) (edits : List Edit) :
    (scrollback.after edits).rows <:+ scrollback.rows ++ log scrollback.nextSeq edits := by
  induction edits generalizing scrollback with
  | nil => simp [after, log]
  | cons next edits ih =>
    have hrest := ih (scrollback.edit next)
    rw [nextSeq_edit] at hrest
    refine hrest.trans ?_
    rw [log, ← List.append_assoc]
    exact List.suffix_append_self_iff.mpr (scrollback.rows_edit_suffix next)

theorem newest_of_within {maxRows : Nat} {rows : List Row} (h : excess maxRows rows.length = 0) :
    newest maxRows rows = rows := by
  rw [newest_eq_drop, h, List.drop_zero]

theorem excess_newest (maxRows : Nat) (rows : List Row) :
    excess maxRows (newest maxRows rows).length = 0 := by
  rw [newest_eq_drop, List.length_drop]
  unfold excess
  split
  · rfl
  · omega

/-- **What an edit keeps.** An edit other than clearing keeps the newest rows that the limit behind it allows,
of those that were kept and those that it pushes. -/
theorem Follows.rows_edit {scrollback : Scrollback} {all : List Row} (h : scrollback.Follows all)
    {next : Edit} (hnext : next ≠ .clear) :
    (scrollback.edit next).rows =
      newest (next.limitFrom scrollback.maxRows)
        (scrollback.rows ++ next.pushed scrollback.nextSeq) := by
  cases next with
  | push style text => rfl
  | clear => exact absurd rfl hnext
  | limit maxRows =>
    show newest maxRows scrollback.rows = newest maxRows (scrollback.rows ++ [])
    rw [List.append_nil]
  | autoScroll | scrollToBottom | takeScroll =>
    show scrollback.rows = newest scrollback.maxRows (scrollback.rows ++ [])
    rw [List.append_nil, newest_of_within h.within]

theorem Follows.new (maxRows : Nat) : (new maxRows).Follows [] :=
  ⟨rfl, rfl, List.suffix_rfl, by simp [Scrollback.new, excess]⟩

/-- One edit is followed. -/
theorem Follows.edit {scrollback : Scrollback} {all : List Row} (h : scrollback.Follows all)
    (next : Edit) : (scrollback.edit next).Follows (all ++ next.pushed all.length) := by
  have hpushed : Consecutive (0 + all.length) (next.pushed all.length) := by
    rw [Nat.zero_add]
    exact consecutive_pushed _ _
  refine ⟨h.consecutive.append hpushed, ?_, ?_, ?_⟩
  · rw [nextSeq_edit, h.nextSeq_eq, List.length_append]
  · rw [← h.nextSeq_eq]
    exact (scrollback.rows_edit_suffix next).trans (List.suffix_append_self_iff.mpr h.suffix)
  · by_cases hclear : next = .clear
    · subst hclear
      show excess _ 0 = 0
      simp [excess]
    · rw [h.rows_edit hclear, maxRows_edit]
      exact excess_newest _ _

theorem Follows.after {scrollback : Scrollback} {all : List Row} (h : scrollback.Follows all)
    (edits : List Edit) : (scrollback.after edits).Follows (all ++ log all.length edits) := by
  induction edits generalizing scrollback all with
  | nil => rwa [log, List.append_nil]
  | cons next edits ih =>
    have hrest := ih (h.edit next)
    rwa [List.length_append, List.append_assoc] at hrest

theorem follows_after (maxRows : Nat) (edits : List Edit) :
    ((new maxRows).after edits).Follows (log 0 edits) :=
  (Follows.new maxRows).after edits

-- ════════════════════════════════════════════════════════════════════════
-- What is kept
-- ════════════════════════════════════════════════════════════════════════

section Kept

variable {scrollback : Scrollback} {all : List Row}

theorem Follows.size_le (h : scrollback.Follows all) : scrollback.rows.length ≤ scrollback.nextSeq :=
  h.nextSeq_eq ▸ h.suffix.length_le

/-- What is kept has the numbers right before the next one. -/
theorem Follows.consecutive_rows (h : scrollback.Follows all) :
    Consecutive (scrollback.nextSeq - scrollback.rows.length) scrollback.rows := by
  have hrows := h.consecutive.of_suffix h.suffix
  rwa [Nat.zero_add, ← h.nextSeq_eq] at hrows

/-- **What is new since a number** is the end of what is kept, as far as it goes back to that number. -/
theorem Follows.since_eq_rtake (h : scrollback.Follows all) (seq : Nat) :
    scrollback.since seq =
      scrollback.rows.rtake (min scrollback.rows.length (scrollback.nextSeq - seq)) := by
  have hsize := h.size_le
  rw [since, h.consecutive_rows.filter_eq_drop, List.rtake]
  by_cases hseq : seq ≤ scrollback.nextSeq
  · congr 1
    omega
  · rw [List.drop_eq_nil_of_le (by omega), List.drop_eq_nil_of_le (by omega)]

/-- Of the rows that are kept those from a number on are the ones that were pushed since the log had that
length. -/
theorem Follows.mem_log_iff (h : scrollback.Follows all) (edits : List Edit) {row : Row}
    (hrow : row ∈ (scrollback.after edits).rows) :
    row ∈ log scrollback.nextSeq edits ↔ scrollback.nextSeq ≤ row.seq := by
  rw [h.nextSeq_eq]
  constructor
  · intro hlog
    exact ((consecutive_log all.length edits).seq_mem hlog).1
  · intro hseq
    rcases List.mem_append.mp ((h.after edits).suffix.mem hrow) with hold | hnew
    · have hlt := (h.consecutive.seq_mem hold).2
      omega
    · exact hnew

end Kept

theorem Consecutive.mem_newest_iff {first : Nat} {rows : List Row} (h : Consecutive first rows)
    (maxRows : Nat) (row : Row) :
    row ∈ newest maxRows rows ↔
      row ∈ rows ∧ (maxRows = 0 ∨ first + rows.length - row.seq ≤ maxRows) := by
  have hdrop := h.filter_eq_drop (first + excess maxRows rows.length)
  rw [Nat.add_sub_cancel_left, ← newest_eq_drop] at hdrop
  rw [← hdrop, List.mem_filter, decide_eq_true_eq]
  refine and_congr_right fun hrow => ?_
  have hseq := h.seq_mem hrow
  unfold excess
  split
  · omega
  · omega

theorem Follows.mem_rows_edit {scrollback : Scrollback} {all : List Row} (h : scrollback.Follows all)
    (next : Edit) (row : Row) :
    row ∈ (scrollback.edit next).rows ↔
      next ≠ .clear ∧ (row ∈ scrollback.rows ∨ row ∈ next.pushed scrollback.nextSeq) ∧
        (next.limitFrom scrollback.maxRows = 0 ∨
          (scrollback.edit next).nextSeq - row.seq ≤ next.limitFrom scrollback.maxRows) := by
  by_cases hclear : next = .clear
  · subst hclear
    exact iff_of_false List.not_mem_nil fun hkept => hkept.1 rfl
  · have hsize := Nat.sub_add_cancel h.size_le
    have hrows : Consecutive (scrollback.nextSeq - scrollback.rows.length)
        (scrollback.rows ++ next.pushed scrollback.nextSeq) := by
      refine h.consecutive_rows.append ?_
      rw [hsize]
      exact consecutive_pushed _ _
    rw [h.rows_edit hclear, hrows.mem_newest_iff, List.mem_append, List.length_append, ← Nat.add_assoc,
      hsize, ← nextSeq_edit]
    exact (and_iff_right hclear).symm

/-- Right behind some edits there is a place for a row: the last of them has not cleared, and from this row on
no more rows have been pushed than the limit in force allows. -/
structure HasPlace (maxRows : Nat) (edits : List Edit) (row : Row) : Prop where
  not_cleared : edits.getLast? ≠ some .clear
  within : limitIn maxRows edits = 0 ∨ (log 0 edits).length - row.seq ≤ limitIn maxRows edits

theorem hasPlace_concat_iff (maxRows : Nat) (edits : List Edit) (last : Edit) (row : Row) :
    HasPlace maxRows (edits ++ [last]) row ↔
      last ≠ .clear ∧ (last.limitFrom (limitIn maxRows edits) = 0 ∨
        (log 0 (edits ++ [last])).length - row.seq ≤ last.limitFrom (limitIn maxRows edits)) := by
  rw [← limitIn_concat]
  constructor
  · rintro ⟨hcleared, hwithin⟩
    exact ⟨fun hlast => hcleared (by simp [hlast]), hwithin⟩
  · rintro ⟨hlast, hwithin⟩
    exact ⟨fun hcleared => hlast (by simpa using hcleared), hwithin⟩

/-- **Which rows are kept**: those that have always had a place since they were pushed. -/
theorem mem_rows_iff (maxRows : Nat) (edits : List Edit) {row : Row} (hrow : row ∈ log 0 edits) :
    row ∈ ((new maxRows).after edits).rows ↔
      ∀ moment, moment <+: edits → row ∈ log 0 moment → HasPlace maxRows moment row := by
  induction edits using List.reverseRecOn with
  | nil => cases hrow
  | append_singleton edits last ih =>
    have hfollows := follows_after maxRows edits
    have hlast := hfollows.edit last
    have hlog : row ∈ log 0 edits ∨ row ∈ last.pushed (log 0 edits).length := by
      rwa [log_concat, Nat.zero_add, List.mem_append] at hrow
    -- a row is new, or it was kept exactly if it has had a place so far
    have hbefore : (row ∈ ((new maxRows).after edits).rows ∨ row ∈ last.pushed (log 0 edits).length) ↔
        ∀ moment, moment <+: edits → row ∈ log 0 moment → HasPlace maxRows moment row := by
      by_cases hold : row ∈ log 0 edits
      · have hnot : row ∉ last.pushed (log 0 edits).length := by
          intro hnew
          have hlt := ((consecutive_log 0 edits).seq_mem hold).2
          have hle := ((consecutive_pushed _ last).seq_mem hnew).1
          omega
        rw [or_iff_left hnot, ih hold]
      · refine iff_of_true (Or.inr (hlog.resolve_left hold)) fun moment hmoment hthere => ?_
        obtain ⟨rest, rfl⟩ := hmoment
        rw [log_append] at hold
        exact absurd (List.mem_append_left _ hthere) hold
    have hlength : (((new maxRows).after edits).edit last).nextSeq =
        (log 0 (edits ++ [last])).length := by
      rw [hlast.nextSeq_eq, log_concat, Nat.zero_add]
    have hlimit : ((new maxRows).after edits).maxRows = limitIn maxRows edits :=
      maxRows_after (new maxRows) edits
    rw [after_concat, hfollows.mem_rows_edit, hfollows.nextSeq_eq, hbefore, hlength, hlimit,
      and_left_comm, ← hasPlace_concat_iff]
    constructor
    · rintro ⟨hmoments, hnow⟩ moment hmoment hthere
      rcases List.prefix_concat_iff.mp hmoment with rfl | hearlier
      · exact hnow
      · exact hmoments moment hearlier hthere
    · intro hmoments
      refine ⟨fun moment hmoment => hmoments moment ?_, hmoments _ List.prefix_rfl hrow⟩
      exact hmoment.trans (List.prefix_append edits [last])

/-- **A scrollback refines a capped log.** After every sequence of edits the rows that are kept have the
numbers right before the next one, and the next number counts all rows that were ever pushed. They are the
end of what was pushed, and of what was pushed since any clearing, and they keep to the limit in force. A row is
kept exactly if it has always had a place since it was pushed; every further edit, unless it clears, drops as
many of the oldest rows as are too many and no other. What is new since a number is the end of the kept rows
that goes back to it. -/
theorem after_refines_capped_log (maxRows : Nat) (edits : List Edit) :
    let scrollback := (new maxRows).after edits
    let rows := scrollback.rows
    let all := log 0 edits
    (rows.length ≤ scrollback.nextSeq ∧
      rows.map (·.seq) = List.range' (scrollback.nextSeq - rows.length) rows.length) ∧
    (scrollback.nextSeq = all.length ∧ all.map (·.seq) = List.range all.length) ∧
    (rows <:+ all ∧ ∀ earlier later, edits = earlier ++ .clear :: later →
      rows <:+ log (log 0 earlier).length later) ∧
    (scrollback.maxRows = limitIn maxRows edits ∧
      (0 < scrollback.maxRows → rows.length ≤ scrollback.maxRows)) ∧
    (∀ row ∈ all, row ∈ rows ↔
      ∀ moment, moment <+: edits → row ∈ log 0 moment → HasPlace maxRows moment row) ∧
    (∀ next, next ≠ .clear → ∃ dropped,
      rows ++ next.pushed scrollback.nextSeq = dropped ++ (scrollback.edit next).rows ∧
      dropped.length = excess (next.limitFrom scrollback.maxRows)
        (rows.length + (next.pushed scrollback.nextSeq).length)) ∧
    (∀ seq, scrollback.since seq =
      rows.rtake (min rows.length (scrollback.nextSeq - seq))) := by
  intro scrollback rows all
  have h : scrollback.Follows all := follows_after maxRows edits
  refine ⟨⟨h.size_le, h.consecutive_rows⟩, ⟨h.nextSeq_eq, ?_⟩, ⟨h.suffix, ?_⟩,
    ⟨maxRows_after (new maxRows) edits, ?_⟩, fun row => mem_rows_iff maxRows edits, ?_, h.since_eq_rtake⟩
  · rw [List.range_eq_range']
    exact h.consecutive
  · rintro earlier later hedits
    have hcleared : scrollback = (((new maxRows).after earlier).edit .clear).after later := by
      show (new maxRows).after edits = _
      rw [hedits, after_append]
      rfl
    have hsuffix := rows_after_suffix (((new maxRows).after earlier).edit .clear) later
    rw [nextSeq_edit, (follows_after maxRows earlier).nextSeq_eq] at hsuffix
    show scrollback.rows <:+ _
    rw [hcleared]
    exact hsuffix
  · intro hlimit
    have hwithin := h.within
    rw [excess, if_neg (by omega)] at hwithin
    show scrollback.rows.length ≤ _
    omega
  · intro next hnext
    refine ⟨(rows ++ next.pushed scrollback.nextSeq).take (excess (next.limitFrom scrollback.maxRows)
      (rows ++ next.pushed scrollback.nextSeq).length), ?_, ?_⟩
    · rw [h.rows_edit hnext, newest_eq_drop, List.take_append_drop]
    · have hle : excess (next.limitFrom scrollback.maxRows)
          (rows ++ next.pushed scrollback.nextSeq).length ≤
            (rows ++ next.pushed scrollback.nextSeq).length := by
        unfold excess
        split <;> omega
      rw [List.length_take, Nat.min_eq_left hle, List.length_append]

/-- Of three rows that are pushed at once under a limit of two, the first one is never kept. -/
example :
    ((new 2).after [.push .info "a", .push .plain "b\nc\nd", .limit 0, .push .error "e"]).rows =
      [⟨2, .plain, "c"⟩, ⟨3, .plain, "d"⟩, ⟨4, .error, "e"⟩] := by
  decide +kernel

end CommandConsole.Scrollback
