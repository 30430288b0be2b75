import CommandConsole.Proofs.Host.Activities
import CommandConsole.Proofs.Host.Clock
import CommandConsole.Proofs.Text.Rows

/-!
# What the terminal shows

At the end of each frame the terminal prints the rows that are new to it. It knows them by their numbers alone,
whatever was cleared or dropped in between, and it takes a row for an echo by the look of it alone.

## Main definitions

- `Row.printedAs` — the text that is printed for a row
- `Host.shownBy` — the rows that each of some frames shows
- `Host.Attends` — the terminal has come as far as the output

## Main statements

- `Host.printed_afterFrames` — the text that frames print
- `Host.Attends.rows_busy` — the rows that a frame shows
- `Host.Attends.seq_shownBy` — between which numbers the rows of frames lie
- `Host.shown_once` — rows are shown once, and exactly those that are kept until they can be
- `Host.shown_unless_looksLikeEcho` — a terminal that leaves out echoes leaves out what looks like one
-/

namespace CommandConsole

-- ════════════════════════════════════════════════════════════════════════
-- A terminal and an output
-- ════════════════════════════════════════════════════════════════════════

theorem Scrollback.Follows.since_nextSeq {output : Scrollback} {all : List Row}
    (h : output.Follows all) : output.since output.nextSeq = [] := by
  rw [h.since_eq_rtake, Nat.sub_self, Nat.min_zero, List.rtake_zero]

/-- The text that is printed for a row: its own one, or with colours its own one between two control sequences. The
first of these sets a colour, namely the usual one, cyan, yellow or red by the style, and the second one sets the
usual colour again. -/
def Row.printedAs (colored : Bool) (row : Row) : String :=
  match colored, row.style with
  | false, _ => row.text
  | true, .plain => "\x1b[0m" ++ row.text ++ "\x1b[0m"
  | true, .info => "\x1b[36m" ++ row.text ++ "\x1b[0m"
  | true, .warning => "\x1b[33m" ++ row.text ++ "\x1b[0m"
  | true, .error => "\x1b[31m" ++ row.text ++ "\x1b[0m"

theorem Terminal.format_eq (colored : Bool) : format colored = Row.printedAs colored := by
  funext row
  obtain ⟨seq, style, text⟩ := row
  cases colored with
  | false => rfl
  | true => cases style <;> rfl

/-- Whether there is anything new makes no difference: without new rows there are none to show. -/
theorem Terminal.rows_eq_filter (terminal : Terminal) {output : Scrollback} {all : List Row}
    (h : output.Follows all) :
    terminal.rows output =
      (output.since terminal.printed).filter fun row => terminal.echoInput || !looksLikeEcho row := by
  unfold rows
  split
  · rename_i heq
    rw [← heq, h.since_nextSeq]
    rfl
  · rfl

theorem Terminal.looksLikeEcho_iff (row : Row) :
    looksLikeEcho row = true ↔ row.style = .plain ∧ "> ".toList <+: row.text.toList := by
  simp [looksLikeEcho]

/-- An echo looks like one in its first row. It has others only if there is a line feed in the line. -/
theorem Terminal.looksLikeEcho_pushed (first : Nat) (line : String) :
    ∃ row others, (Scrollback.Edit.push .plain ("> " ++ line)).pushed first = row :: others ∧
      looksLikeEcho row = true ∧ ('\n' ∉ line.toList → others = []) := by
  have hfeed : '\n' ∉ "> ".toList := by decide
  have hreturn : "> ".toList.getLast? ≠ some '\r' := by decide
  obtain ⟨text, texts, hrows, -, hone⟩ := Text.exists_rows_append hfeed hreturn line
  refine ⟨⟨first, .plain, "> " ++ text⟩, Scrollback.numbered .plain (first + 1) texts, ?_, ?_, ?_⟩
  · show Scrollback.numbered .plain first (Text.rows ("> " ++ line)) = _
    rw [hrows]
    rfl
  · simp [looksLikeEcho]
  · intro hline
    rw [hone hline]
    rfl

namespace Host

variable {ω ε : Type}

/-- The rows that each of some frames shows. -/
def shownBy (host : Host ω ε) : List (List (Activity ω)) → List (List Row)
  | [] => []
  | activities :: frames =>
    (host.busy activities).terminal.rows (host.busy activities).console.output ::
      (host.busy activities).print.shownBy frames

theorem shownBy_append (host : Host ω ε) (earlier later : List (List (Activity ω))) :
    host.shownBy (earlier ++ later) =
      host.shownBy earlier ++ (host.afterFrames earlier).shownBy later := by
  induction earlier generalizing host with
  | nil => rfl
  | cons activities earlier ih =>
    rw [List.cons_append, shownBy, shownBy, ih]
    rfl

theorem length_shownBy (frames : List (List (Activity ω))) (host : Host ω ε) :
    (host.shownBy frames).length = frames.length := by
  induction frames generalizing host with
  | nil => rfl
  | cons activities frames ih => simp [shownBy, ih]

theorem getElem?_shownBy (host : Host ω ε) (earlier later : List (List (Activity ω)))
    (activities : List (Activity ω)) :
    (host.shownBy (earlier ++ activities :: later))[earlier.length]? =
      some (((host.afterFrames earlier).busy activities).terminal.rows
        ((host.afterFrames earlier).busy activities).console.output) := by
  have hlength := length_shownBy earlier host
  rw [shownBy_append, shownBy, List.getElem?_append_right (Nat.le_of_eq hlength), hlength, Nat.sub_self]
  rfl

theorem terminal_afterFrames (frames : List (List (Activity ω))) (host : Host ω ε) :
    (host.afterFrames frames).terminal.colored = host.terminal.colored ∧
      (host.afterFrames frames).terminal.echoInput = host.terminal.echoInput := by
  induction frames generalizing host with
  | nil => exact ⟨rfl, rfl⟩
  | cons activities frames ih =>
    obtain ⟨hcolored, hecho⟩ := ih (host.busy activities).print
    have hbusy := (writes_busy activities host).terminal
    exact ⟨hcolored.trans (congrArg Terminal.colored hbusy :),
      hecho.trans (congrArg Terminal.echoInput hbusy :)⟩

/-- **What is printed** are the texts of the rows that are shown, in their colours if the terminal has them. -/
theorem printed_afterFrames (frames : List (List (Activity ω))) (host : Host ω ε) :
    (host.afterFrames frames).outbox.printed =
      host.outbox.printed ++ (host.shownBy frames).flatten.map (Row.printedAs host.terminal.colored) := by
  induction frames generalizing host with
  | nil => simp [afterFrames, shownBy]
  | cons activities frames ih =>
    have hbusy := writes_busy activities host
    have hprint : (host.busy activities).print.outbox.printed = host.outbox.printed ++
        ((host.busy activities).terminal.rows (host.busy activities).console.output).map
          (Row.printedAs host.terminal.colored) := by
      rw [← Terminal.format_eq, ← hbusy.printed, ← hbusy.terminal]
      rfl
    have hcolored : (host.busy activities).print.terminal.colored = host.terminal.colored :=
      (congrArg Terminal.colored hbusy.terminal :)
    show ((host.busy activities).print.afterFrames frames).outbox.printed = _
    rw [ih, hprint, hcolored, shownBy, List.flatten_cons, List.map_append, List.append_assoc]

-- ════════════════════════════════════════════════════════════════════════
-- Frames
-- ════════════════════════════════════════════════════════════════════════

/-- The terminal has come as far as the output, and the output is numbered. -/
structure Attends (host : Host ω ε) : Prop where
  printed : host.terminal.printed = host.console.output.nextSeq
  follows : ∃ all, host.console.output.Follows all

theorem map_snd_sourcedIn (host : Host ω ε) (activities : List (Activity ω)) :
    (host.sourcedIn activities).map Prod.snd =
      Scrollback.log host.console.output.nextSeq ((host.revisionsIn activities).map (·.edit)) :=
  Revision.map_snd_sourced _ _

theorem nextSeq_busy (host : Host ω ε) (activities : List (Activity ω)) :
    (host.busy activities).console.output.nextSeq =
      host.console.output.nextSeq + ((host.sourcedIn activities).map Prod.snd).length := by
  rw [(writes_busy activities host).output, Scrollback.nextSeq_after, map_snd_sourcedIn]

theorem nextSeq_le_afterFrames (frames : List (List (Activity ω))) (host : Host ω ε) :
    host.console.output.nextSeq ≤ (host.afterFrames frames).console.output.nextSeq := by
  induction frames generalizing host with
  | nil => exact Nat.le_refl _
  | cons activities frames ih =>
    have hfirst := host.nextSeq_busy activities
    have hrest : (host.busy activities).console.output.nextSeq ≤
        (host.afterFrames (activities :: frames)).console.output.nextSeq :=
      ih (host.busy activities).print
    omega

/-- The rows that are pushed lie between the number that was next before and the one that is next behind. -/
theorem seq_pushed (host : Host ω ε) (activities : List (Activity ω)) {row : Row}
    (hrow : row ∈ (host.sourcedIn activities).map Prod.snd) :
    host.console.output.nextSeq ≤ row.seq ∧
      row.seq < (host.busy activities).console.output.nextSeq := by
  rw [nextSeq_busy]
  rw [map_snd_sourcedIn] at hrow ⊢
  exact (Scrollback.consecutive_log _ _).seq_mem hrow

section Frame

variable {host : Host ω ε} (h : host.Attends) (activities : List (Activity ω))

include h

theorem Attends.follows_busy : ∃ all, (host.busy activities).console.output.Follows all := by
  obtain ⟨all, hall⟩ := h.follows
  rw [(writes_busy activities host).output]
  exact ⟨_, hall.after _⟩

theorem Attends.print_busy : (host.busy activities).print.Attends :=
  ⟨rfl, h.follows_busy activities⟩

theorem Attends.mem_pushed_iff {row : Row} (hrow : row ∈ (host.busy activities).console.output.rows) :
    row ∈ (host.sourcedIn activities).map Prod.snd ↔ host.console.output.nextSeq ≤ row.seq := by
  obtain ⟨all, hall⟩ := h.follows
  rw [map_snd_sourcedIn]
  rw [(writes_busy activities host).output] at hrow
  exact hall.mem_log_iff _ hrow

/-- **The rows that a frame shows**: of those that are kept, the ones that were pushed in it, without what
looks like an echo if echoes are left out. -/
theorem Attends.rows_busy :
    (host.busy activities).terminal.rows (host.busy activities).console.output =
      (host.busy activities).console.output.rows.filter fun row =>
        row ∈ (host.sourcedIn activities).map Prod.snd ∧
          (host.terminal.echoInput || !Terminal.looksLikeEcho row) = true := by
  obtain ⟨all, hall⟩ := h.follows_busy activities
  rw [Terminal.rows_eq_filter _ hall, (writes_busy activities host).terminal, h.printed, Scrollback.since,
    List.filter_filter]
  refine List.filter_congr fun row hrow => ?_
  rw [Bool.eq_iff_iff]
  simp only [Bool.and_eq_true, decide_eq_true_eq, h.mem_pushed_iff activities hrow, and_comm]

theorem Attends.mem_rows_busy {row : Row}
    (hrow : row ∈ (host.busy activities).terminal.rows (host.busy activities).console.output) :
    row ∈ (host.busy activities).console.output.rows ∧
      row ∈ (host.sourcedIn activities).map Prod.snd := by
  rw [h.rows_busy, List.mem_filter, decide_eq_true_eq] at hrow
  exact ⟨hrow.1, hrow.2.1⟩

end Frame

theorem Attends.afterFrames {host : Host ω ε} (h : host.Attends) (frames : List (List (Activity ω))) :
    (host.afterFrames frames).Attends := by
  induction frames generalizing host with
  | nil => exact h
  | cons activities frames ih => exact ih (h.print_busy activities)

/-- The rows that frames show lie between the number that was next before and the one that is next behind. -/
theorem Attends.seq_shownBy {host : Host ω ε} (h : host.Attends) (frames : List (List (Activity ω)))
    {row : Row} (hrow : row ∈ (host.shownBy frames).flatten) :
    host.console.output.nextSeq ≤ row.seq ∧
      row.seq < (host.afterFrames frames).console.output.nextSeq := by
  induction frames generalizing host with
  | nil => cases hrow
  | cons activities frames ih =>
    rcases List.mem_append.mp hrow with hnow | hlater
    · obtain ⟨hle, hlt⟩ := host.seq_pushed activities (h.mem_rows_busy activities hnow).2
      exact ⟨hle, hlt.trans_le (nextSeq_le_afterFrames frames (host.busy activities).print)⟩
    · obtain ⟨hle, hlt⟩ := ih (h.print_busy activities) hlater
      exact ⟨(nextSeq_le_afterFrames [activities] host).trans hle, hlt⟩

/-- **No row is shown twice**: the numbers of the rows that frames show increase. -/
theorem Attends.shownBy_sorted {host : Host ω ε} (h : host.Attends)
    (frames : List (List (Activity ω))) :
    ((host.shownBy frames).flatten.map (·.seq)).Pairwise (· < ·) := by
  induction frames generalizing host with
  | nil => exact List.Pairwise.nil
  | cons activities frames ih =>
    have hprint := h.print_busy activities
    rw [shownBy, List.flatten_cons, List.map_append, List.pairwise_append]
    refine ⟨?_, ih hprint, ?_⟩
    · obtain ⟨all, hall⟩ := h.follows_busy activities
      have hkept : ((host.busy activities).console.output.rows.map (·.seq)).Pairwise (· < ·) := by
        rw [hall.consecutive_rows]
        exact List.pairwise_lt_range'
      rw [h.rows_busy]
      exact hkept.sublist (List.filter_sublist.map _)
    · intro seq hseq seq' hseq'
      obtain ⟨row, hrow, rfl⟩ := List.mem_map.mp hseq
      obtain ⟨row', hrow', rfl⟩ := List.mem_map.mp hseq'
      have hlt := (host.seq_pushed activities (h.mem_rows_busy activities hrow).2).2
      exact hlt.trans_le (hprint.seq_shownBy frames hrow').1

/-- A row is shown exactly if it is kept at the end of the frame in which it is pushed, and is not left out
there. No other frame shows it. -/
theorem Attends.mem_shownBy_iff {host : Host ω ε} (h : host.Attends)
    (earlier later : List (List (Activity ω))) (activities : List (Activity ω)) {row : Row}
    (hrow : row ∈ ((host.afterFrames earlier).sourcedIn activities).map Prod.snd) :
    row ∈ (host.shownBy (earlier ++ activities :: later)).flatten ↔
      row ∈ ((host.afterFrames earlier).busy activities).console.output.rows ∧
        (host.terminal.echoInput || !Terminal.looksLikeEcho row) = true := by
  have hbefore := h.afterFrames earlier
  obtain ⟨hle, hlt⟩ := seq_pushed _ activities hrow
  have hnow : row ∈ ((host.afterFrames earlier).busy activities).terminal.rows
      ((host.afterFrames earlier).busy activities).console.output ↔
        row ∈ ((host.afterFrames earlier).busy activities).console.output.rows ∧
          (host.terminal.echoInput || !Terminal.looksLikeEcho row) = true := by
    rw [hbefore.rows_busy, List.mem_filter, decide_eq_true_eq, and_iff_right hrow,
      (terminal_afterFrames earlier host).2]
  rw [← hnow, shownBy_append, List.flatten_append, shownBy, List.flatten_cons, List.mem_append,
    List.mem_append]
  constructor
  · rintro (hearlier | hshown | hlater)
    · have hlt' := (h.seq_shownBy earlier hearlier).2
      omega
    · exact hshown
    · have hle' := ((hbefore.print_busy activities).seq_shownBy later hlater).1
      exact absurd hle' (Nat.not_le.mpr hlt)
  · exact fun hshown => Or.inr (Or.inl hshown)

/-- The rows of some that do not come from an echo. -/
def unechoed (sourced : List (Source × Row)) : List Row :=
  (sourced.filter (·.1 ≠ .echo)).map Prod.snd

theorem mem_unechoed_iff {sourced : List (Source × Row)} {row : Row}
    (h : ∀ pushed ∈ sourced, Terminal.looksLikeEcho pushed.2 = true ↔ pushed.1 = .echo) :
    row ∈ sourced.map Prod.snd ∧ Terminal.looksLikeEcho row = false ↔ row ∈ unechoed sourced := by
  simp only [unechoed, List.mem_map, List.mem_filter, decide_eq_true_eq]
  constructor
  · rintro ⟨⟨pushed, hpushed, rfl⟩, hlooks⟩
    refine ⟨pushed, ⟨hpushed, fun hecho => ?_⟩, rfl⟩
    rw [(h pushed hpushed).mpr hecho] at hlooks
    cases hlooks
  · rintro ⟨pushed, ⟨hpushed, hother⟩, rfl⟩
    exact ⟨⟨pushed, hpushed, rfl⟩, Bool.eq_false_iff.mpr fun hlooks => hother ((h pushed hpushed).mp hlooks)⟩

theorem attends_start (settings : Settings) (world : ω) (clock : Option Bool) (colored echoInput : Bool)
    (capture : Capture) :
    (start settings world clock { colored, echoInput } capture : Host ω ε).Attends ∧
      (start settings world clock { colored, echoInput } capture : Host ω ε).outbox.printed = [] := by
  obtain ⟨registry, visibility, diagnostics, hmade⟩ :=
    Console.withBuiltins_eq (ω := ω) (ε := Notice ε) settings
  have houtput : (start settings world clock { colored, echoInput } capture : Host ω ε).console.output =
      .new settings.maxOutputRows := by
    unfold start
    rw [hmade]
    rfl
  refine ⟨⟨?_, [], ?_⟩, rfl⟩
  · rw [houtput]
    rfl
  · rw [houtput]
    exact Scrollback.Follows.new settings.maxOutputRows

-- ════════════════════════════════════════════════════════════════════════
-- Runs from the start
-- ════════════════════════════════════════════════════════════════════════

/-- **Rows are shown once, and exactly those that are kept until they can be.** An application starts with a
terminal that shows echoes, and goes through frames in which anything is done with it. What goes on in a frame
amounts to edits of the output. Over all frames the texts of the rows that are shown are printed, in their colours
if there are any, and the numbers of these rows increase. Each frame shows, oldest first, the rows that were pushed
since the one before it and are still kept; a row that is pushed in it is shown at all exactly if it is kept until
its end; and if the terminal takes it that there is nothing new, no row that is kept is new. -/
theorem shown_once (settings : Settings) (world : ω) (clock : Option Bool) (colored : Bool)
    (capture : Capture) (frames : List (List (Activity ω))) :
    let started : Host ω ε := start settings world clock { colored, echoInput := true } capture
    let shown := (started.shownBy frames).flatten
    (started.afterFrames frames).outbox.printed = shown.map (Row.printedAs colored) ∧
    (shown.map (·.seq)).Pairwise (· < ·) ∧
    ∀ earlier activities later, frames = earlier ++ activities :: later →
      let before := started.afterFrames earlier
      let now := before.busy activities
      let pushed := (before.sourcedIn activities).map Prod.snd
      now.console.output =
        before.console.output.after ((before.revisionsIn activities).map (·.edit)) ∧
      (started.shownBy frames)[earlier.length]? = some (now.console.output.rows.filter (· ∈ pushed)) ∧
      (∀ row ∈ pushed, row ∈ shown ↔ row ∈ now.console.output.rows) ∧
      (now.console.output.nextSeq = now.terminal.printed → ∀ row ∈ now.console.output.rows,
        row ∉ pushed) := by
  intro started shown
  obtain ⟨hattends, hprinted⟩ : started.Attends ∧ started.outbox.printed = [] :=
    attends_start settings world clock colored true capture
  refine ⟨?_, hattends.shownBy_sorted frames, ?_⟩
  · rw [printed_afterFrames, hprinted]
    rfl
  · rintro earlier activities later rfl before now pushed
    have hbefore : before.Attends := hattends.afterFrames earlier
    have hecho : before.terminal.echoInput = true := (terminal_afterFrames earlier started).2
    refine ⟨(writes_busy activities before).output, ?_, fun row hrow => ?_, fun hnone row hrow => ?_⟩
    · rw [getElem?_shownBy, hbefore.rows_busy, hecho]
      simp only [Bool.true_or, and_true]
      rfl
    · have hiff := hattends.mem_shownBy_iff earlier later activities hrow
      rwa [show started.terminal.echoInput = true from rfl, Bool.true_or, and_iff_left rfl] at hiff
    · have hnow : now.terminal.printed = before.console.output.nextSeq :=
        (congrArg _ (writes_busy activities before).terminal).trans hbefore.printed
      intro hpushed
      have hseq := seq_pushed before activities hpushed
      have hnext : (before.busy activities).console.output.nextSeq = now.terminal.printed := hnone
      omega

/-- **A terminal that leaves out echoes leaves out what looks like one**: a row without a style that starts with
the mark of echoes. Of the rows that are pushed in a frame and kept until its end it shows all others, whatever
their source, and it prints the texts of the rows that it shows. An echo looks like one in its first row, and has
no others if there is no line feed inside the line. So if in a frame just the rows of echoes look like echoes, the
rows that it shows are the new ones that are kept and do not come from an echo. -/
theorem shown_unless_looksLikeEcho (settings : Settings) (world : ω) (clock : Option Bool)
    (colored : Bool) (capture : Capture) (frames : List (List (Activity ω))) :
    let started : Host ω ε := start settings world clock { colored, echoInput := false } capture
    let shown := (started.shownBy frames).flatten
    (started.afterFrames frames).outbox.printed = shown.map (Row.printedAs colored) ∧
    (∀ row, Terminal.looksLikeEcho row = true ↔ row.style = .plain ∧ "> ".toList <+: row.text.toList) ∧
    ∀ earlier activities later, frames = earlier ++ activities :: later →
      let before := started.afterFrames earlier
      let now := before.busy activities
      let sourced := before.sourcedIn activities
      (∀ pushed ∈ sourced, pushed.2 ∈ shown ↔
        pushed.2 ∈ now.console.output.rows ∧ Terminal.looksLikeEcho pushed.2 = false) ∧
      (∀ revision ∈ before.revisionsIn activities, revision.source = .echo →
        ∃ line, revision.edit = .push .plain ("> " ++ Text.trim line) ∧
          ∀ first, ∃ row others, revision.edit.pushed first = row :: others ∧
            Terminal.looksLikeEcho row = true ∧ ('\n' ∉ (Text.trim line).toList → others = [])) ∧
      ((∀ pushed ∈ sourced, Terminal.looksLikeEcho pushed.2 = true ↔ pushed.1 = .echo) →
        (started.shownBy frames)[earlier.length]? =
          some (now.console.output.rows.filter (· ∈ unechoed sourced))) := by
  intro started shown
  obtain ⟨hattends, hprinted⟩ : started.Attends ∧ started.outbox.printed = [] :=
    attends_start settings world clock colored false capture
  refine ⟨?_, Terminal.looksLikeEcho_iff, ?_⟩
  · rw [printed_afterFrames, hprinted]
    rfl
  · rintro earlier activities later rfl before now sourced
    have hbefore : before.Attends := hattends.afterFrames earlier
    have hecho : before.terminal.echoInput = false := (terminal_afterFrames earlier started).2
    refine ⟨fun pushed hpushed => ?_, fun revision hrevision hsource => ?_, fun htelling => ?_⟩
    · have hiff := hattends.mem_shownBy_iff earlier later activities (List.mem_map_of_mem hpushed)
      rwa [show started.terminal.echoInput = false from rfl, Bool.false_or, Bool.not_eq_true'] at hiff
    · obtain ⟨line, hline⟩ := exists_line_of_echo activities before hrevision hsource
      refine ⟨line, hline, fun first => ?_⟩
      rw [hline]
      exact Terminal.looksLikeEcho_pushed first (Text.trim line)
    · rw [getElem?_shownBy, hbefore.rows_busy, hecho]
      congr 1
      refine List.filter_congr fun row _ => ?_
      rw [decide_eq_decide, Bool.false_or, Bool.not_eq_true']
      exact mem_unechoed_iff htelling

/-- A line with a line feed inside is echoed in two rows, of which the second one is shown. The row that the
handler prints behind them starts like an echo, and is not shown. -/
theorem quoted_row_hidden :
    let say : Command (Handler Unit) := ⟨{ name := "say" }, fun _ => Action.line "> hello"⟩
    let started : Host Unit Unit := start {} () (some false) {} {}
    let activities : List (Activity Unit) :=
      .step (.use (.register say)) nofun :: .step (.submit "say\nmore") nofun :: frameActivities
    let now := started.busy activities
    let sourced := started.sourcedIn activities
    sourced = [(.echo, ⟨0, .plain, "> say"⟩), (.echo, ⟨1, .plain, "more"⟩),
        (.handler, ⟨2, .plain, "> hello"⟩)] ∧
      now.console.output.rows = sourced.map Prod.snd ∧
      started.shownBy [activities] = [[⟨1, .plain, "more"⟩]] ∧
      started.shownBy [activities] ≠ [now.console.output.rows.filter (· ∈ unechoed sourced)] := by
  intro say started activities now sourced
  refine ⟨?_, ?_, ?_, ?_⟩
  · decide +kernel
  · decide +kernel
  · decide +kernel
  · decide +kernel

end Host

end CommandConsole
