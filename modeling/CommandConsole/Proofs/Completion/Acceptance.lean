import CommandConsole.Completion.Suggestions
import CommandConsole.Proofs.Line.RoundTrip

/-!
# Accepting a suggestion for an argument

A suggestion for an argument is the head of the input with the suggested value behind it. The head ends
between two tokens, so that it is read as before and the value as one more token. What is run is then the
command of the input with the arguments that stand in the head and the value as the last one.

## Main definitions

- `Completion.NamesCommand` — the inputs that an argument is suggested for
- `Completion.unfinished?` — the argument that the input ends with
- `Completion.head`, `Completion.kept` — what a suggestion leaves of the input, and its arguments

## Main statements

- `Completion.target_eq` — what is completed in an input that names its command
- `Completion.scan_head` — what the head is read as
- `Completion.read_accepted` — what an accepted suggestion is read as
-/

namespace CommandConsole.Completion

variable {κ : Type}

/-- The input has a token, and is not one bare word with nothing behind it. -/
def NamesCommand (input : String) : Prop :=
  Token.scan input ≠ [] ∧
    ∀ only, Token.scan input = [only] → ¬(only.form = .bare ∧ only.stop = Text.width input.toList)

/-- The token of an argument that the input ends with. -/
def unfinished? (input : String) : Option Token :=
  (Token.scan input).tail.getLast?.filter fun last => last.stop = Text.width input.toList

/-- The part of the input in front of the unfinished argument. -/
def head (input : String) : String :=
  match unfinished? input with
  | none => input
  | some last => before input last.start

/-- The arguments in front of the unfinished one. -/
def kept (input : String) : List String :=
  match unfinished? input with
  | none => (Line.read input).arguments
  | some _ => (Line.read input).arguments.dropLast

/-- What is there of the unfinished argument. -/
def begun (input : String) : String :=
  match unfinished? input with
  | none => ""
  | some last => last.text

-- ════════════════════════════════════════════════════════════════════════
-- The unfinished argument
-- ════════════════════════════════════════════════════════════════════════

theorem unfinished?_eq_some_iff {input : String} {last : Token} :
    unfinished? input = some last ↔
      last.stop = Text.width input.toList ∧
        ∃ first middle, Token.scan input = first :: (middle ++ [last]) := by
  unfold unfinished?
  cases hscan : Token.scan input with
  | nil => simp
  | cons first rest =>
    rw [List.tail_cons, Option.filter_eq_some_iff, List.getLast?_eq_some_iff, decide_eq_true_eq,
      and_comm]
    simp

/-- What is completed in an input that names its command: the unfinished argument, or one more. -/
theorem target_eq {input : String} (h : NamesCommand input) :
    target input =
      .argument (Line.read input).command (kept input).length (begun input) (head input) := by
  obtain ⟨hne, honly⟩ := h
  obtain ⟨command, rest, hscan⟩ := List.exists_cons_of_ne_nil hne
  have hargument : target input = argumentTarget input command rest := by
    unfold target
    rw [hscan]
    cases rest with
    | cons second rest => rfl
    | nil =>
      have hnot := honly command hscan
      have htest : (decide (command.stop = Text.width input.toList) && decide (command.form = .bare)) =
          false := by
        rw [← Bool.not_eq_true, Bool.and_eq_true, decide_eq_true_eq, decide_eq_true_eq, and_comm]
        exact hnot
      simp only [htest]
      rfl
  have hread : Line.read input = ⟨command.text, rest.map (·.text)⟩ := by
    rw [Line.read, hscan]
    rfl
  have hunfinished : unfinished? input =
      rest.getLast?.filter fun last => last.stop = Text.width input.toList := by
    rw [unfinished?, hscan]
    rfl
  rw [hargument, argumentTarget, kept, begun, head, hunfinished, hread]
  cases hlast : rest.getLast? with
  | none =>
    have hrest : rest = [] := List.getLast?_eq_none_iff.mp hlast
    subst hrest
    rfl
  | some last =>
    by_cases hstop : last.stop = Text.width input.toList
    · rw [Option.filter_some_pos (by simpa using hstop)]
      simp [hstop]
    · rw [Option.filter_some_neg (by simpa using hstop)]
      simp [hstop]

-- ════════════════════════════════════════════════════════════════════════
-- The head of the input
-- ════════════════════════════════════════════════════════════════════════

/-- The head ends where the unfinished argument begins, and is read as the tokens in front of it. -/
theorem cut_unfinished {input : String} {last : Token} (h : unfinished? input = some last) :
    ∃ raw, input.toList = (head input).toList ++ raw ∧
      Token.Written (Text.width (head input).toList) [] last raw ∧
      Token.scan (head input) = (Token.scan input).dropLast ∧
      Token.EndsBetween (Text.width (head input).toList) (Token.scan (head input)) := by
  obtain ⟨hstop, first, middle, hscan⟩ := unfinished?_eq_some_iff.mp h
  have hreading := Token.reading_scan input
  rw [hscan, ← List.cons_append] at hreading
  obtain ⟨front, raw, post, hinput, hstart, hfront, hends, hwritten, -⟩ := hreading.cut
  rw [Nat.zero_add] at hstart
  -- the argument ends with the input
  have hpost : post = [] := by
    have hraw := hwritten.stop_eq
    rw [hstop, hstart, hinput, Text.width_append, Text.width_append] at hraw
    cases post with
    | nil => rfl
    | cons c post =>
      have hpos := c.utf8Size_pos
      rw [Text.width_cons] at hraw
      omega
  subst hpost
  rw [List.append_nil] at hinput
  have hhead : (head input).toList = front := by
    simp only [head, h, before, hinput, hstart, Text.takeWidth_append, String.toList_ofList]
  have hdropped : (Token.scan input).dropLast = first :: middle := by
    rw [hscan, ← List.cons_append, List.dropLast_concat]
  have hscanned : Token.scan (head input) = first :: middle := by
    rw [Token.scan, hhead, hfront.scanFrom_eq]
  rw [hscanned, hdropped, hhead, ← hstart]
  exact ⟨raw, hinput, hwritten, rfl, hends⟩

/-- An input that goes on behind its last token, or ends with a closing mark, can be followed by one
more. -/
theorem endsBetween_of_unfinished?_eq_none {input : String} (hnames : NamesCommand input)
    (hclosed : ∀ only, Token.scan input = [only] → only.isTerminated = true)
    (h : unfinished? input = none) :
    Token.EndsBetween (Text.width input.toList) (Token.scan input) := by
  intro last hlast
  obtain ⟨tokens, hscan⟩ := List.getLast?_eq_some_iff.mp hlast
  cases tokens with
  | nil => exact ⟨hclosed last hscan, fun hform hstop => hnames.2 last hscan ⟨hform, hstop⟩⟩
  | cons first middle =>
    have hstop : last.stop ≠ Text.width input.toList := by
      intro hstop
      have hsome := unfinished?_eq_some_iff.mpr ⟨hstop, first, middle, hscan⟩
      rw [h] at hsome
      cases hsome
    have hreading := Token.reading_scan input
    rw [hscan] at hreading
    have hterminated : last.isTerminated = true := by
      by_contra hopen
      have hends := hreading.stop_eq_of_open (by simpa using hopen)
      rw [Nat.zero_add] at hends
      exact hstop hends
    exact ⟨hterminated, fun _ => hstop⟩

/-- The head is read as the command with the arguments that are kept, and no token is open at its end. -/
theorem scan_head {input : String} (hnames : NamesCommand input)
    (hclosed : ∀ only, Token.scan input = [only] → only.isTerminated = true) :
    Token.EndsBetween (Text.width (head input).toList) (Token.scan (head input)) ∧
      (Token.scan (head input)).map (·.text) = (Line.read input).command :: kept input := by
  have htexts : (Token.scan input).map (·.text) =
      (Line.read input).command :: (Line.read input).arguments := by
    obtain ⟨first, rest, hscan⟩ := List.exists_cons_of_ne_nil hnames.1
    rw [Line.read, hscan]
    rfl
  cases h : unfinished? input with
  | some last =>
    obtain ⟨raw, -, -, hscan, hends⟩ := cut_unfinished h
    refine ⟨hends, ?_⟩
    have harguments : (Line.read input).arguments ≠ [] := by
      obtain ⟨-, first, middle, hinput⟩ := unfinished?_eq_some_iff.mp h
      intro hnone
      simp [hinput, hnone] at htexts
    rw [hscan, List.map_dropLast, htexts, List.dropLast_cons_of_ne_nil harguments]
    simp only [kept, h]
  | none =>
    have hhead : head input = input := by simp only [head, h]
    rw [hhead]
    refine ⟨endsBetween_of_unfinished?_eq_none hnames hclosed h, ?_⟩
    simp only [kept, h, htexts]

/-- **An accepted suggestion inserts its value.** Let the input name its command, and not be just a quoted
name that was not closed. What is suggested are the values offered for the argument that comes behind those
that are kept, each one behind the head of the input, which ends where the unfinished argument starts. If
the value can be written, the line is read as the command of the input with the kept arguments and the
value. The tokens of the input, and so the head, are cut out between characters. -/
theorem read_accepted (registry : Registry κ) {input : String} (hnames : NamesCommand input)
    (hclosed : ∀ only, Token.scan input = [only] → only.isTerminated = true) :
    (suggestions registry input =
      (values registry (Line.read input).command (kept input).length (begun input)).map
        fun value => head input ++ Line.quote value) ∧
    (∀ value, Line.Writable value →
      Line.read (head input ++ Line.quote value) =
        ⟨(Line.read input).command, kept input ++ [value]⟩) ∧
    (∀ token ∈ Token.scan input, ∃ front raw post, input.toList = front ++ (raw ++ post) ∧
      Token.Written (Text.width front) post token raw) ∧
    ∃ raw, input.toList = (head input).toList ++ raw ∧
      (unfinished? input = none → raw = []) ∧
      ∀ last ∈ unfinished? input, Token.Written (Text.width (head input).toList) [] last raw := by
  refine ⟨?_, ?_, ?_, ?_⟩
  · rw [suggestions, target_eq hnames]
  · intro value hvalue
    obtain ⟨hends, htexts⟩ := scan_head hnames hclosed
    rw [Line.read, Line.texts_scan_append_quote hends hvalue, htexts]
    rfl
  · intro token htoken
    exact Token.exists_place htoken
  · cases h : unfinished? input with
    | some last =>
      obtain ⟨raw, hinput, hwritten, -⟩ := cut_unfinished h
      exact ⟨raw, hinput, by simp, by simpa using hwritten⟩
    | none => exact ⟨[], by simp [head, h], fun _ => rfl, by simp⟩

/-- A value that was begun with the other mark, right behind a quoted name. -/
theorem accepted_iron_sword :
    let signature : Signature := { name := "give" }
    let registry := (Registry.empty.register ⟨signature.offer 0 ["iron sword", "bow"], ()⟩).2
    suggestions registry "\"give\"'ir" = ["\"give\"\"iron sword\""] ∧
      Line.read "\"give\"\"iron sword\"" = ⟨"give", ["iron sword"]⟩ := by
  intro signature registry
  have hscan : Token.scan "\"give\"'ir" =
      [⟨"give", 0, 6, .quoted .double true⟩, ⟨"ir", 6, 9, .quoted .single false⟩] := by
    decide +kernel
  have hnames : NamesCommand "\"give\"'ir" := by simp [NamesCommand, hscan]
  have hread : Line.read "\"give\"'ir" = ⟨"give", ["ir"]⟩ := by decide +kernel
  have hkept : kept "\"give\"'ir" = [] := by decide +kernel
  have hvalues : values registry "give" 0 (begun "\"give\"'ir") = ["iron sword"] := by decide +kernel
  have hline : head "\"give\"'ir" ++ Line.quote "iron sword" = "\"give\"\"iron sword\"" := by
    decide +kernel
  have hwritable : Line.Writable "iron sword" := Or.inr (by decide +kernel)
  obtain ⟨hsuggested, haccepted, -⟩ := read_accepted registry hnames (by simp [hscan])
  have hsaid := haccepted "iron sword" hwritable
  rw [hread, hkept, List.length_nil, hvalues, List.map_singleton, hline] at hsuggested
  rw [hline, hread, hkept] at hsaid
  exact ⟨hsuggested, hsaid⟩

end CommandConsole.Completion
