import CommandConsole.Line.Basic

/-!
# Reading a line in parts

What the reader of a line does with some characters depends on the mode in which it starts, and the
rest of the line on the mode in which it is left. A line can therefore be cut at any place. Two things
are followed through the reading: the mode, and what is always true of the characters seen so far.

## Main definitions

- `Token.advance` — the tokens that some characters complete, and the mode in which they leave the
  reader
- `IsBare` — texts that can stand in a line as they are
- `Token.Form.Admits`, `Token.Mode.Admits` — the texts that can be read in a form or a mode

## Main statements

- `Token.scanFrom_append` — reading two parts is reading the first and then the second
- `Token.admits_of_mem_scan` — a token of a line has a text that its form admits
-/

namespace CommandConsole

@[simp] theorem Mark.isBlank_char (mark : Mark) : Text.isBlank mark.char = false := by
  cases mark <;> decide

/-- Characters that can stand in a line as they are: there is at least one, none is a blank, and the
first is not a quotation mark. -/
structure IsBare (cs : List Char) : Prop where
  ne_nil : cs ≠ []
  not_blank : ∀ c ∈ cs, Text.isBlank c = false
  not_mark : ∀ c ∈ cs.head?, Mark.ofChar? c = none

theorem IsBare.head?_ne {cs : List Char} (h : IsBare cs) (mark : Mark) : cs.head? ≠ some mark.char := by
  intro hhead
  have hnone := h.not_mark mark.char hhead
  rw [Mark.ofChar?_char] at hnone
  cases hnone

/-- Without blanks, a text can stand in a line as it is unless it begins with a mark. -/
theorem IsBare.of_head?_ne {cs : List Char} (hne : cs ≠ [])
    (hblank : ∀ c ∈ cs, Text.isBlank c = false) (hhead : ∀ mark : Mark, cs.head? ≠ some mark.char) :
    IsBare cs where
  ne_nil := hne
  not_blank := hblank
  not_mark c hc := by
    cases hmark : Mark.ofChar? c with
    | none => rfl
    | some mark =>
      have hchar : c = mark.char := Mark.eq_char_of_ofChar? hmark
      exact absurd (hchar ▸ hc) (hhead mark)

theorem IsBare.singleton {c : Char} (hblank : Text.isBlank c = false)
    (hmark : Mark.ofChar? c = none) : IsBare [c] where
  ne_nil := by simp
  not_blank := by simpa using hblank
  not_mark := by simpa using hmark

theorem IsBare.concat {cs : List Char} (h : IsBare cs) {c : Char}
    (hblank : Text.isBlank c = false) : IsBare (cs ++ [c]) where
  ne_nil := by simp
  not_blank := by
    intro d hd
    rcases List.mem_append.mp hd with hd | hd
    · exact h.not_blank d hd
    · rw [List.mem_singleton.mp hd]
      exact hblank
  not_mark := by
    obtain ⟨first, rest, rfl⟩ := List.exists_cons_of_ne_nil h.ne_nil
    exact h.not_mark

namespace Token

-- ════════════════════════════════════════════════════════════════════════
-- Cutting a line
-- ════════════════════════════════════════════════════════════════════════

/-- The tokens that are completed by reading some characters, which start at the byte offset
`position`, and the mode in which the reader is left. -/
def advance (position : Nat) (mode : Mode) : List Char → List Token × Mode
  | [] => ([], mode)
  | c :: cs =>
    let (mode', token?) := mode.step position c
    let (tokens, last) := advance (position + c.utf8Size) mode' cs
    (token?.toList ++ tokens, last)

@[simp] theorem advance_nil (position : Nat) (mode : Mode) : advance position mode [] = ([], mode) :=
  rfl

/-- **Reading in parts**: the second part is read from the mode in which the first one ends. -/
theorem scanFrom_append (position : Nat) (mode : Mode) (as bs : List Char) :
    scanFrom position mode (as ++ bs) =
      (advance position mode as).1 ++
        scanFrom (position + Text.width as) (advance position mode as).2 bs := by
  induction as generalizing position mode with
  | nil => simp
  | cons c cs ih =>
    simp only [List.cons_append, scanFrom, advance, Text.width_cons, List.append_assoc]
    rw [ih, Nat.add_assoc]

/-- A bare word takes in every character but a blank. -/
theorem advance_word (position start : Nat) (seen : List Char) {cs : List Char}
    (h : ∀ c ∈ cs, Text.isBlank c = false) :
    advance position (.word start seen) cs = ([], .word start (cs.reverse ++ seen)) := by
  induction cs generalizing position seen with
  | nil => simp
  | cons c cs ih =>
    have hc : Text.isBlank c = false := h c List.mem_cons_self
    have hcs : ∀ d ∈ cs, Text.isBlank d = false := fun d hd => h d (List.mem_cons_of_mem c hd)
    simp [advance, Mode.step, hc, ih _ _ hcs]

/-- A quoted token takes in every character but its own mark. -/
theorem advance_quote (position start : Nat) (mark : Mark) (seen : List Char) {cs : List Char}
    (h : mark.char ∉ cs) :
    advance position (.quote mark start seen) cs = ([], .quote mark start (cs.reverse ++ seen)) := by
  induction cs generalizing position seen with
  | nil => simp
  | cons c cs ih =>
    have hc : c ≠ mark.char := fun hc => h (hc ▸ List.mem_cons_self)
    have hcs : mark.char ∉ cs := fun hcs => h (List.mem_cons_of_mem c hcs)
    simp [advance, Mode.step, hc, ih _ _ hcs]

-- ════════════════════════════════════════════════════════════════════════
-- What is always true of the characters read
-- ════════════════════════════════════════════════════════════════════════

/-- The texts that a token of some form can have. A quoted token never holds its own mark, whether or
not it was closed. -/
def Form.Admits (form : Form) (cs : List Char) : Prop :=
  match form with
  | .bare => IsBare cs
  | .quoted mark _ => mark.char ∉ cs

/-- What is true of the characters seen so far in a mode. -/
def Mode.Admits : Mode → Prop
  | .between => True
  | .word _ seen => IsBare seen.reverse
  | .quote mark _ seen => mark.char ∉ seen

/-- One character keeps what is true of the characters seen, and completes a token only with a text
that its form admits. -/
theorem Mode.Admits.step {mode : Mode} (h : mode.Admits) (position : Nat) (c : Char) :
    (mode.step position c).1.Admits ∧
      ∀ token ∈ (mode.step position c).2, token.form.Admits token.text.toList := by
  cases mode with
  | between =>
    cases hblank : Text.isBlank c with
    | true => simp [Mode.step, hblank, Mode.Admits]
    | false =>
      cases hmark : Mark.ofChar? c with
      | some mark => simp [Mode.step, hblank, hmark, Mode.Admits]
      | none => simp [Mode.step, hblank, hmark, Mode.Admits, IsBare.singleton hblank hmark]
  | word start seen =>
    have hseen : IsBare seen.reverse := h
    cases hblank : Text.isBlank c with
    | true => simp [Mode.step, hblank, Mode.Admits, Form.Admits, hseen]
    | false => simp [Mode.step, hblank, Mode.Admits, hseen.concat hblank]
  | quote mark start seen =>
    have hseen : mark.char ∉ seen := h
    by_cases hc : c = mark.char
    · simp [Mode.step, hc, Mode.Admits, Form.Admits, hseen]
    · simp [Mode.step, hc, Mode.Admits, hseen, Ne.symm hc]

theorem Mode.Admits.finish {mode : Mode} (h : mode.Admits) (position : Nat) :
    ∀ token ∈ mode.finish position, token.form.Admits token.text.toList := by
  cases mode with
  | between => simp [Mode.finish]
  | word start seen =>
    have hseen : IsBare seen.reverse := h
    simpa [Mode.finish, Form.Admits] using hseen
  | quote mark start seen =>
    have hseen : mark.char ∉ seen := h
    simpa [Mode.finish, Form.Admits] using hseen

/-- Every token read has a text that its form admits. -/
theorem admits_of_mem_scanFrom {mode : Mode} (h : mode.Admits) {position : Nat} {cs : List Char}
    {token : Token} (htoken : token ∈ scanFrom position mode cs) :
    token.form.Admits token.text.toList := by
  induction cs generalizing position mode with
  | nil =>
    simp only [scanFrom, Option.mem_toList] at htoken
    exact h.finish position token htoken
  | cons c cs ih =>
    simp only [scanFrom, List.mem_append, Option.mem_toList] at htoken
    rcases htoken with htoken | htoken
    · exact (h.step position c).2 token htoken
    · exact ih (h.step position c).1 htoken

theorem admits_of_mem_scan {line : String} {token : Token} (htoken : token ∈ scan line) :
    token.form.Admits token.text.toList := by
  have hbetween : Mode.between.Admits := trivial
  exact admits_of_mem_scanFrom hbetween htoken

-- ════════════════════════════════════════════════════════════════════════
-- Lines without tokens
-- ════════════════════════════════════════════════════════════════════════

/-- A token that has begun is completed sooner or later. -/
theorem scanFrom_ne_nil {mode : Mode} (h : mode ≠ .between) (position : Nat) (cs : List Char) :
    scanFrom position mode cs ≠ [] := by
  induction cs generalizing position mode with
  | nil =>
    cases mode with
    | between => exact absurd rfl h
    | word start seen => simp [scanFrom, Mode.finish]
    | quote mark start seen => simp [scanFrom, Mode.finish]
  | cons c cs ih =>
    cases mode with
    | between => exact absurd rfl h
    | word start seen =>
      cases hblank : Text.isBlank c with
      | true => simp [scanFrom, Mode.step, hblank]
      | false => simp [scanFrom, Mode.step, hblank, ih]
    | quote mark start seen =>
      by_cases hc : c = mark.char
      · simp [scanFrom, Mode.step, hc]
      · simp [scanFrom, Mode.step, hc, ih]

theorem scanFrom_between_eq_nil_iff (position : Nat) (cs : List Char) :
    scanFrom position .between cs = [] ↔ ∀ c ∈ cs, Text.isBlank c = true := by
  induction cs generalizing position with
  | nil => simp [scanFrom, Mode.finish]
  | cons c cs ih =>
    cases hblank : Text.isBlank c with
    | true => simp [scanFrom, Mode.step, hblank, ih]
    | false =>
      cases hmark : Mark.ofChar? c with
      | some mark => simp [scanFrom, Mode.step, hblank, hmark, scanFrom_ne_nil]
      | none => simp [scanFrom, Mode.step, hblank, hmark, scanFrom_ne_nil]

end Token

/-- A line names no command exactly if it is blank or starts with an empty quoted token. -/
theorem Line.command_read_eq_empty_iff (text : String) :
    (Line.read text).command = "" ↔
      (∀ c ∈ text.toList, Text.isBlank c = true) ∨
        ∃ first ∈ (Token.scan text).head?, first.form ≠ .bare ∧ first.text = "" := by
  have hblank := Token.scanFrom_between_eq_nil_iff 0 text.toList
  change Token.scan text = [] ↔ _ at hblank
  rw [← hblank]
  unfold Line.read
  cases hscan : Token.scan text with
  | nil => simp [Line.ofTexts]
  | cons first rest =>
    have hfirst : first.form.Admits first.text.toList :=
      Token.admits_of_mem_scan (hscan ▸ List.mem_cons_self)
    have hquoted : first.text = "" → first.form ≠ .bare := by
      intro htext hform
      rw [hform, htext] at hfirst
      exact hfirst.ne_nil rfl
    simpa [Line.ofTexts] using hquoted

end CommandConsole
