import CommandConsole.Proofs.Line.Scanning
import Mathlib.Data.List.TakeWhile

/-!
# The grammar of tokens

How the tokens of a line stand in it: blanks, a token, more blanks, the next token, to the end of the line.
The reader of a line follows this grammar, and there is one reading only. A reading can be cut in front of
each of its tokens, and whatever is put behind the cut is read as if it stood alone.

## Main definitions

- `Token.Written` — a token with the characters that it is written as
- `Token.Reading` — a line with its tokens
- `Token.EndsBetween` — a line at whose end no token is still open
- `Token.shift`, `Token.extend`, `Token.close` — the same token further behind, with more behind its text, and
  closed behind that

## Main statements

- `Token.reading_iff` — the reader of a line follows the grammar
- `Token.Reading.cut` — a reading is cut in front of a token
- `Token.Reading.append` — what is put behind a line is read as if it stood alone
- `Token.Reading.append_blanks` — blanks behind a line make no difference if no quoted token is open
- `Token.Reading.absorb` — an open quoted token takes in what is put behind it, up to its mark
-/

namespace CommandConsole.Token

/-- A token at the byte offset `position`, with the characters that it is written as. It is followed by
`post`: a bare word by a blank or nothing, and a quoted token that was not closed by nothing. -/
inductive Written (position : Nat) (post : List Char) : Token → List Char → Prop where
  | bare {cs : List Char} (h : IsBare cs) (hpost : ∀ c ∈ post.head?, Text.isBlank c = true) :
    Written position post ⟨String.ofList cs, position, position + Text.width cs, .bare⟩ cs
  | closed (mark : Mark) {cs : List Char} (h : mark.char ∉ cs) :
    Written position post
      ⟨String.ofList cs, position, position + Text.width (mark.char :: (cs ++ [mark.char])),
        .quoted mark true⟩
      (mark.char :: (cs ++ [mark.char]))
  | unclosed (mark : Mark) {cs : List Char} (h : mark.char ∉ cs) (hpost : post = []) :
    Written position post
      ⟨String.ofList cs, position, position + Text.width (mark.char :: cs), .quoted mark false⟩
      (mark.char :: cs)

/-- The tokens of a line whose first character stands at the byte offset `position`. -/
inductive Reading : Nat → List Char → List Token → Prop where
  | nil {position : Nat} {blanks : List Char} (h : ∀ c ∈ blanks, Text.isBlank c = true) :
    Reading position blanks []
  | cons {position : Nat} {blanks raw post : List Char} {token : Token} {tokens : List Token}
    (hblanks : ∀ c ∈ blanks, Text.isBlank c = true)
    (htoken : Written (position + Text.width blanks) post token raw)
    (hrest : Reading token.stop post tokens) :
    Reading position (blanks ++ (raw ++ post)) (token :: tokens)

/-- The last token of a line that ends at the byte offset `stop` is complete before the line ends, so that
the next character begins another one. -/
def EndsBetween (stop : Nat) (tokens : List Token) : Prop :=
  ∀ last ∈ tokens.getLast?, last.isTerminated = true ∧ (last.form = .bare → last.stop ≠ stop)

/-- The same token, `offset` bytes further behind. -/
def shift (offset : Nat) (token : Token) : Token :=
  { token with start := token.start + offset, stop := token.stop + offset }

/-- An open quoted token with more behind its text. -/
def extend (rest : List Char) (token : Token) : Token :=
  { token with text := token.text ++ String.ofList rest, stop := token.stop + Text.width rest }

/-- An open quoted token that more text and its mark are put behind. -/
def close (mark : Mark) (rest : List Char) (token : Token) : Token :=
  { token with
    text := token.text ++ String.ofList rest
    stop := token.stop + Text.width (rest ++ [mark.char])
    form := .quoted mark true }

section Moved

variable (offset : Nat) (rest : List Char) (token : Token)

@[simp] theorem text_shift : (token.shift offset).text = token.text := rfl

@[simp] theorem isTerminated_shift : (token.shift offset).isTerminated = token.isTerminated := rfl

@[simp] theorem text_extend : (token.extend rest).text = token.text ++ String.ofList rest := rfl

@[simp] theorem isTerminated_extend : (token.extend rest).isTerminated = token.isTerminated := rfl

end Moved

-- ════════════════════════════════════════════════════════════════════════
-- One token
-- ════════════════════════════════════════════════════════════════════════

theorem Written.start_eq {position : Nat} {post raw : List Char} {token : Token}
    (h : Written position post token raw) : token.start = position := by
  cases h <;> rfl

theorem Written.stop_eq {position : Nat} {post raw : List Char} {token : Token}
    (h : Written position post token raw) : token.stop = position + Text.width raw := by
  cases h <;> rfl

/-- A written token begins with a character that is not blank. -/
theorem Written.exists_cons {position : Nat} {post raw : List Char} {token : Token}
    (h : Written position post token raw) : ∃ c cs, raw = c :: cs ∧ Text.isBlank c = false := by
  cases h with
  | bare hbare =>
    obtain ⟨c, cs, rfl⟩ := List.exists_cons_of_ne_nil hbare.ne_nil
    exact ⟨c, cs, rfl, hbare.not_blank c List.mem_cons_self⟩
  | closed mark => exact ⟨mark.char, _, rfl, mark.isBlank_char⟩
  | unclosed mark => exact ⟨mark.char, _, rfl, mark.isBlank_char⟩

theorem advance_bare {cs : List Char} (h : IsBare cs) (position : Nat) :
    advance position .between cs = ([], .word position cs.reverse) := by
  obtain ⟨c, rest, rfl⟩ := List.exists_cons_of_ne_nil h.ne_nil
  have hblank : Text.isBlank c = false := h.not_blank c List.mem_cons_self
  have hmark : Mark.ofChar? c = none := h.not_mark c rfl
  have hrest : ∀ d ∈ rest, Text.isBlank d = false :=
    fun d hd => h.not_blank d (List.mem_cons_of_mem c hd)
  simp [advance, Mode.step, hblank, hmark, advance_word _ _ _ hrest]

theorem advance_open {cs : List Char} {mark : Mark} (h : mark.char ∉ cs) (position : Nat) :
    advance position .between (mark.char :: cs) = ([], .quote mark position cs.reverse) := by
  simp [advance, Mode.step, advance_quote _ _ _ _ h]

/-- The reader takes a written token in, and is then between tokens. -/
theorem Written.scanFrom_eq {position : Nat} {post raw : List Char} {token : Token}
    (h : Written position post token raw) :
    scanFrom position .between (raw ++ post) = token :: scanFrom token.stop .between post := by
  cases h with
  | bare hbare hpost =>
    rw [scanFrom_append, advance_bare hbare, List.nil_append]
    -- the word ends at the blank behind it, or with the line
    cases post with
    | nil => simp [scanFrom, Mode.finish]
    | cons c rest =>
      have hblank : Text.isBlank c = true := hpost c rfl
      simp [scanFrom, Mode.step, hblank]
  | @closed mark cs hmark =>
    have hsplit : mark.char :: (cs ++ [mark.char]) ++ post = (mark.char :: cs) ++ mark.char :: post := by
      simp
    rw [hsplit, scanFrom_append, advance_open hmark, List.nil_append]
    simp [scanFrom, Mode.step, Nat.add_assoc]
  | unclosed mark hmark hpost =>
    subst hpost
    rw [scanFrom_append, advance_open hmark, List.nil_append]
    simp [scanFrom, Mode.finish]

/-- A line that does not begin with a blank begins with a token. -/
theorem exists_written (position : Nat) {c : Char} (hc : Text.isBlank c = false) (cs : List Char) :
    ∃ token raw post, c :: cs = raw ++ post ∧ Written position post token raw := by
  cases hmark : Mark.ofChar? c with
  | none =>
    -- a bare word goes on to the next blank
    let word := cs.takeWhile fun d => !Text.isBlank d
    let post := cs.dropWhile fun d => !Text.isBlank d
    have hword : ∀ d ∈ word, Text.isBlank d = false := by
      intro d hd
      simpa using List.mem_takeWhile_imp hd
    have hbare : IsBare (c :: word) := by
      refine ⟨by simp, ?_, by simpa using hmark⟩
      intro d hd
      rcases List.mem_cons.mp hd with rfl | hd
      · exact hc
      · exact hword d hd
    have hpost : ∀ d ∈ post.head?, Text.isBlank d = true := by
      have hstop := List.head?_dropWhile_not (fun d => !Text.isBlank d) cs
      cases hrest : post with
      | nil => simp
      | cons d rest => simpa [post, hrest] using hstop
    exact ⟨_, c :: word, post, by simp [word, post], Written.bare hbare hpost⟩
  | some mark =>
    have hchar : c = mark.char := Mark.eq_char_of_ofChar? hmark
    subst hchar
    by_cases hcloses : mark.char ∈ cs
    · obtain ⟨text, rest, rfl, htext⟩ := List.eq_append_cons_of_mem hcloses
      exact ⟨_, mark.char :: (text ++ [mark.char]), rest, by simp, Written.closed mark htext⟩
    · exact ⟨_, mark.char :: cs, [], by simp, Written.unclosed mark hcloses rfl⟩

-- ════════════════════════════════════════════════════════════════════════
-- Whole lines
-- ════════════════════════════════════════════════════════════════════════

theorem scanFrom_blanks {blanks : List Char} (h : ∀ c ∈ blanks, Text.isBlank c = true)
    (position : Nat) (cs : List Char) :
    scanFrom position .between (blanks ++ cs) =
      scanFrom (position + Text.width blanks) .between cs := by
  induction blanks generalizing position with
  | nil => simp
  | cons c blanks ih =>
    have hc : Text.isBlank c = true := h c List.mem_cons_self
    have hrest := ih fun d hd => h d (List.mem_cons_of_mem c hd)
    simp [scanFrom, Mode.step, hc, hrest, Nat.add_assoc]

theorem Reading.scanFrom_eq {position : Nat} {cs : List Char} {tokens : List Token}
    (h : Reading position cs tokens) : scanFrom position .between cs = tokens := by
  induction h with
  | nil hblanks => exact (scanFrom_between_eq_nil_iff _ _).mpr hblanks
  | cons hblanks htoken hrest ih => rw [scanFrom_blanks hblanks, htoken.scanFrom_eq, ih]

theorem exists_reading (position : Nat) (cs : List Char) : ∃ tokens, Reading position cs tokens := by
  -- every token takes at least one character
  induction hlength : cs.length using Nat.strongRecOn generalizing position cs with
  | _ n ih =>
    let blanks := cs.takeWhile Text.isBlank
    have hblanks : ∀ c ∈ blanks, Text.isBlank c = true := fun c hc => List.mem_takeWhile_imp hc
    have hsplit : cs = blanks ++ cs.dropWhile Text.isBlank := by simp [blanks]
    cases hrest : cs.dropWhile Text.isBlank with
    | nil =>
      rw [hrest, List.append_nil] at hsplit
      exact ⟨[], hsplit ▸ Reading.nil hblanks⟩
    | cons c rest =>
      have hc : Text.isBlank c = false := by
        have hstop := List.head?_dropWhile_not Text.isBlank cs
        simpa [hrest] using hstop
      obtain ⟨token, raw, post, htoken, hwritten⟩ :=
        exists_written (position + Text.width blanks) hc rest
      obtain ⟨d, ds, hraw, -⟩ := hwritten.exists_cons
      have hshorter : post.length < n := by
        rw [hrest, htoken, hraw] at hsplit
        rw [← hlength, hsplit]
        simp
        omega
      obtain ⟨tokens, htokens⟩ := ih post.length hshorter token.stop post rfl
      rw [hsplit, hrest, htoken]
      exact ⟨token :: tokens, Reading.cons hblanks hwritten htokens⟩

/-- **The reader of a line follows the grammar**, and no other tokens do. -/
theorem reading_iff {position : Nat} {cs : List Char} {tokens : List Token} :
    Reading position cs tokens ↔ scanFrom position .between cs = tokens := by
  constructor
  · exact Reading.scanFrom_eq
  · rintro rfl
    obtain ⟨tokens, htokens⟩ := exists_reading position cs
    rwa [htokens.scanFrom_eq]

theorem reading_scan (line : String) : Reading 0 line.toList (scan line) :=
  reading_iff.mpr rfl

theorem Written.reading {position : Nat} {raw : List Char} {token : Token}
    (h : Written position [] token raw) : Reading position raw [token] := by
  have hreading : Reading position ([] ++ (raw ++ [])) [token] :=
    Reading.cons (by simp) h (Reading.nil (by simp))
  simpa using hreading

theorem Reading.eq_nil {position : Nat} {tokens : List Token} (h : Reading position [] tokens) :
    tokens = [] := by
  rw [← h.scanFrom_eq]
  rfl

theorem Reading.blanks_append {position : Nat} {blanks cs : List Char} {tokens : List Token}
    (hblanks : ∀ c ∈ blanks, Text.isBlank c = true)
    (h : Reading (position + Text.width blanks) cs tokens) :
    Reading position (blanks ++ cs) tokens := by
  rw [reading_iff, scanFrom_blanks hblanks, h.scanFrom_eq]

theorem map_text_shift (offset : Nat) (tokens : List Token) :
    (tokens.map (shift offset)).map (·.text) = tokens.map (·.text) := by
  simp [Function.comp_def]

theorem Written.shift {position : Nat} {post raw : List Char} {token : Token}
    (h : Written position post token raw) (offset : Nat) :
    Written (position + offset) post (token.shift offset) raw := by
  cases h with
  | bare hbare hpost =>
    rw [Token.shift, Nat.add_right_comm]
    exact Written.bare hbare hpost
  | closed mark hmark =>
    rw [Token.shift, Nat.add_right_comm]
    exact Written.closed mark hmark
  | unclosed mark hmark hpost =>
    rw [Token.shift, Nat.add_right_comm]
    exact Written.unclosed mark hmark hpost

/-- A line that begins further behind has the same tokens there. -/
theorem Reading.shift {position : Nat} {cs : List Char} {tokens : List Token}
    (h : Reading position cs tokens) (offset : Nat) :
    Reading (position + offset) cs (tokens.map (Token.shift offset)) := by
  induction h with
  | nil hblanks => exact Reading.nil hblanks
  | cons hblanks htoken hrest ih =>
    have htoken' := htoken.shift offset
    rw [Nat.add_right_comm] at htoken'
    exact Reading.cons hblanks htoken' ih

-- ════════════════════════════════════════════════════════════════════════
-- Cutting and joining
-- ════════════════════════════════════════════════════════════════════════

/-- What stands behind a token may be changed, as long as a bare word is still followed by a blank. -/
theorem Written.of_post {position : Nat} {post post' raw : List Char} {token : Token}
    (h : Written position post token raw) (hclosed : token.isTerminated = true)
    (hpost : token.form = .bare → ∀ c ∈ post'.head?, Text.isBlank c = true) :
    Written position post' token raw := by
  cases h with
  | bare hbare => exact Written.bare hbare (hpost rfl)
  | closed mark hmark => exact Written.closed mark hmark
  | unclosed mark hmark => cases hclosed

/-- A token that others stand behind is complete. -/
theorem Written.isTerminated {position : Nat} {post raw : List Char} {token : Token}
    (h : Written position post token raw) (hpost : post ≠ []) : token.isTerminated = true := by
  cases h with
  | bare => rfl
  | closed => rfl
  | unclosed mark hmark hnil => exact absurd hnil hpost

/-- A quoted token that was not closed ends with the line. -/
theorem Written.post_eq_nil {position : Nat} {post raw : List Char} {token : Token}
    (h : Written position post token raw) (hopen : token.isTerminated = false) : post = [] := by
  by_contra hne
  rw [h.isTerminated hne] at hopen
  cases hopen

/-- Behind a bare word stands a blank, or nothing. -/
theorem Written.blank_behind {position : Nat} {post raw : List Char} {token : Token}
    (h : Written position post token raw) (hform : token.form = .bare) :
    ∀ c ∈ post.head?, Text.isBlank c = true := by
  cases h with
  | bare hbare hpost => exact hpost
  | closed mark hmark => cases hform
  | unclosed mark hmark => cases hform

/-- A bare word and the token after it do not stand side by side. -/
theorem Written.exists_blank {position start : Nat} {gap post raw raw' : List Char}
    {token token' : Token} (h : Written position (gap ++ (raw' ++ post)) token raw)
    (hform : token.form = .bare) (hnext : Written start post token' raw') :
    ∃ d ds, gap = d :: ds ∧ Text.isBlank d = true := by
  have hbehind := h.blank_behind hform
  cases gap with
  | cons d ds => exact ⟨d, ds, rfl, hbehind d rfl⟩
  | nil =>
    obtain ⟨c, cs, rfl, hc⟩ := hnext.exists_cons
    have hblank := hbehind c rfl
    rw [hc] at hblank
    cases hblank

theorem endsBetween_nil (stop : Nat) : EndsBetween stop [] := by
  intro last hlast
  cases hlast

theorem endsBetween_singleton {stop : Nat} {token : Token} (hterminated : token.isTerminated = true)
    (hbare : token.form = .bare → token.stop ≠ stop) : EndsBetween stop [token] := by
  intro last hlast
  obtain rfl : token = last := by simpa using hlast
  exact ⟨hterminated, hbare⟩

theorem endsBetween_cons_cons {stop : Nat} {first second : Token} {tokens : List Token} :
    EndsBetween stop (first :: second :: tokens) ↔ EndsBetween stop (second :: tokens) := by
  rw [EndsBetween, EndsBetween, List.getLast?_cons_cons]

/-- **A reading is cut in front of a token.** In front of the cut stand the tokens before, the last of them
complete, and behind it the token and those after it. -/
theorem Reading.cut {position : Nat} {cs : List Char} {before after : List Token} {token : Token}
    (h : Reading position cs (before ++ token :: after)) :
    ∃ front raw post, cs = front ++ (raw ++ post) ∧ token.start = position + Text.width front ∧
      Reading position front before ∧ EndsBetween token.start before ∧
      Written token.start post token raw ∧ Reading token.stop post after := by
  induction before generalizing position cs with
  | nil =>
    cases h with
    | @cons _ blanks raw post _ _ hblanks htoken hrest =>
      refine ⟨blanks, raw, post, rfl, htoken.start_eq, Reading.nil hblanks, endsBetween_nil _, ?_,
        hrest⟩
      rwa [htoken.start_eq]
  | cons first before ih =>
    cases h with
    | @cons _ blanks raw₁ post₁ _ _ hblanks hfirst hrest =>
      obtain ⟨gap, raw, post, rfl, hstart, hgap, hends, hwritten, hafter⟩ := ih hrest
      have hstop := hfirst.stop_eq
      have hterminated : first.isTerminated = true := by
        obtain ⟨c, ds, rfl, -⟩ := hwritten.exists_cons
        exact hfirst.isTerminated (by simp)
      have hfirst' : Written (position + Text.width blanks) gap first raw₁ := by
        refine hfirst.of_post hterminated fun hform => ?_
        obtain ⟨d, rest, rfl, hd⟩ := hfirst.exists_blank hform hwritten
        simpa using hd
      refine ⟨blanks ++ (raw₁ ++ gap), raw, post, by simp, ?_, Reading.cons hblanks hfirst' hgap, ?_,
        hwritten, hafter⟩
      · simp only [Text.width_append]
        omega
      · cases before with
        | cons second before => exact endsBetween_cons_cons.mpr hends
        | nil =>
          refine endsBetween_singleton hterminated fun hform => ?_
          obtain ⟨d, rest, rfl, -⟩ := hfirst.exists_blank hform hwritten
          have hpos := d.utf8Size_pos
          rw [Text.width_cons] at hstart
          omega

/-- Every token of a line stands in it as it is written, between two characters of the line. -/
theorem exists_place {line : String} {token : Token} (h : token ∈ scan line) :
    ∃ front raw post, line.toList = front ++ (raw ++ post) ∧
      Written (Text.width front) post token raw := by
  have hreading := reading_scan line
  obtain ⟨before, after, hsplit⟩ := List.append_of_mem h
  rw [hsplit] at hreading
  obtain ⟨front, raw, post, hline, hstart, -, -, hwritten, -⟩ := hreading.cut
  rw [Nat.zero_add] at hstart
  exact ⟨front, raw, post, hline, hstart ▸ hwritten⟩

/-- A quoted token that is not closed runs to the end of the line. -/
theorem Reading.stop_eq_of_open {position : Nat} {cs : List Char} {before : List Token} {last : Token}
    (h : Reading position cs (before ++ [last])) (hopen : last.isTerminated = false) :
    last.stop = position + Text.width cs := by
  obtain ⟨front, raw, post, rfl, hstart, -, -, hwritten, -⟩ := h.cut
  obtain rfl := hwritten.post_eq_nil hopen
  have hstop := hwritten.stop_eq
  simp only [List.append_nil, Text.width_append]
  omega

/-- **What is put behind a line is read as if it stood alone**, if no token is open at the end of the
line. -/
theorem Reading.append {position : Nat} {cs rest : List Char} {tokens others : List Token}
    (h : Reading position cs tokens) (hends : EndsBetween (position + Text.width cs) tokens)
    (hrest : Reading (position + Text.width cs) rest others) :
    Reading position (cs ++ rest) (tokens ++ others) := by
  induction h with
  | nil hblanks => exact hrest.blanks_append hblanks
  | @cons position blanks raw post token tokens hblanks htoken htokens ih =>
    have hstop := htoken.stop_eq
    have hwidth : position + Text.width (blanks ++ (raw ++ post)) = token.stop + Text.width post := by
      simp only [Text.width_append]
      omega
    rw [hwidth] at hrest hends
    have hothers : Reading token.stop (post ++ rest) (tokens ++ others) := by
      refine ih ?_ hrest
      cases tokens with
      | nil => exact endsBetween_nil _
      | cons second tokens => exact endsBetween_cons_cons.mp hends
    have htoken' : Written (position + Text.width blanks) (post ++ rest) token raw := by
      cases post with
      | cons c post =>
        refine htoken.of_post (htoken.isTerminated (by simp)) fun hform => ?_
        simpa using htoken.blank_behind hform
      | nil =>
        -- the token ends with the line, so it is the last one, and not a bare word
        have hlast : tokens = [] := htokens.eq_nil
        subst hlast
        obtain ⟨hterminated, hbare⟩ := hends token rfl
        exact htoken.of_post hterminated fun hform => absurd rfl (hbare hform)
    rw [List.append_assoc, List.append_assoc]
    exact Reading.cons hblanks htoken' hothers

/-- Blanks behind a line make no difference if no quoted token is open at its end. -/
theorem Reading.append_blanks {position : Nat} {cs blanks : List Char} {tokens : List Token}
    (h : Reading position cs tokens) (hblanks : ∀ c ∈ blanks, Text.isBlank c = true)
    (hclosed : ∀ last ∈ tokens.getLast?, last.isTerminated = true) :
    Reading position (cs ++ blanks) tokens := by
  induction h with
  | nil hfront =>
    refine Reading.nil fun c hc => ?_
    rcases List.mem_append.mp hc with hc | hc
    · exact hfront c hc
    · exact hblanks c hc
  | @cons position front raw post token tokens hfront htoken hrest ih =>
    have hterminated : token.isTerminated = true := by
      cases tokens with
      | nil => exact hclosed token rfl
      | cons second tokens =>
        refine htoken.isTerminated ?_
        rintro rfl
        cases hrest.eq_nil
    have htoken' : Written (position + Text.width front) (post ++ blanks) token raw := by
      refine htoken.of_post hterminated fun hform => ?_
      cases post with
      | nil => exact fun c hc => hblanks c (List.mem_of_mem_head? hc)
      | cons c post => simpa using htoken.blank_behind hform
    have hothers : Reading token.stop (post ++ blanks) tokens := by
      refine ih fun last hlast => hclosed last ?_
      rw [List.getLast?_cons, hlast]
      rfl
    rw [List.append_assoc, List.append_assoc]
    exact Reading.cons hfront htoken' hothers

/-- What is put behind a line at whose end no token is open adds tokens and changes none. -/
theorem exists_scan_append {line : String} (h : EndsBetween (Text.width line.toList) (scan line))
    (rest : String) : ∃ others, scan (line ++ rest) = scan line ++ others := by
  rw [← Nat.zero_add (Text.width line.toList)] at h
  obtain ⟨others, hothers⟩ := exists_reading (0 + Text.width line.toList) rest.toList
  have hreading := (reading_scan line).append h hothers
  refine ⟨others, ?_⟩
  rw [scan, String.toList_append, hreading.scanFrom_eq]

-- ════════════════════════════════════════════════════════════════════════
-- Lines that end inside a token
-- ════════════════════════════════════════════════════════════════════════

theorem takeWhile_ne_append {mark : Char} {inside : List Char} (h : mark ∉ inside) (rest : List Char) :
    (inside ++ mark :: rest).takeWhile (· != mark) = inside := by
  have hbefore : ∀ c ∈ inside, (c != mark) = true := by
    intro c hc
    simpa using ne_of_mem_of_not_mem hc h
  rw [List.takeWhile_append_of_pos hbefore]
  simp

theorem takeWhile_ne_self {mark : Char} {cs : List Char} (h : mark ∉ cs) :
    cs.takeWhile (· != mark) = cs := by
  rw [List.takeWhile_eq_self_iff]
  intro c hc
  simpa using ne_of_mem_of_not_mem hc h

/-- An opening mark begins a token that takes in everything up to the next such mark. -/
theorem exists_written_quoted (position : Nat) (mark : Mark) (cs : List Char) :
    ∃ token raw post, mark.char :: cs = raw ++ post ∧ Written position post token raw ∧
      token.text = String.ofList (cs.takeWhile (· != mark.char)) := by
  by_cases hcloses : mark.char ∈ cs
  · obtain ⟨text, rest, rfl, htext⟩ := List.eq_append_cons_of_mem hcloses
    rw [takeWhile_ne_append htext]
    exact ⟨_, mark.char :: (text ++ [mark.char]), rest, by simp, Written.closed mark htext, rfl⟩
  · rw [takeWhile_ne_self hcloses]
    exact ⟨_, mark.char :: cs, [], by simp, Written.unclosed mark hcloses rfl, rfl⟩

/-- A line that begins with a mark is read from its first token on, which takes in everything up to the next
such mark. -/
theorem exists_reading_quoted (position : Nat) (mark : Mark) (cs : List Char) :
    ∃ first others, Reading position (mark.char :: cs) (first :: others) ∧
      first.text = String.ofList (cs.takeWhile (· != mark.char)) := by
  obtain ⟨first, raw, post, hraw, hwritten, htext⟩ := exists_written_quoted position mark cs
  obtain ⟨others, hothers⟩ := exists_reading first.stop post
  have hreading : Reading position ([] ++ (raw ++ post)) (first :: others) :=
    Reading.cons (by simp) hwritten hothers
  rw [List.nil_append, ← hraw] at hreading
  exact ⟨first, others, hreading, htext⟩

theorem isTerminated_of_quoted {token : Token} {mark : Mark} {closed : Bool}
    (h : token.form = .quoted mark closed) : token.isTerminated = closed := by
  rw [isTerminated, h]

theorem exists_mark_of_open {token : Token} (h : token.isTerminated = false) :
    ∃ mark, token.form = .quoted mark false := by
  unfold isTerminated at h
  split at h
  · cases h
  · rename_i mark closed hform
    exact ⟨mark, h ▸ hform⟩

theorem Written.extend {position : Nat} {raw rest : List Char} {token : Token} {mark : Mark}
    (h : Written position [] token raw) (hform : token.form = .quoted mark false)
    (hrest : mark.char ∉ rest) : Written position [] (token.extend rest) (raw ++ rest) := by
  cases h with
  | bare => cases hform
  | closed => cases hform
  | @unclosed _ cs hmark =>
    cases hform
    have hlonger : mark.char ∉ cs ++ rest := by simp [hmark, hrest]
    have hwritten : Written position [] _ _ := Written.unclosed mark hlonger rfl
    simpa [Token.extend, Nat.add_assoc] using hwritten

theorem Written.close {position : Nat} {raw rest : List Char} {token : Token} {mark : Mark}
    (h : Written position [] token raw) (hform : token.form = .quoted mark false)
    (hrest : mark.char ∉ rest) (post : List Char) :
    Written position post (token.close mark rest) (raw ++ (rest ++ [mark.char])) := by
  cases h with
  | bare => cases hform
  | closed => cases hform
  | @unclosed _ cs hmark =>
    cases hform
    have hlonger : mark.char ∉ cs ++ rest := by simp [hmark, hrest]
    have hwritten : Written position post _ _ := Written.closed mark hlonger
    simpa [Token.close, Nat.add_assoc] using hwritten

/-- A quoted token that is still open takes in all that is put behind the line, if its mark does not come
again. -/
theorem Reading.extend {position : Nat} {cs rest : List Char} {before : List Token} {last : Token}
    {mark : Mark} (h : Reading position cs (before ++ [last])) (hform : last.form = .quoted mark false)
    (hrest : mark.char ∉ rest) :
    Reading position (cs ++ rest) (before ++ [last.extend rest]) := by
  obtain ⟨front, raw, post, rfl, hstart, hfront, hends, hwritten, -⟩ := h.cut
  obtain rfl := hwritten.post_eq_nil (isTerminated_of_quoted hform)
  rw [hstart] at hwritten hends
  rw [List.append_nil, List.append_assoc]
  exact hfront.append hends (hwritten.extend hform hrest).reading

/-- A quoted token that is still open takes in what is put behind the line up to its mark, and what comes behind
the mark is read as if it stood alone. -/
theorem Reading.close {position : Nat} {cs inside rest : List Char} {before others : List Token}
    {last : Token} {mark : Mark} (h : Reading position cs (before ++ [last]))
    (hform : last.form = .quoted mark false) (hinside : mark.char ∉ inside)
    (hrest : Reading (position + Text.width (cs ++ (inside ++ [mark.char]))) rest others) :
    Reading position (cs ++ (inside ++ mark.char :: rest))
      (before ++ last.close mark inside :: others) := by
  have hstop := h.stop_eq_of_open (isTerminated_of_quoted hform)
  obtain ⟨front, raw, post, rfl, hstart, hfront, hends, hwritten, -⟩ := h.cut
  obtain rfl := hwritten.post_eq_nil (isTerminated_of_quoted hform)
  have hbehind : (last.close mark inside).stop =
      position + Text.width ((front ++ (raw ++ [])) ++ (inside ++ [mark.char])) := by
    rw [Text.width_append, ← Nat.add_assoc, ← hstop]
    rfl
  rw [← hbehind] at hrest
  rw [hstart] at hwritten hends
  have hclosed : Reading (position + Text.width front) ([] ++ ((raw ++ (inside ++ [mark.char])) ++ rest))
      (last.close mark inside :: others) :=
    Reading.cons (by simp) (hwritten.close hform hinside rest) hrest
  simpa using hfront.append hends hclosed

/-- What is put behind a line whose last token is still open does not change the tokens before it. That token
takes in what comes up to its mark. -/
theorem Reading.absorb {position : Nat} {cs : List Char} {before : List Token} {last : Token}
    {mark : Mark} (h : Reading position cs (before ++ [last])) (hform : last.form = .quoted mark false)
    (rest : List Char) :
    ∃ longer others, Reading position (cs ++ rest) (before ++ longer :: others) ∧
      longer.text = last.text ++ String.ofList (rest.takeWhile (· != mark.char)) := by
  by_cases hcloses : mark.char ∈ rest
  · obtain ⟨inside, rest, rfl, hinside⟩ := List.eq_append_cons_of_mem hcloses
    obtain ⟨others, hothers⟩ :=
      exists_reading (position + Text.width (cs ++ (inside ++ [mark.char]))) rest
    refine ⟨_, others, h.close hform hinside hothers, ?_⟩
    rw [takeWhile_ne_append hinside]
    rfl
  · refine ⟨_, [], h.extend hform hcloses, ?_⟩
    rw [takeWhile_ne_self hcloses]
    rfl

end CommandConsole.Token
