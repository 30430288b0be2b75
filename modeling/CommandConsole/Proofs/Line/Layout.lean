import CommandConsole.Proofs.Line.Grammar
import CommandConsole.Proofs.Text.Bytes

/-!
# The layout of a line

What can be said of every token of a line by itself: which characters it takes up, how they spell it, and
what may stand behind it. Together with the order of the tokens, and with blanks in all other places, this
fixes the tokens of a line.

## Main definitions

- `Token.Spans` — a token stands between two cuts through a line
- `Token.SpelledBare`, `Token.SpelledQuoted` — how the characters of a token spell it
- `Token.Laid` — the tokens are laid out over a line

## Main statements

- `Token.Laid.cons`, `Token.Laid.tail` — a token is put in front of others, and taken away
- `Token.Reading.laid`, `Token.Laid.reading` — what follows the grammar is laid out, and the other way round
- `Token.scan_eq_iff_laid` — the tokens of a line are the only ones that are laid out over it
-/

namespace CommandConsole.Token

/-- A token stands behind `front` and in front of `post` and takes up `raw`. Its byte offsets are those of the
two cuts, which lie between characters. -/
structure Spans (token : Token) (position : Nat) (cs front raw post : List Char) : Prop where
  line_eq : cs = front ++ (raw ++ post)
  start_eq : token.start = position + Text.width front
  stop_eq : token.stop = position + Text.width (front ++ raw)

/-- The characters `raw` in front of `post` are a bare word, and the token is that. -/
structure SpelledBare (token : Token) (raw post : List Char) : Prop where
  bare : IsBare raw
  text_eq : token.text = String.ofList raw
  terminated : token.isTerminated = true
  followed : ∀ c ∈ post.head?, Text.isBlank c = true

/-- The characters `raw` in front of `post` are the text of the token behind an opening mark. The mark comes
again at their end, or else the line is over. -/
structure SpelledQuoted (token : Token) (mark : Mark) (raw post : List Char) : Prop where
  opened : raw.head? = some mark.char
  not_mem : mark.char ∉ token.text.toList
  closed : token.isTerminated = true → raw = mark.char :: (token.text.toList ++ [mark.char])
  unclosed : token.isTerminated = false → raw = mark.char :: token.text.toList ∧ post = []

/-- Tokens are laid out over the characters of a line, the first of which stands at the byte offset
`position`. -/
structure Laid (position : Nat) (cs : List Char) (tokens : List Token) : Prop where
  ordered : tokens.Pairwise fun first second => first.stop ≤ second.start
  nonempty : ∀ token ∈ tokens, token.start < token.stop
  spelled : ∀ token ∈ tokens, ∃ front raw post, token.Spans position cs front raw post ∧
    (token.mark? = none → token.SpelledBare raw post) ∧
    ∀ mark, token.mark? = some mark → token.SpelledQuoted mark raw post
  blank_outside : ∀ front c post, cs = front ++ c :: post →
    (∀ token ∈ tokens, ¬(token.start ≤ position + Text.width front ∧
      position + Text.width front < token.stop)) → Text.isBlank c = true
  unclosed_last : ∀ token ∈ tokens, token.isTerminated = false →
    tokens.getLast? = some token ∧ token.stop = position + Text.width cs

-- ════════════════════════════════════════════════════════════════════════
-- One token
-- ════════════════════════════════════════════════════════════════════════

theorem Written.spelled {position : Nat} {post raw : List Char} {token : Token}
    (h : Written position post token raw) :
    (token.mark? = none → token.SpelledBare raw post) ∧
      ∀ mark, token.mark? = some mark → token.SpelledQuoted mark raw post := by
  cases h with
  | bare hbare hpost => exact ⟨fun _ => ⟨hbare, rfl, rfl, hpost⟩, nofun⟩
  | closed mark hmem =>
    refine ⟨nofun, fun other hother => ?_⟩
    cases hother
    exact ⟨rfl, by simpa using hmem, fun _ => by simp, nofun⟩
  | unclosed mark hmem hpost =>
    refine ⟨nofun, fun other hother => ?_⟩
    cases hother
    exact ⟨rfl, by simpa using hmem, nofun, fun _ => ⟨by simp, hpost⟩⟩

/-- A token that is spelled where it stands is written there. -/
theorem Spans.written {token : Token} {position : Nat} {cs front raw post : List Char}
    (h : token.Spans position cs front raw post)
    (hbare : token.mark? = none → token.SpelledBare raw post)
    (hquoted : ∀ mark, token.mark? = some mark → token.SpelledQuoted mark raw post) :
    Written (position + Text.width front) post token raw := by
  obtain ⟨text, start, stop, form⟩ := token
  have hstart : start = position + Text.width front := h.start_eq
  have hstop : stop = start + Text.width raw := by
    have hstop := h.stop_eq
    rw [Text.width_append, ← Nat.add_assoc, ← hstart] at hstop
    exact hstop
  subst hstart hstop
  cases form with
  | bare =>
    obtain ⟨hraw, htext, -, hpost⟩ := hbare rfl
    subst htext
    exact Written.bare hraw hpost
  | quoted mark closed =>
    obtain ⟨-, hmem, hclosed, hunclosed⟩ := hquoted mark rfl
    cases closed with
    | true =>
      have hwritten : Written (position + Text.width front) post _ _ := Written.closed mark hmem
      rw [hclosed rfl]
      simpa using hwritten
    | false =>
      obtain ⟨hraw, hpost⟩ := hunclosed rfl
      have hwritten : Written (position + Text.width front) post _ _ := Written.unclosed mark hmem hpost
      rw [hraw]
      simpa using hwritten

-- ════════════════════════════════════════════════════════════════════════
-- From the grammar to the layout
-- ════════════════════════════════════════════════════════════════════════

theorem Spans.behind {token : Token} {position position' : Nat} {cs front raw post before : List Char}
    (h : token.Spans position' cs front raw post) (hposition : position' = position + Text.width before) :
    token.Spans position (before ++ cs) (before ++ front) raw post where
  line_eq := by rw [h.line_eq, List.append_assoc]
  start_eq := by rw [h.start_eq, hposition, Text.width_append, Nat.add_assoc]
  stop_eq := by
    rw [h.stop_eq, hposition, List.append_assoc, Text.width_append before, Nat.add_assoc]

theorem Laid.le_start {position : Nat} {cs : List Char} {tokens : List Token}
    (h : Laid position cs tokens) : ∀ token ∈ tokens, position ≤ token.start := by
  intro token htoken
  obtain ⟨front, raw, post, hspans, -⟩ := h.spelled token htoken
  rw [hspans.start_eq]
  exact Nat.le_add_right _ _

theorem Laid.eq_nil {position : Nat} {tokens : List Token} (h : Laid position [] tokens) :
    tokens = [] := by
  by_contra hne
  obtain ⟨token, rest, rfl⟩ := List.exists_cons_of_ne_nil hne
  obtain ⟨front, raw, post, hspans, -⟩ := h.spelled token List.mem_cons_self
  have hnonempty := h.nonempty token List.mem_cons_self
  have hempty := hspans.line_eq
  simp only [List.nil_eq, List.append_eq_nil_iff] at hempty
  rw [hspans.start_eq, hspans.stop_eq, hempty.1, hempty.2.1] at hnonempty
  exact absurd hnonempty (Nat.lt_irrefl _)

/-- One more token in front, behind blanks. -/
theorem Laid.cons {position : Nat} {blanks raw post : List Char} {token : Token} {tokens : List Token}
    (hblanks : ∀ c ∈ blanks, Text.isBlank c = true)
    (htoken : Written (position + Text.width blanks) post token raw)
    (h : Laid token.stop post tokens) : Laid position (blanks ++ (raw ++ post)) (token :: tokens) := by
  have hstart := htoken.start_eq
  have hstop : token.stop = position + Text.width (blanks ++ raw) := by
    rw [htoken.stop_eq, Text.width_append, Nat.add_assoc]
  refine ⟨List.pairwise_cons.mpr ⟨h.le_start, h.ordered⟩, List.forall_mem_cons.mpr ⟨?_, h.nonempty⟩,
    List.forall_mem_cons.mpr ⟨⟨blanks, raw, post, ⟨rfl, hstart, hstop⟩, htoken.spelled⟩, ?_⟩, ?_,
    List.forall_mem_cons.mpr ⟨fun hopen => ?_, fun later hlater hopen => ?_⟩⟩
  · obtain ⟨c, cs, rfl, -⟩ := htoken.exists_cons
    have hpos := c.utf8Size_pos
    have hend := htoken.stop_eq
    rw [Text.width_cons] at hend
    omega
  · intro later hlater
    obtain ⟨front, raw', post', hspans, hspelled⟩ := h.spelled later hlater
    have hspans' := hspans.behind hstop
    rw [List.append_assoc] at hspans'
    exact ⟨_, raw', post', hspans', hspelled⟩
  · intro front c rest hsplit houtside
    obtain ⟨houtside, hothers⟩ := List.forall_mem_cons.mp houtside
    by_cases hin : Text.width front < Text.width blanks
    · -- in front of the token
      obtain ⟨gap, rfl, hgap⟩ := Text.exists_append_of_width_le hsplit.symm hin.le
      cases gap with
      | nil => simp at hin
      | cons d gap =>
        cases hgap
        exact hblanks c (by simp)
    · -- behind it
      have hwidth : Text.width (blanks ++ raw) ≤ Text.width front := by
        rw [Text.width_append] at hstop ⊢
        omega
      rw [← List.append_assoc] at hsplit
      obtain ⟨gap, rfl, hpost⟩ := Text.exists_append_of_width_le hsplit hwidth
      have hoffset : position + Text.width (blanks ++ raw ++ gap) = token.stop + Text.width gap := by
        rw [hstop, Text.width_append (blanks ++ raw), Nat.add_assoc]
      rw [hoffset] at hothers
      exact h.blank_outside gap c rest hpost hothers
  · obtain rfl := htoken.post_eq_nil hopen
    rw [h.eq_nil, List.append_nil]
    exact ⟨rfl, hstop⟩
  · obtain ⟨hlast, hend⟩ := h.unclosed_last later hlater hopen
    refine ⟨?_, ?_⟩
    · rwa [List.getLast?_cons_of_ne_nil (List.ne_nil_of_mem hlater)]
    · rw [hend, hstop, ← List.append_assoc, Text.width_append (blanks ++ raw), Nat.add_assoc]

/-- Tokens that follow the grammar are laid out. -/
theorem Reading.laid {position : Nat} {cs : List Char} {tokens : List Token}
    (h : Reading position cs tokens) : Laid position cs tokens := by
  induction h with
  | nil hblanks =>
    refine ⟨List.Pairwise.nil, by simp, by simp, ?_, by simp⟩
    rintro front c post rfl -
    exact hblanks c (by simp)
  | cons hblanks htoken hrest ih => exact ih.cons hblanks htoken

-- ════════════════════════════════════════════════════════════════════════
-- From the layout to the grammar
-- ════════════════════════════════════════════════════════════════════════

/-- Behind the first token the others are laid out over the rest of the line. -/
theorem Laid.tail {position : Nat} {front raw post : List Char} {token : Token} {tokens : List Token}
    (h : Laid position (front ++ (raw ++ post)) (token :: tokens))
    (hstop : token.stop = position + Text.width (front ++ raw)) : Laid token.stop post tokens where
  ordered := (List.pairwise_cons.mp h.ordered).2
  nonempty := (List.forall_mem_cons.mp h.nonempty).2
  spelled := by
    intro later hlater
    obtain ⟨front', raw', post', hspans, hspelled⟩ :=
      h.spelled later (List.mem_cons_of_mem token hlater)
    have hbehind : token.stop ≤ later.start := (List.pairwise_cons.mp h.ordered).1 later hlater
    have hwidth : Text.width (front ++ raw) ≤ Text.width front' := by
      have hstart := hspans.start_eq
      omega
    have hsplit := hspans.line_eq
    rw [← List.append_assoc] at hsplit
    obtain ⟨gap, rfl, hpost⟩ := Text.exists_append_of_width_le hsplit hwidth
    refine ⟨gap, raw', post', ⟨hpost, ?_, ?_⟩, hspelled⟩
    · rw [hspans.start_eq, hstop, Text.width_append, Nat.add_assoc]
    · rw [hspans.stop_eq, hstop, List.append_assoc, Text.width_append (front ++ raw), Nat.add_assoc]
  blank_outside := by
    rintro gap c rest rfl houtside
    refine h.blank_outside ((front ++ raw) ++ gap) c rest (by simp) ?_
    have hoffset : position + Text.width ((front ++ raw) ++ gap) = token.stop + Text.width gap := by
      rw [hstop, Text.width_append (front ++ raw), Nat.add_assoc]
    rw [hoffset]
    exact List.forall_mem_cons.mpr ⟨fun hin => by omega, houtside⟩
  unclosed_last := by
    intro later hlater hopen
    obtain ⟨hlast, hend⟩ := h.unclosed_last later (List.mem_cons_of_mem token hlater) hopen
    refine ⟨?_, ?_⟩
    · rwa [List.getLast?_cons_of_ne_nil (List.ne_nil_of_mem hlater)] at hlast
    · rw [hend, hstop, ← List.append_assoc, Text.width_append (front ++ raw), Nat.add_assoc]

/-- Tokens that are laid out follow the grammar. -/
theorem Laid.reading {position : Nat} {cs : List Char} {tokens : List Token}
    (h : Laid position cs tokens) : Reading position cs tokens := by
  induction tokens generalizing position cs with
  | nil =>
    refine Reading.nil fun c hc => ?_
    obtain ⟨front, post, rfl⟩ := List.append_of_mem hc
    exact h.blank_outside front c post rfl (by simp)
  | cons token tokens ih =>
    obtain ⟨front, raw, post, hspans, hbare, hquoted⟩ := h.spelled token List.mem_cons_self
    obtain rfl := hspans.line_eq
    refine Reading.cons ?_ (hspans.written hbare hquoted) (ih (h.tail hspans.stop_eq))
    -- no token begins in front of the first one
    intro c hc
    obtain ⟨before, after, rfl⟩ := List.append_of_mem hc
    refine h.blank_outside before c (after ++ (raw ++ post)) (by simp) ?_
    have hstart : position + Text.width before < token.start := by
      have hpos := c.utf8Size_pos
      rw [hspans.start_eq, Text.width_append, Text.width_cons]
      omega
    have hnonempty := h.nonempty token List.mem_cons_self
    refine List.forall_mem_cons.mpr ⟨fun hin => by omega, fun later hlater hin => ?_⟩
    have hbehind := (List.pairwise_cons.mp h.ordered).1 later hlater
    omega

/-- **The tokens of a line are the only ones that are laid out over it.** They stand in order and do not
overlap, each one takes up at least one character, all characters outside are blanks; a bare word has no
blank, does not begin with a mark, and is followed by a blank or nothing; a quoted token is its text, which
lacks the mark, behind a mark and in front of the same mark, and if the second mark is missing the token is
the last one and ends with the line. -/
theorem scan_eq_iff_laid (line : String) (tokens : List Token) :
    scan line = tokens ↔ Laid 0 line.toList tokens := by
  rw [scan, ← reading_iff]
  exact ⟨Reading.laid, Laid.reading⟩

end CommandConsole.Token
