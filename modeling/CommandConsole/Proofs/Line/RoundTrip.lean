import CommandConsole.Line.Written
import CommandConsole.Proofs.Line.Grammar

/-!
# Lines written and read again

Writing a line and reading what was written. A token can be written if it needs no quotation marks or
lacks one of the two marks. These are exactly the texts that a token read from a line can have, so
everything that was read can be written, and what cannot be written is never read back.

## Main definitions

- `Line.Writable` — the tokens that can be written
- `Line.normalize` — a typed line in its normal form

## Main statements

- `Line.read_write_eq_iff` — a line comes back exactly if all its tokens can be written
- `Line.read_normalize` — the normal form of a typed line says what the line says
-/

namespace CommandConsole.Line

/-- A token that can be written so that it is read back: it stands for itself, or it lacks one of the
two marks. -/
def Writable (token : String) : Prop :=
  IsBare token.toList ∨
    ¬(Mark.double.char ∈ token.toList ∧ Mark.single.char ∈ token.toList)

/-- A typed line in its normal form. -/
def normalize (text : String) : String := write (read text)

/-- All tokens of a line, the command first. -/
def tokens (line : Line) : List String := line.command :: line.arguments

-- ════════════════════════════════════════════════════════════════════════
-- One token
-- ════════════════════════════════════════════════════════════════════════

/-- A token is written between marks exactly if it cannot stand for itself. -/
theorem needsQuotes_eq_false_iff {cs : List Char} : needsQuotes cs = false ↔ IsBare cs := by
  cases cs with
  | nil =>
    constructor
    · intro h
      simp [needsQuotes] at h
    · intro h
      exact absurd rfl h.ne_nil
  | cons c cs =>
    constructor
    · intro h
      simp only [needsQuotes, Bool.or_eq_false_iff, List.any_eq_false, Option.isSome_eq_false_iff,
        Option.isNone_iff_eq_none] at h
      exact ⟨by simp, fun d hd => by simpa using h.1 d hd, by simpa using h.2⟩
    · intro h
      have hmark : Mark.ofChar? c = none := h.not_mark c rfl
      have hblank : (c :: cs).any Text.isBlank = false :=
        List.any_eq_false.mpr fun d hd => by simpa using h.not_blank d hd
      simp [needsQuotes, hblank, hmark]

theorem markFor_not_mem {cs : List Char}
    (h : ¬(Mark.double.char ∈ cs ∧ Mark.single.char ∈ cs)) : (markFor cs).char ∉ cs := by
  by_cases hdouble : Mark.double.char ∈ cs
  · have hsingle : Mark.single.char ∉ cs := fun hsingle => h ⟨hdouble, hsingle⟩
    simpa [markFor, hdouble] using hsingle
  · simp [markFor, hdouble]

/-- Different tokens are written differently. -/
theorem quoteChars_injective : Function.Injective quoteChars := by
  -- what is written bare does not start with a mark, what is written between marks does
  have hmixed : ∀ as bs, needsQuotes as = true → needsQuotes bs = false →
      quoteChars as ≠ quoteChars bs := by
    intro as bs has hbs heq
    simp only [quoteChars, has, hbs, if_true, Bool.false_eq_true, if_false] at heq
    exact (needsQuotes_eq_false_iff.mp hbs).head?_ne (markFor as) (by simp [← heq])
  intro as bs heq
  cases has : needsQuotes as with
  | false =>
    cases hbs : needsQuotes bs with
    | false => simpa [quoteChars, has, hbs] using heq
    | true => exact absurd heq.symm (hmixed bs as hbs has)
  | true =>
    cases hbs : needsQuotes bs with
    | false => exact absurd heq (hmixed as bs has hbs)
    | true =>
      simp only [quoteChars, has, hbs, if_true, List.cons.injEq] at heq
      exact List.append_inj_left' heq.2 rfl

theorem quote_injective : Function.Injective quote := by
  intro a b heq
  have hchars : quoteChars a.toList = quoteChars b.toList := by
    simpa [quote] using congrArg String.toList heq
  exact String.toList_inj.mp (quoteChars_injective hchars)

/-- A text that a form of tokens admits can be written. -/
theorem writable_of_admits {form : Token.Form} {token : String}
    (h : form.Admits token.toList) : Writable token := by
  match form, h with
  | .bare, h => exact Or.inl h
  | .quoted .double _, h => exact Or.inr fun hboth => h hboth.1
  | .quoted .single _, h => exact Or.inr fun hboth => h hboth.2

/-- A token that can be written is written as one token of a line, before a blank or at the end. -/
theorem written_quoteChars {token : String} (h : Writable token) (position : Nat) {post : List Char}
    (hpost : ∀ c ∈ post.head?, Text.isBlank c = true) :
    ∃ form, Token.Written position post
      ⟨token, position, position + Text.width (quoteChars token.toList), form⟩
      (quoteChars token.toList) := by
  cases hquotes : needsQuotes token.toList with
  | true =>
    have hmark : (markFor token.toList).char ∉ token.toList := by
      rcases h with hbare | hlacks
      · rw [needsQuotes_eq_false_iff.mpr hbare] at hquotes
        cases hquotes
      · exact markFor_not_mem hlacks
    refine ⟨.quoted (markFor token.toList) true, ?_⟩
    have hwritten : Token.Written position post _ _ := Token.Written.closed _ hmark
    simpa only [quoteChars, hquotes, if_true, String.ofList_toList] using hwritten
  | false =>
    refine ⟨.bare, ?_⟩
    have hwritten : Token.Written position post _ _ :=
      Token.Written.bare (needsQuotes_eq_false_iff.mp hquotes) hpost
    simpa only [quoteChars, hquotes, Bool.false_eq_true, if_false, String.ofList_toList] using hwritten

/-- A written token that ends the line, or is followed by a blank, is read as one token. What follows
is read as if it stood alone. -/
theorem scanFrom_quoteChars {token : String} (h : Writable token) (position : Nat)
    {rest : List Char} (hrest : ∀ c ∈ rest.head?, Text.isBlank c = true) :
    ∃ stop form, Token.scanFrom position .between (quoteChars token.toList ++ rest) =
      ⟨token, position, stop, form⟩ ::
        Token.scanFrom (position + Text.width (quoteChars token.toList)) .between rest := by
  obtain ⟨form, hwritten⟩ := written_quoteChars h position hrest
  exact ⟨_, form, hwritten.scanFrom_eq⟩

-- ════════════════════════════════════════════════════════════════════════
-- Whole lines
-- ════════════════════════════════════════════════════════════════════════

/-- The texts of written tokens with spaces between them are these tokens. -/
theorem texts_scanFrom_intercalate {tokens : List String} (h : ∀ token ∈ tokens, Writable token)
    (position : Nat) :
    (Token.scanFrom position .between
      ([' '].intercalate (tokens.map fun token => quoteChars token.toList))).map (·.text) =
        tokens := by
  induction tokens generalizing position with
  | nil => rfl
  | cons first rest ih =>
    have hfirst : Writable first := h first List.mem_cons_self
    have hrest : ∀ token ∈ rest, Writable token :=
      fun token htoken => h token (List.mem_cons_of_mem first htoken)
    cases rest with
    | nil =>
      have hnothing : ∀ c ∈ ([] : List Char).head?, Text.isBlank c = true := by simp
      obtain ⟨stop, form, hread⟩ := scanFrom_quoteChars hfirst position hnothing
      rw [List.append_nil] at hread
      rw [List.map_singleton, List.intercalate_singleton, hread]
      rfl
    | cons second rest =>
      let others := (second :: rest).map fun token => quoteChars token.toList
      have hspace : ∀ c ∈ (' ' :: [' '].intercalate others).head?, Text.isBlank c = true := by
        simp only [List.head?_cons, Option.mem_some_iff]
        rintro c rfl
        decide
      obtain ⟨stop, form, hread⟩ := scanFrom_quoteChars hfirst position hspace
      have hstep : ∀ p, Token.scanFrom p .between (' ' :: [' '].intercalate others) =
          Token.scanFrom (p + 1) .between ([' '].intercalate others) := fun p => rfl
      have hline : [' '].intercalate ((first :: second :: rest).map fun token =>
          quoteChars token.toList) =
          quoteChars first.toList ++ ' ' :: [' '].intercalate others := by
        simp [others]
      rw [hline, hread, hstep, List.map_cons, ih hrest]

/-- A written token behind a line is one more token, if none is open at the end of the line. -/
theorem texts_scan_append_quote {line value : String}
    (hends : Token.EndsBetween (Text.width line.toList) (Token.scan line)) (hvalue : Writable value) :
    (Token.scan (line ++ quote value)).map (·.text) = (Token.scan line).map (·.text) ++ [value] := by
  rw [← Nat.zero_add (Text.width line.toList)] at hends
  have hnothing : ∀ c ∈ ([] : List Char).head?, Text.isBlank c = true := by simp
  obtain ⟨form, hwritten⟩ := written_quoteChars hvalue (0 + Text.width line.toList) hnothing
  have hreading := (Token.reading_scan line).append hends hwritten.reading
  have hline : (line ++ quote value).toList = line.toList ++ quoteChars value.toList := by
    rw [String.toList_append, quote, String.toList_ofList]
  rw [Token.scan, hline, hreading.scanFrom_eq, List.map_append, List.map_singleton]

theorem toList_write (line : Line) :
    line.write.toList =
      [' '].intercalate (line.tokens.map fun token => quoteChars token.toList) := by
  simp [write, tokens, quote, String.toList_intercalate, Function.comp_def]

/-- A line whose tokens can all be written is read back as it was. -/
theorem read_write {line : Line} (h : ∀ token ∈ line.tokens, Writable token) :
    read line.write = line := by
  have htexts := texts_scanFrom_intercalate h 0
  rw [← toList_write] at htexts
  rw [read, Token.scan, htexts]
  rfl

/-- Everything that is read from a line can be written. -/
theorem writable_of_mem_tokens_read {text token : String} (h : token ∈ (read text).tokens) :
    Writable token := by
  have hscanned : ∀ t ∈ (Token.scan text).map (·.text), Writable t := by
    intro t ht
    obtain ⟨scanned, hmem, rfl⟩ := List.mem_map.mp ht
    exact writable_of_admits (Token.admits_of_mem_scan hmem)
  unfold read at h
  cases htexts : (Token.scan text).map (·.text) with
  | nil =>
    rw [htexts] at h
    have hempty : token = "" := by simpa [ofTexts, tokens] using h
    subst hempty
    exact Or.inr (by simp)
  | cons first rest =>
    rw [htexts] at h hscanned
    exact hscanned token h

/-- **Writing is undone by reading exactly on the writable lines**: what was written is read back if
and only if every token can be written. -/
theorem read_write_eq_iff (line : Line) :
    read line.write = line ↔ ∀ token ∈ line.command :: line.arguments, Writable token := by
  constructor
  · intro h token htoken
    -- a token that comes back was read from a line, however the others were written
    have hread : token ∈ (read line.write).tokens := by rwa [h]
    exact writable_of_mem_tokens_read hread
  · exact read_write

/-- A token with a blank and both marks does not come back. -/
example : read (write ⟨"say", ["it's \"so\""]⟩) = ⟨"say", ["it", "s", "so", ""]⟩ := by
  decide +kernel

/-- **The normal form is stable**: the normal form of a typed line says the same as the line, and is
its own normal form. -/
theorem read_normalize (text : String) :
    read (normalize text) = read text ∧ normalize (normalize text) = normalize text := by
  have hread : read (normalize text) = read text :=
    read_write fun _ htoken => writable_of_mem_tokens_read htoken
  exact ⟨hread, congrArg write hread⟩

end CommandConsole.Line
