import CommandConsole.Proofs.Line.Grammar
import CommandConsole.Proofs.Text.Trim

/-!
# Lines without the blanks around them

The blanks in front of a line and behind it say nothing, unless the line ends inside a quoted token: then the
blanks at its end are the last characters of that token, and are lost when the line is trimmed.

## Main definitions

- `Line.EndsInOpenBlank` — the line ends with a blank of a quoted token that was not closed

## Main statements

- `Token.Reading.surround`, `Token.Reading.surround_open` — a line with blanks around it
- `Line.read_trim_iff` — which lines say the same when they are trimmed
-/

namespace CommandConsole

namespace Token

section Blanks

variable {position : Nat} {leading core trailing : List Char}
  (hleading : ∀ c ∈ leading, Text.isBlank c = true) (htrailing : ∀ c ∈ trailing, Text.isBlank c = true)
include hleading htrailing

/-- Blanks around a line move its tokens, if no quoted token is open at its end. -/
theorem Reading.surround {tokens : List Token} (h : Reading position core tokens)
    (hclosed : ∀ last ∈ tokens.getLast?, last.isTerminated = true) :
    Reading position (leading ++ (core ++ trailing)) (tokens.map (Token.shift (Text.width leading))) := by
  have hmoved := h.shift (Text.width leading)
  refine Reading.blanks_append hleading (hmoved.append_blanks htrailing ?_)
  intro last hlast
  rw [List.getLast?_map] at hlast
  obtain ⟨token, htoken, rfl⟩ := Option.map_eq_some_iff.mp hlast
  exact hclosed token htoken

/-- Blanks behind a line become part of a quoted token that is open at its end. -/
theorem Reading.surround_open {before : List Token} {last : Token} {mark : Mark}
    (h : Reading position core (before ++ [last])) (hform : last.form = .quoted mark false) :
    Reading position (leading ++ (core ++ trailing))
      (before.map (Token.shift (Text.width leading)) ++
        [(last.shift (Text.width leading)).extend trailing]) := by
  have hmoved := h.shift (Text.width leading)
  rw [List.map_append, List.map_singleton] at hmoved
  refine Reading.blanks_append hleading (hmoved.extend hform fun hmark => ?_)
  have hblank := htrailing mark.char hmark
  rw [Mark.isBlank_char] at hblank
  cases hblank

end Blanks

theorem Written.text_suffix {position : Nat} {post raw : List Char} {token : Token}
    (h : Written position post token raw) (hopen : token.isTerminated = false) :
    token.text.toList <:+ raw := by
  cases h with
  | bare => cases hopen
  | closed => cases hopen
  | unclosed mark hmark hpost => simp

/-- The text of a quoted token that was not closed is the end of the line. -/
theorem Reading.text_suffix {position : Nat} {cs : List Char} {before : List Token} {last : Token}
    (h : Reading position cs (before ++ [last])) (hopen : last.isTerminated = false) :
    last.text.toList <:+ cs := by
  obtain ⟨front, raw, post, rfl, -, -, -, hwritten, -⟩ := h.cut
  obtain rfl := hwritten.post_eq_nil hopen
  rw [List.append_nil]
  exact (hwritten.text_suffix hopen).trans (List.suffix_append front raw)

end Token

namespace Line

/-- The line ends inside a quoted token that was not closed, and the text of the token ends in a blank. -/
def EndsInOpenBlank (line : String) : Prop :=
  ∃ last ∈ (Token.scan line).getLast?, last.isTerminated = false ∧
    ∃ c ∈ last.text.toList.getLast?, Text.isBlank c = true

theorem ofTexts_concat_inj {texts : List String} {text text' : String} :
    ofTexts (texts ++ [text]) = ofTexts (texts ++ [text']) ↔ text = text' := by
  cases texts <;> simp [ofTexts]

/-- **Trimming a line keeps what it says**, except if the line ends with a blank of a quoted token that was
not closed. -/
theorem read_trim_iff (line : String) :
    read (Text.trim line) = read line ↔ ¬EndsInOpenBlank line := by
  obtain ⟨leading, trailing, hline, hleading, htrailing⟩ := Text.exists_trim line
  have hcore := Token.reading_scan (Text.trim line)
  by_cases hclosed : ∀ last ∈ (Token.scan (Text.trim line)).getLast?, last.isTerminated = true
  · have hscan := (hcore.surround hleading htrailing hclosed).scanFrom_eq
    rw [← hline] at hscan
    change Token.scan line = _ at hscan
    refine iff_of_true ?_ ?_
    · rw [read, read, hscan, Token.map_text_shift]
    · rintro ⟨last, hlast, hopen, -⟩
      rw [hscan, List.getLast?_map] at hlast
      obtain ⟨token, htoken, rfl⟩ := Option.map_eq_some_iff.mp hlast
      rw [Token.isTerminated_shift, hclosed token htoken] at hopen
      cases hopen
  · push Not at hclosed
    obtain ⟨last, hlast, hopen⟩ := hclosed
    rw [ne_eq, Bool.not_eq_true] at hopen
    obtain ⟨mark, hform⟩ := Token.exists_mark_of_open hopen
    obtain ⟨before, hbefore⟩ := List.getLast?_eq_some_iff.mp hlast
    rw [hbefore] at hcore
    have hscan := (hcore.surround_open hleading htrailing hform).scanFrom_eq
    rw [← hline] at hscan
    change Token.scan line = _ at hscan
    -- what is said differs by the blanks behind the open token
    have hsame : read (Text.trim line) = read line ↔ trailing = [] := by
      rw [read, read, hscan, hbefore, List.map_append, List.map_append, Token.map_text_shift,
        List.map_singleton, List.map_singleton, ofTexts_concat_inj]
      show last.text = last.text ++ String.ofList trailing ↔ _
      rw [eq_comm, String.append_eq_left_iff, String.ofList_eq_empty_iff]
    have hends : EndsInOpenBlank line ↔
        ∃ c ∈ (last.text.toList ++ trailing).getLast?, Text.isBlank c = true := by
      simp [EndsInOpenBlank, hscan, hopen]
    have htext : ∀ c ∈ last.text.toList.getLast?, Text.isBlank c = false := by
      intro c hc
      obtain ⟨front, hfront⟩ := hcore.text_suffix hopen
      refine Text.isBlank_getLast?_trim line c ?_
      rw [← hfront, List.getLast?_append, hc]
      rfl
    rw [hsame, hends, Text.exists_blank_getLast?_append_iff htext htrailing, not_not]

end Line

end CommandConsole
