import CommandConsole.Proofs.Line.Grammar
import CommandConsole.Proofs.Text.Bytes

/-!
# Lines put together

A line that is put behind another one, with blanks in between, is read as if it stood alone, unless a quoted
token is still open at the end of the first line. Then that token goes on: it takes in the blanks and what comes
behind them up to its mark, and only what follows the mark is read as if it stood alone.

## Main statements

- `Token.Reading.append_behind_blanks` — a line behind another one and blanks
- `Token.scan_append_blanks` — the tokens of two lines with blanks in between
-/

namespace CommandConsole.Token

theorem Reading.stop_le {position : Nat} {cs : List Char} {tokens : List Token}
    (h : Reading position cs tokens) {token : Token} (hmem : token ∈ tokens) :
    token.stop ≤ position + Text.width cs := by
  obtain ⟨before, after, rfl⟩ := List.append_of_mem hmem
  obtain ⟨front, raw, post, rfl, hstart, -, -, hwritten, -⟩ := h.cut
  rw [hwritten.stop_eq, hstart]
  simp only [Text.width_append]
  omega

/-- **A line behind another one and blanks** is read as if it stood alone, if no quoted token is open at the end
of the first line. -/
theorem Reading.append_behind_blanks {position : Nat} {cs blanks rest : List Char}
    {tokens others : List Token} (h : Reading position cs tokens)
    (hclosed : ∀ last ∈ tokens.getLast?, last.isTerminated = true) (hne : blanks ≠ [])
    (hblanks : ∀ c ∈ blanks, Text.isBlank c = true)
    (hrest : Reading (position + Text.width (cs ++ blanks)) rest others) :
    Reading position ((cs ++ blanks) ++ rest) (tokens ++ others) := by
  refine (h.append_blanks hblanks hclosed).append (fun last hlast => ⟨hclosed last hlast, fun _ => ?_⟩) hrest
  -- a bare word at the end of the first line ends before the blanks
  have hstop := h.stop_le (List.mem_of_getLast? hlast)
  have hwidth : Text.width blanks ≠ 0 := mt Text.width_eq_zero_iff.mp hne
  rw [Text.width_append]
  omega

/-- **The tokens of two lines with blanks in between.** If no quoted token is open at the end of the first line,
they are the tokens of the first line, and behind them the tokens of the second one, moved by the bytes in front
of it. If a quoted token is open there, the tokens before it stay as they are. It takes in all that comes behind
it if that lacks its mark. Otherwise it ends with the first such mark, and the tokens of what follows the mark
come next, moved by the bytes in front of that. -/
theorem scan_append_blanks (front blanks behind : String) (hne : blanks ≠ "")
    (hblanks : ∀ c ∈ blanks.toList, Text.isBlank c = true) :
    ((∀ last ∈ (scan front).getLast?, last.isTerminated = true) →
      scan (front ++ blanks ++ behind) =
        scan front ++ (scan behind).map (shift (Text.width (front ++ blanks).toList))) ∧
    ∀ before last mark, scan front = before ++ [last] → last.form = .quoted mark false →
      (mark.char ∉ (blanks ++ behind).toList →
        scan (front ++ blanks ++ behind) = before ++ [last.extend (blanks ++ behind).toList]) ∧
      ∀ inside rest, (blanks ++ behind).toList = inside ++ mark.char :: rest → mark.char ∉ inside →
        scan (front ++ blanks ++ behind) =
          before ++ last.close mark inside :: (scan (String.ofList rest)).map
            (shift (Text.width (front.toList ++ (inside ++ [mark.char])))) := by
  have hfront := reading_scan front
  have hline : (front ++ blanks ++ behind).toList = front.toList ++ (blanks ++ behind).toList := by
    simp
  refine ⟨fun hclosed => ?_, fun before last mark hlast hform => ⟨fun hmark => ?_, ?_⟩⟩
  · have hbehind := (reading_scan behind).shift (Text.width (front ++ blanks).toList)
    rw [String.toList_append] at hbehind ⊢
    have hne' : blanks.toList ≠ [] := mt String.toList_eq_nil_iff.mp hne
    have hreading := hfront.append_behind_blanks hclosed hne' hblanks hbehind
    rw [← reading_iff.mp hreading, scan, String.toList_append, String.toList_append]
  · rw [hlast] at hfront
    rw [scan, hline]
    exact (hfront.extend hform hmark).scanFrom_eq
  · intro inside rest hsplit hinside
    rw [hlast] at hfront
    have hrest := (reading_scan (String.ofList rest)).shift
      (Text.width (front.toList ++ (inside ++ [mark.char])))
    rw [String.toList_ofList] at hrest
    rw [scan, hline, hsplit]
    exact (hfront.close hform hinside hrest).scanFrom_eq

/-- Two lines behind which a wide blank and another line are put, the second one inside a quotation. -/
theorem scanned_behind_wide_blank :
    let blank := "\u3000"
    blank ≠ "" ∧ (∀ c ∈ blank.toList, Text.isBlank c = true) ∧
      scan ("heal ä" ++ blank ++ "'x y'") = scan "heal ä" ++ [⟨"x y", 10, 15, .quoted .single true⟩] ∧
      scan ("say 'w" ++ blank ++ "ä' \"go") =
        [⟨"say", 0, 3, .bare⟩, ⟨"w\u3000ä", 4, 12, .quoted .single true⟩,
          ⟨"go", 13, 16, .quoted .double false⟩] := by
  intro blank
  have hne : blank ≠ "" := by decide
  have hblank : ∀ c ∈ blank.toList, Text.isBlank c = true := by
    rw [show blank.toList = ['\u3000'] by decide]
    exact List.forall_mem_singleton.mpr (by decide)
  refine ⟨hne, hblank, ?_, ?_⟩
  · have hclosed : ∀ last ∈ (scan "heal ä").getLast?, last.isTerminated = true := by decide +kernel
    rw [(scan_append_blanks "heal ä" blank "'x y'" hne hblank).1 hclosed]
    decide +kernel
  · have hopen : scan "say 'w" = [⟨"say", 0, 3, .bare⟩] ++ [⟨"w", 4, 6, .quoted .single false⟩] := by
      decide +kernel
    rw [((scan_append_blanks "say 'w" blank "ä' \"go" hne hblank).2 _ _ .single hopen rfl).2
      ['\u3000', 'ä'] [' ', '"', 'g', 'o'] (by decide) (by decide)]
    decide +kernel

end CommandConsole.Token
