import CommandConsole.Proofs.Spelling.Distance
import CommandConsole.Proofs.Spelling.Hint
import CommandConsole.Proofs.Text.Bytes

/-!
# The choice of a hint

A name may be offered for what was typed if it is another one and few changes of single bytes lead to it. The
hint is the one of these names that takes the fewest changes, and of several the first in byte order.

## Main definitions

- `Spelling.IsDistance` — the least number of changes that turn one text into another
- `Spelling.MayBeOffered` — a name that can be the hint, with its distance from what was typed

## Main statements

- `Spelling.isDistance_iff` — the distance that is computed is the least number of changes
- `Spelling.closest?_eq_none_iff` — there is no hint exactly if there are no candidates
- `Spelling.closest?_picks_foremost` — which name is the hint, and when there is none
-/

namespace CommandConsole.Spelling

/-- A script of `n` insertions, deletions and replacements of bytes turns the one text into the other, and no
shorter one does. -/
def IsDistance (a b : String) (n : Nat) : Prop :=
  IsLeast {n | ∃ script : List (Change UInt8),
    script.length = n ∧ rewrite? (Text.bytes a) script = some (Text.bytes b)} n

theorem isDistance_iff {a b : String} {n : Nat} : IsDistance a b n ↔ n = distance a b := by
  obtain ⟨entry, hsome, hentry⟩ :=
    exists_distanceBetween? (Text.bytes a).toArray (Text.bytes b).toArray
  have haligned : IsLeast {n | Aligned (Text.bytes a) (Text.bytes b) n} entry := by
    simpa [IsEntry] using hentry
  have hdistance : distance a b = entry := by
    rw [distance, distance?, hsome]
    rfl
  have hleast : IsDistance a b entry := isLeast_script_of_isLeast_aligned haligned
  rw [hdistance]
  constructor
  · intro h
    exact h.unique hleast
  · rintro rfl
    exact hleast

/-- The name is another one than what was typed, and it is at this distance, which is at most two. -/
structure MayBeOffered (typed name : String) (n : Nat) : Prop where
  ne_typed : name ≠ typed
  isDistance : IsDistance typed name n
  le_two : n ≤ 2

theorem mem_candidates_iff {typed name : String} {names : List String} {n : Nat} :
    ⟨n, name⟩ ∈ candidates typed names ↔ name ∈ names ∧ MayBeOffered typed name n := by
  rw [mem_candidates]
  constructor
  · rintro ⟨hname, hne, hdistance, hclose⟩
    exact ⟨hname, hne, isDistance_iff.mpr hdistance, hclose⟩
  · rintro ⟨hname, hoffered⟩
    exact ⟨hname, hoffered.ne_typed, isDistance_iff.mp hoffered.isDistance, hoffered.le_two⟩

theorem Candidate.precedes_eq_false_iff {a b : Candidate} :
    a.precedes b = false ↔ b.distance < a.distance ∨
      (b.distance = a.distance ∧ ¬Text.bytes a.name < Text.bytes b.name) := by
  rw [← Bool.not_eq_true, precedes_iff, Text.bytes_lt_iff]
  by_cases hname : a.name < b.name <;> simp [hname] <;> omega

theorem closest?_eq_none_iff {typed : String} {names : List String} :
    closest? typed names = none ↔ candidates typed names = [] := by
  rw [closest?, Option.map_eq_none_iff]
  rcases foldl_better (candidates typed names) with ⟨hnil, hnone⟩ | ⟨best, hbest, hsome⟩
  · exact iff_of_true hnone hnil
  · exact iff_of_false (by simp [hsome]) (List.ne_nil_of_mem hbest.mem)

theorem closest?_eq_some_iff_exists {typed name : String} {names : List String} :
    closest? typed names = some name ↔ ∃ n, Foremost (candidates typed names) ⟨n, name⟩ := by
  rw [closest?_eq_some_iff]
  constructor
  · intro h
    exact ⟨_, h⟩
  · rintro ⟨n, h⟩
    obtain ⟨-, hoffered⟩ := mem_candidates_iff.mp h.mem
    rwa [← isDistance_iff.mp hoffered.isDistance]

/-- **Which name is the hint.** There is none exactly if every known name is the one that was typed or takes more
than two changes. Otherwise it is a known name that is not the one typed and takes at most two changes, and every
other such name takes more changes, or as many and does not come before it in byte order. Neither the order of
the known names nor repetitions among them make a difference. -/
theorem closest?_picks_foremost (typed : String) (names : List String) :
    (closest? typed names = none ↔
      ∀ name ∈ names, name = typed ∨ ∃ n, IsDistance typed name n ∧ 2 < n) ∧
    (∀ name, closest? typed names = some name ↔
      name ∈ names ∧ ∃ n, MayBeOffered typed name n ∧
        ∀ other ∈ names, ∀ m, MayBeOffered typed other m →
          n < m ∨ (n = m ∧ ¬Text.bytes other < Text.bytes name)) ∧
    (∀ names', (∀ name, name ∈ names' ↔ name ∈ names) → closest? typed names' = closest? typed names) := by
  refine ⟨?_, fun name => ?_, fun names' hsame => closest?_congr typed hsame⟩
  · rw [closest?_eq_none_iff, List.eq_nil_iff_forall_not_mem]
    constructor
    · intro hnone name hname
      by_cases heq : name = typed
      · exact Or.inl heq
      · refine Or.inr ⟨_, isDistance_iff.mpr rfl, Nat.lt_of_not_le fun hclose => ?_⟩
        exact hnone _ (mem_candidates_iff.mpr ⟨hname, heq, isDistance_iff.mpr rfl, hclose⟩)
    · rintro hfar ⟨n, name⟩ hmem
      obtain ⟨hname, hoffered⟩ := mem_candidates_iff.mp hmem
      rcases hfar name hname with heq | ⟨m, hm, hmore⟩
      · exact hoffered.ne_typed heq
      · have hsame : n = m := hoffered.isDistance.unique hm
        have hclose := hoffered.le_two
        omega
  · rw [closest?_eq_some_iff_exists]
    constructor
    · rintro ⟨n, hforemost⟩
      obtain ⟨hname, hoffered⟩ := mem_candidates_iff.mp hforemost.mem
      refine ⟨hname, n, hoffered, fun other hother m hm => ?_⟩
      have hmem := mem_candidates_iff.mpr ⟨hother, hm⟩
      exact Candidate.precedes_eq_false_iff.mp (hforemost.not_precedes _ hmem)
    · rintro ⟨hname, n, hoffered, hbest⟩
      refine ⟨n, mem_candidates_iff.mpr ⟨hname, hoffered⟩, fun ⟨m, other⟩ hmem => ?_⟩
      obtain ⟨hother, hm⟩ := mem_candidates_iff.mp hmem
      exact Candidate.precedes_eq_false_iff.mpr (hbest other hother m hm)

/-- Of two names at the same distance the hint is the first in byte order, wherever it stands. -/
example : closest? "hel" ["help", "hel", "heal", "help"] = some "heal" := by decide +kernel

end CommandConsole.Spelling
