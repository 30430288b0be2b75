import CommandConsole.Spelling.Hint
import Mathlib.Data.List.Induction

/-!
# Which name is the hint

Candidates for a hint stand in one order, by their distance and then by the bytes of their names. The scan
keeps the foremost candidate that it has met. There is only one, so neither the order of the names nor
repetitions among them make a difference.

## Main definitions

- `Spelling.Foremost` — a candidate of a list in front of which none of the list comes

## Main statements

- `Spelling.Foremost.better` — one step of the scan keeps the foremost candidate
- `Spelling.closest?_eq_some_iff` — the hint is the foremost name among those that may be offered
- `Spelling.closest?_congr` — lists of the same names have the same hint
-/

namespace CommandConsole.Spelling

-- ════════════════════════════════════════════════════════════════════════
-- The order of candidates
-- ════════════════════════════════════════════════════════════════════════

theorem Candidate.precedes_iff (a b : Candidate) :
    a.precedes b = true ↔ a.distance < b.distance ∨ (a.distance = b.distance ∧ a.name < b.name) := by
  simp [precedes]

theorem Candidate.precedes_irrefl (a : Candidate) : a.precedes a = false := by
  rw [← Bool.not_eq_true, precedes_iff]
  rintro (hlt | ⟨-, hlt⟩)
  · exact Nat.lt_irrefl a.distance hlt
  · exact String.lt_irrefl a.name hlt

theorem Candidate.precedes_trans {a b c : Candidate} (hab : a.precedes b = true)
    (hbc : b.precedes c = true) : a.precedes c = true := by
  rw [precedes_iff] at hab hbc ⊢
  rcases hab with hab | ⟨hab, hname⟩
  · left
    omega
  · rcases hbc with hbc | ⟨hbc, hname'⟩
    · left
      omega
    · exact Or.inr ⟨hab.trans hbc, String.lt_trans hname hname'⟩

/-- Different candidates do not stand at the same place of the order. -/
theorem Candidate.eq_of_not_precedes {a b : Candidate} (hab : a.precedes b = false)
    (hba : b.precedes a = false) : a = b := by
  rw [← Bool.not_eq_true, precedes_iff] at hab hba
  have hdistance : a.distance = b.distance := by omega
  have hname : a.name = b.name := by
    rcases Std.lt_trichotomy a.name b.name with hlt | heq | hgt
    · exact absurd (Or.inr ⟨hdistance, hlt⟩) hab
    · exact heq
    · exact absurd (Or.inr ⟨hdistance.symm, hgt⟩) hba
  cases a
  cases b
  exact congr (congrArg Candidate.mk hdistance) hname

-- ════════════════════════════════════════════════════════════════════════
-- The scan
-- ════════════════════════════════════════════════════════════════════════

/-- No candidate of the list comes before this one of the list. -/
structure Foremost (all : List Candidate) (best : Candidate) : Prop where
  mem : best ∈ all
  not_precedes : ∀ other ∈ all, other.precedes best = false

/-- A list has one foremost candidate. -/
theorem Foremost.unique {all : List Candidate} {best best' : Candidate} (h : Foremost all best)
    (h' : Foremost all best') : best = best' :=
  Candidate.eq_of_not_precedes (h'.not_precedes best h.mem) (h.not_precedes best' h'.mem)

theorem Foremost.congr {all all' : List Candidate} {best : Candidate} (h : Foremost all best)
    (hsame : ∀ candidate, candidate ∈ all ↔ candidate ∈ all') : Foremost all' best :=
  ⟨(hsame best).mp h.mem, fun other hother => h.not_precedes other ((hsame other).mpr hother)⟩

/-- One step of the scan keeps the foremost candidate. -/
theorem Foremost.better {all : List Candidate} {best : Candidate} (h : Foremost all best)
    (next : Candidate) :
    Foremost (all ++ [next]) (if next.precedes best then next else best) := by
  split
  · rename_i hnext
    refine ⟨by simp, fun other hother => ?_⟩
    rcases List.mem_append.mp hother with hall | hlast
    · -- what came before `next` would come before the best one so far, too
      refine Bool.eq_false_iff.mpr fun hprecedes => ?_
      have hbest := Candidate.precedes_trans hprecedes hnext
      rw [h.not_precedes other hall] at hbest
      cases hbest
    · rw [List.mem_singleton.mp hlast]
      exact next.precedes_irrefl
  · rename_i hnext
    refine ⟨List.mem_append_left [next] h.mem, fun other hother => ?_⟩
    rcases List.mem_append.mp hother with hall | hlast
    · exact h.not_precedes other hall
    · rw [List.mem_singleton.mp hlast]
      exact Bool.eq_false_iff.mpr hnext

/-- The scan finds the foremost candidate, if there are any candidates. -/
theorem foldl_better (all : List Candidate) :
    (all = [] ∧ all.foldl Candidate.better none = none) ∨
      ∃ best, Foremost all best ∧ all.foldl Candidate.better none = some best := by
  induction all using List.reverseRecOn with
  | nil => exact Or.inl ⟨rfl, rfl⟩
  | append_singleton all next ih =>
    right
    rw [List.foldl_append, List.foldl_cons, List.foldl_nil]
    rcases ih with ⟨rfl, hnone⟩ | ⟨best, hbest, hsome⟩
    · refine ⟨next, ⟨by simp, fun other hother => ?_⟩, by rw [hnone]; rfl⟩
      rw [List.mem_singleton.mp hother]
      exact next.precedes_irrefl
    · exact ⟨_, hbest.better next, by rw [hsome]; rfl⟩

theorem foldl_better_eq_some_iff (all : List Candidate) (best : Candidate) :
    all.foldl Candidate.better none = some best ↔ Foremost all best := by
  rcases foldl_better all with ⟨rfl, hnone⟩ | ⟨found, hfound, hsome⟩
  · rw [hnone]
    exact iff_of_false nofun fun h => List.not_mem_nil h.mem
  · rw [hsome, Option.some.injEq]
    exact ⟨fun heq => heq ▸ hfound, hfound.unique⟩

-- ════════════════════════════════════════════════════════════════════════
-- The hint
-- ════════════════════════════════════════════════════════════════════════

theorem mem_candidates (typed : String) (names : List String) (candidate : Candidate) :
    candidate ∈ candidates typed names ↔
      candidate.name ∈ names ∧ candidate.name ≠ typed ∧
        candidate.distance = distance typed candidate.name ∧
        candidate.distance ≤ maxHintDistance := by
  simp only [candidates, List.mem_filter, List.mem_map, decide_eq_true_eq]
  constructor
  · rintro ⟨⟨name, ⟨hname, hne⟩, rfl⟩, hclose⟩
    exact ⟨hname, hne, rfl, hclose⟩
  · rintro ⟨hname, hne, hdistance, hclose⟩
    refine ⟨⟨candidate.name, ⟨hname, hne⟩, ?_⟩, hclose⟩
    rw [← hdistance]

/-- **The hint is the foremost name among those that may be offered.** -/
theorem closest?_eq_some_iff (typed : String) (names : List String) (name : String) :
    closest? typed names = some name ↔
      Foremost (candidates typed names) ⟨distance typed name, name⟩ := by
  rw [closest?, Option.map_eq_some_iff]
  constructor
  · rintro ⟨best, hbest, rfl⟩
    rw [foldl_better_eq_some_iff] at hbest
    have hdistance := ((mem_candidates typed names best).mp hbest.mem).2.2.1
    rwa [← hdistance]
  · intro h
    exact ⟨_, (foldl_better_eq_some_iff _ _).mpr h, rfl⟩

/-- Lists of the same names have the same hint, whatever the order of the names and however often they
occur. -/
theorem closest?_congr (typed : String) {names names' : List String}
    (h : ∀ name, name ∈ names ↔ name ∈ names') : closest? typed names = closest? typed names' := by
  have hcandidates : ∀ candidate,
      candidate ∈ candidates typed names ↔ candidate ∈ candidates typed names' := by
    intro candidate
    rw [mem_candidates, mem_candidates, h]
  refine Option.ext fun name => ?_
  rw [closest?_eq_some_iff, closest?_eq_some_iff]
  exact ⟨fun h => h.congr hcandidates, fun h => h.congr fun candidate => (hcandidates candidate).symm⟩

end CommandConsole.Spelling
