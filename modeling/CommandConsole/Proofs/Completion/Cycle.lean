import CommandConsole.Completion.Cycle
import CommandConsole.Proofs.Completion.Suggestions
import Mathlib.Data.List.Rotate

/-!
# Going round the suggestions

Once the suggestions for an input have been computed, every further call that repeats the input, or hands
back the suggestion given last, gives the next of them, and after the last one the first. What has become
of the registry plays no part in this.

## Main definitions

- `Completion.run` — what a sequence of calls gives
- `Completion.GoesOn` — every call repeats the input or hands back the suggestion given last
- `Completion.turned`, `Completion.given` — the state and the suggestion after some number of calls

## Main statements

- `Completion.complete_turned` — one call that goes on turns by one place
- `Completion.run_goes_round` — what a sequence of calls that go on gives
-/

namespace CommandConsole.Completion

variable {κ : Type}

/-- Complete one input after the other, each with the registry of its time. Tells what each call gave and
the state that it left. -/
def run (completion : Completion) : List (Registry κ × String) → List (String × Completion)
  | [] => []
  | (registry, input) :: calls =>
    let result := completion.complete registry input
    result :: result.2.run calls

/-- Every input is `typed`, or what the call before it gave. -/
def GoesOn (typed : String) (last : String × Completion) : List (Registry κ × String) → Prop
  | [] => True
  | (registry, input) :: calls =>
    (input = typed ∨ input = last.1) ∧ GoesOn typed (last.2.complete registry input) calls

section Turning

variable (typed : String) (candidates : List String)

/-- The suggestion of a place, counted round and round, or the input if there are no suggestions. -/
def given (k : Nat) : String := candidates[k % candidates.length]?.getD typed

/-- The state that is left by the call of a place. -/
def turned (k : Nat) : Completion :=
  { typed := some typed, candidates
    index := if candidates.isEmpty then 0 else k % candidates.length }

theorem current?_turned (k : Nat) :
    (turned typed candidates k).current? = candidates[k % candidates.length]? := by
  cases candidates with
  | nil => simp [current?, turned]
  | cons first rest => rfl

theorem selected?_turned (k : Nat) :
    (turned typed candidates k).selected? =
      if candidates.isEmpty then none else some (k % candidates.length) := by
  cases candidates <;> rfl

theorem advance_turned (k : Nat) :
    (turned typed candidates k).advance = turned typed candidates (k + 1) := by
  cases candidates with
  | nil => rfl
  | cons first rest =>
    simp only [advance, turned, List.isEmpty_cons, Bool.false_eq_true, if_false, Nat.mod_add_mod]

theorem isCycling_turned_iff (k : Nat) (input : String) :
    (turned typed candidates k).isCycling input = true ↔
      input = typed ∨ input = given typed candidates k := by
  have hcycling : (turned typed candidates k).isCycling input =
      (typed == input || (turned typed candidates k).current? == some input) := rfl
  rw [hcycling, current?_turned, Bool.or_eq_true, beq_iff_eq, beq_iff_eq]
  unfold given
  cases hat : candidates[k % candidates.length]? with
  | none =>
    -- without a suggestion the call before gave the input itself
    simp [eq_comm]
  | some current => simp [eq_comm]

/-- A call that goes on gives the suggestion of the next place. -/
theorem complete_turned (k : Nat) {input : String}
    (h : input = typed ∨ input = given typed candidates k) (registry : Registry κ) :
    (turned typed candidates k).complete registry input =
      (given typed candidates (k + 1), turned typed candidates (k + 1)) := by
  have hcycling := (isCycling_turned_iff typed candidates k input).mpr h
  simp only [complete, hcycling, if_true, advance_turned, current?_turned]
  refine Prod.ext ?_ rfl
  show candidates[(k + 1) % candidates.length]?.getD input = given typed candidates (k + 1)
  unfold given
  cases hat : candidates[(k + 1) % candidates.length]? with
  | some current => rfl
  | none =>
    have hempty : candidates = [] := by
      by_contra hne
      have hlt := Nat.mod_lt (k + 1) (List.length_pos_iff.mpr hne)
      rw [List.getElem?_eq_none_iff] at hat
      omega
    subst hempty
    simpa [given] using h

/-- Calls that go on give the suggestions of the places that follow. -/
theorem run_turned (k : Nat) {calls : List (Registry κ × String)}
    (h : GoesOn typed (given typed candidates k, turned typed candidates k) calls) :
    (turned typed candidates k).run calls =
      (List.range' (k + 1) calls.length).map fun j =>
        (given typed candidates j, turned typed candidates j) := by
  induction calls generalizing k with
  | nil => rfl
  | cons call calls ih =>
    obtain ⟨registry, input⟩ := call
    obtain ⟨hinput, hcalls⟩ := h
    have hstep := complete_turned typed candidates k hinput registry
    rw [hstep] at hcalls
    have hrest := ih (k + 1) hcalls
    rw [run, hstep, hrest, List.length_cons, List.range'_succ, List.map_cons]

/-- As many places in a row as there are suggestions hold each of them once. -/
theorem map_given_range' (i : Nat) :
    (List.range' i candidates.length).map (given typed candidates) = candidates.rotate i := by
  apply List.ext_getElem
  · simp
  · intro j hj hj'
    have hlength : j < candidates.length := by simpa using hj
    have hlt : (j + i) % candidates.length < candidates.length := Nat.mod_lt _ (by omega)
    rw [List.getElem_map, List.getElem_range', List.getElem_rotate, given, one_mul,
      Nat.add_comm i j, List.getElem?_eq_getElem hlt, Option.getD_some]

end Turning

/-- A call that does not go on starts over at the first one of its own suggestions. -/
theorem complete_of_not_isCycling {completion : Completion} {input : String}
    (h : completion.isCycling input = false) (registry : Registry κ) :
    completion.complete registry input =
      ((suggestions registry input)[0]?.getD input, start registry input) := by
  rw [complete, h]
  rfl

theorem start_eq_turned (registry : Registry κ) (input : String) :
    start registry input = turned input (suggestions registry input) 0 := by
  simp [start, turned]

theorem given_zero (typed : String) (candidates : List String) :
    given typed candidates 0 = candidates[0]?.getD typed := by
  rw [given, Nat.zero_mod]

/-- **Calls that go on go round the suggestions.** Let a call compute the suggestions for an input, in any
state, and let every further call repeat the input or hand back what the call before it gave, with whatever
registry. Call number `k`, the first one being number 0, gives the suggestion at the place `k` modulo their
number, which is then selected, so that as many calls in a row as there are suggestions give each of them
once, and these are all different. Without suggestions every call gives the input and nothing is selected.
Any other input, and every input after a reset, starts over at the first one of its own suggestions. -/
theorem run_goes_round (completion : Completion) {registry : Registry κ} (hreach : registry.Reachable)
    (input : String) (hstarts : completion.isCycling input = false)
    (calls : List (Registry κ × String))
    (hgoes : GoesOn input (completion.complete registry input) calls) :
    let candidates := suggestions registry input
    let results := completion.run ((registry, input) :: calls)
    (candidates ≠ [] → ∀ k ≤ calls.length, ∃ result, results[k]? = some result ∧
      candidates[k % candidates.length]? = some result.1 ∧
      result.2.selected? = some (k % candidates.length)) ∧
    (∀ i, i + candidates.length ≤ results.length →
      (((results.drop i).take candidates.length).map (·.1)).Perm candidates ∧
      (((results.drop i).take candidates.length).map (·.1)).Nodup) ∧
    (candidates = [] → ∀ result ∈ results, result.1 = input ∧ result.2.selected? = none) ∧
    (∀ last ∈ results.getLast?, ∀ (registry' : Registry κ) (input' : String),
      (input' ≠ input → input' ≠ last.1 →
        last.2.complete registry' input' =
          ((suggestions registry' input')[0]?.getD input', start registry' input')) ∧
      last.2.reset.complete registry' input' =
        ((suggestions registry' input')[0]?.getD input', start registry' input')) := by
  intro candidates results
  have hfirst : completion.complete registry input =
      (given input candidates 0, turned input candidates 0) := by
    rw [complete_of_not_isCycling hstarts, start_eq_turned, given_zero]
  have hresults : results = (List.range' 0 (calls.length + 1)).map fun k =>
      (given input candidates k, turned input candidates k) := by
    rw [hfirst] at hgoes
    have hrest := run_turned input candidates 0 hgoes
    show completion.complete registry input :: (completion.complete registry input).2.run calls = _
    rw [hfirst, hrest, List.range'_succ, List.map_cons]
  have hlength : results.length = calls.length + 1 := by simp [hresults]
  refine ⟨?_, ?_, ?_, ?_⟩
  · intro hne k hk
    have hlt : k % candidates.length < candidates.length :=
      Nat.mod_lt _ (List.length_pos_iff.mpr hne)
    have hat : results[k]? = some (given input candidates k, turned input candidates k) := by
      rw [hresults, List.getElem?_map, List.getElem?_range' (by omega)]
      simp
    refine ⟨_, hat, ?_, ?_⟩
    · simp [given, List.getElem?_eq_getElem hlt]
    · simp [selected?_turned, hne]
  · intro i hi
    have hwindow : ((results.drop i).take candidates.length).map (·.1) = candidates.rotate i := by
      rw [hlength] at hi
      rw [← map_given_range' input candidates i, hresults, ← List.map_drop, ← List.map_take,
        List.map_map, List.drop_range', List.take_range'_of_length_ge (by omega)]
      simp [Function.comp_def]
    rw [hwindow]
    exact ⟨List.rotate_perm candidates i,
      List.nodup_rotate.mpr (suggestions_nodup hreach.sound input)⟩
  · intro hempty result hresult
    rw [hresults] at hresult
    obtain ⟨k, -, rfl⟩ := List.mem_map.mp hresult
    simp [given, selected?_turned, hempty]
  · intro last hlast registry' input'
    refine ⟨?_, complete_of_not_isCycling rfl registry'⟩
    intro hinput hgiven
    have hmem : last ∈ results := List.mem_of_getLast? hlast
    rw [hresults] at hmem
    obtain ⟨k, -, rfl⟩ := List.mem_map.mp hmem
    refine complete_of_not_isCycling ?_ registry'
    rw [← Bool.not_eq_true, isCycling_turned_iff]
    exact not_or.mpr ⟨hinput, hgiven⟩

/-- Two commands that start with "he" take turns, although the registry is empty from the third call on. -/
theorem goes_round_heal_help : ∃ registry : Registry Unit, registry.Reachable ∧
    suggestions registry "he" = ["heal", "help"] ∧
    ∀ k ≤ 2, ∃ result,
      (empty.run [(registry, "he"), (registry, "heal"), (.empty, "he")])[k]? = some result ∧
      ["heal", "help"][k % 2]? = some result.1 ∧ result.2.selected? = some (k % 2) := by
  let changes : List (Registry.Change Unit) :=
    [.register ⟨{ name := "help" }, ()⟩, .register ⟨{ name := "heal" }, ()⟩]
  let registry := Registry.after changes
  have hreach : registry.Reachable := ⟨changes, rfl⟩
  have hsuggested : suggestions registry "he" = ["heal", "help"] := by decide +kernel
  have hgoes : GoesOn "he" (empty.complete registry "he") [(registry, "heal"), (.empty, "he")] :=
    ⟨Or.inr (by decide +kernel), Or.inl rfl, trivial⟩
  obtain ⟨hgiven, -⟩ := run_goes_round empty hreach "he" rfl _ hgoes
  rw [hsuggested] at hgiven
  exact ⟨registry, hreach, hsuggested, hgiven (by simp)⟩

end CommandConsole.Completion
