import Mathlib.Data.List.InsertIdx
import Mathlib.Order.Bounds.Basic
import Mathlib.Order.MinMax

/-!
# Scripts and alignments

A script turns one list into another by insertions, deletions and replacements of single elements, made one
after the other at any places. An alignment goes through both lists once, from left to right, and charges for
what does not match. Each alignment can be carried out by a script that is as long as it charges, and no
script is shorter than the alignments of its two ends, although it may go back and forth.

## Main definitions

- `Spelling.Change`, `Spelling.rewrite?` — one change of a list, and many
- `Spelling.Aligned` — what an alignment of two lists charges

## Main statements

- `Spelling.Aligned.exists_script` — an alignment is carried out by a script
- `Spelling.exists_aligned_of_rewrite?` — a script is at least as long as an alignment charges
- `Spelling.isLeast_aligned_concat` — the least charge for two lists from those without their last elements
-/

namespace CommandConsole.Spelling

variable {α : Type} {xs ys zs : List α} {n : Nat}

/-- An insertion, a deletion or a replacement of one element. -/
inductive Change (α : Type) where
  /-- Insert an element in front of the one at `place`, or at the end. -/
  | insert (place : Nat) (new : α)
  | delete (place : Nat)
  | replace (place : Nat) (new : α)
  deriving DecidableEq, Repr

/-- Make a change, if the list has its place. -/
def Change.edited? (list : List α) : Change α → Option (List α)
  | insert place new => if place ≤ list.length then some (list.insertIdx place new) else none
  | delete place => if place < list.length then some (list.eraseIdx place) else none
  | replace place new => if place < list.length then some (list.set place new) else none

/-- Make the changes of a script one after the other. -/
def rewrite? (list : List α) (script : List (Change α)) : Option (List α) :=
  script.foldlM Change.edited? list

theorem rewrite?_cons (list : List α) (first : Change α) (script : List (Change α)) :
    rewrite? list (first :: script) = (first.edited? list).bind (rewrite? · script) := rfl

-- ════════════════════════════════════════════════════════════════════════
-- Changes behind the first element
-- ════════════════════════════════════════════════════════════════════════

/-- The change one place further to the right. -/
def Change.shift : Change α → Change α
  | insert place new => insert (place + 1) new
  | delete place => delete (place + 1)
  | replace place new => replace (place + 1) new

theorem Change.edited?_shift (x : α) (list : List α) (change : Change α) :
    change.shift.edited? (x :: list) = (change.edited? list).map (x :: ·) := by
  cases change with
  | insert | delete | replace =>
    simp only [shift, edited?, List.length_cons, Nat.add_le_add_iff_right, Nat.add_lt_add_iff_right]
    split <;> rfl

theorem rewrite?_shift (x : α) (list : List α) (script : List (Change α)) :
    rewrite? (x :: list) (script.map Change.shift) = (rewrite? list script).map (x :: ·) := by
  induction script generalizing list with
  | nil => rfl
  | cons first script ih =>
    rw [List.map_cons, rewrite?_cons, rewrite?_cons, Change.edited?_shift]
    cases first.edited? list with
    | none => rfl
    | some changed => exact ih changed

/-- A change leaves what is in front of its place and what is behind it. -/
theorem Change.edited?_cases {change : Change α} (h : change.edited? xs = some ys) :
    ∃ before after, (∃ y, xs = before ++ after ∧ ys = before ++ y :: after) ∨
      (∃ x, xs = before ++ x :: after ∧ ys = before ++ after) ∨
      ∃ x y, xs = before ++ x :: after ∧ ys = before ++ y :: after := by
  have hsplit {list : List α} {place : Nat} (hplace : place < list.length) :
      list = list.take place ++ list[place] :: list.drop (place + 1) := by
    rw [List.getElem_cons_drop, List.take_append_drop]
  cases change with
  | insert place new =>
    simp only [edited?, Option.ite_none_right_eq_some, Option.some.injEq] at h
    obtain ⟨hplace, rfl⟩ := h
    have hlt : place < (xs.insertIdx place new).length := by
      rw [List.length_insertIdx_of_le_length hplace]
      omega
    refine ⟨(xs.insertIdx place new).take place, (xs.insertIdx place new).drop (place + 1),
      Or.inl ⟨new, ?_, ?_⟩⟩
    · rw [← List.eraseIdx_eq_take_drop_succ, List.eraseIdx_insertIdx_self]
    · conv_lhs => rw [hsplit hlt, List.getElem_insertIdx_self]
  | delete place =>
    simp only [edited?, Option.ite_none_right_eq_some, Option.some.injEq] at h
    obtain ⟨hplace, rfl⟩ := h
    exact ⟨xs.take place, xs.drop (place + 1), Or.inr (Or.inl ⟨xs[place], hsplit hplace,
      List.eraseIdx_eq_take_drop_succ xs place⟩)⟩
  | replace place new =>
    simp only [edited?, Option.ite_none_right_eq_some, Option.some.injEq] at h
    obtain ⟨hplace, rfl⟩ := h
    refine ⟨xs.take place, xs.drop (place + 1), Or.inr (Or.inr ⟨xs[place], new, hsplit hplace, ?_⟩)⟩
    rw [List.set_eq_take_append_cons_drop, if_pos hplace]

-- ════════════════════════════════════════════════════════════════════════
-- Alignments
-- ════════════════════════════════════════════════════════════════════════

section Aligned

variable [DecidableEq α]

/-- An alignment of two lists, with what it charges: one for each element that stands alone, and one for each
pair of different elements. -/
inductive Aligned : List α → List α → Nat → Prop where
  | nil : Aligned [] [] 0
  | pair (x y : α) {xs ys : List α} {n : Nat} (h : Aligned xs ys n) :
    Aligned (x :: xs) (y :: ys) (n + if x = y then 0 else 1)
  | insert (y : α) {xs ys : List α} {n : Nat} (h : Aligned xs ys n) : Aligned xs (y :: ys) (n + 1)
  | delete (x : α) {xs ys : List α} {n : Nat} (h : Aligned xs ys n) : Aligned (x :: xs) ys (n + 1)

theorem Aligned.refl (xs : List α) : Aligned xs xs 0 := by
  induction xs with
  | nil => exact Aligned.nil
  | cons x xs ih =>
    have hpair := Aligned.pair x x ih
    rwa [if_pos rfl] at hpair

theorem Aligned.append {xs' ys' : List α} {n' : Nat} (h : Aligned xs ys n) (h' : Aligned xs' ys' n') :
    Aligned (xs ++ xs') (ys ++ ys') (n + n') := by
  induction h with
  | nil => rwa [Nat.zero_add]
  | pair x y h ih =>
    rw [Nat.add_right_comm]
    exact Aligned.pair x y ih
  | insert y h ih =>
    rw [Nat.add_right_comm]
    exact Aligned.insert y ih
  | delete x h ih =>
    rw [Nat.add_right_comm]
    exact Aligned.delete x ih

theorem Aligned.pair_single (x y : α) : Aligned [x] [y] (if x = y then 0 else 1) := by
  have hpair := Aligned.pair x y Aligned.nil
  rwa [Nat.zero_add] at hpair

theorem Aligned.concat_pair (x y : α) (h : Aligned xs ys n) :
    Aligned (xs ++ [x]) (ys ++ [y]) (n + if x = y then 0 else 1) :=
  h.append (Aligned.pair_single x y)

theorem Aligned.concat_insert (y : α) (h : Aligned xs ys n) : Aligned xs (ys ++ [y]) (n + 1) := by
  have hboth := h.append (Aligned.insert y Aligned.nil)
  rwa [List.append_nil] at hboth

theorem Aligned.concat_delete (x : α) (h : Aligned xs ys n) : Aligned (xs ++ [x]) ys (n + 1) := by
  have hboth := h.append (Aligned.delete x Aligned.nil)
  rwa [List.append_nil] at hboth

/-- An alignment can be read from right to left. -/
theorem Aligned.reverse (h : Aligned xs ys n) : Aligned xs.reverse ys.reverse n := by
  induction h with
  | nil => exact Aligned.nil
  | pair x y h ih =>
    rw [List.reverse_cons, List.reverse_cons]
    exact ih.concat_pair x y
  | insert y h ih =>
    rw [List.reverse_cons]
    exact ih.concat_insert y
  | delete x h ih =>
    rw [List.reverse_cons]
    exact ih.concat_delete x

theorem aligned_reverse_iff : Aligned xs.reverse ys.reverse n ↔ Aligned xs ys n := by
  constructor
  · intro h
    simpa using h.reverse
  · exact Aligned.reverse

theorem Aligned.length_le (h : Aligned xs ys n) : xs.length ≤ ys.length + n ∧ ys.length ≤ xs.length + n := by
  induction h with
  | nil => simp
  | pair x y h ih =>
    simp only [List.length_cons]
    omega
  | insert y h ih =>
    simp only [List.length_cons]
    omega
  | delete x h ih =>
    simp only [List.length_cons]
    omega

/-- An alignment is cut where the first list is. -/
theorem Aligned.split {before after : List α} (h : Aligned (before ++ after) ys n) :
    ∃ ys₁ ys₂ n₁ n₂, ys = ys₁ ++ ys₂ ∧ n = n₁ + n₂ ∧ Aligned before ys₁ n₁ ∧ Aligned after ys₂ n₂ := by
  generalize hxs : before ++ after = xs at h
  induction h generalizing before with
  | nil =>
    obtain ⟨rfl, rfl⟩ := List.append_eq_nil_iff.mp hxs
    exact ⟨[], [], 0, 0, rfl, rfl, Aligned.nil, Aligned.nil⟩
  | @pair x y xs ys n h ih =>
    cases before with
    | nil =>
      obtain rfl : after = x :: xs := hxs
      exact ⟨[], y :: ys, 0, _, rfl, (Nat.zero_add _).symm, Aligned.nil, Aligned.pair x y h⟩
    | cons b before =>
      obtain ⟨rfl, hrest⟩ := List.cons.inj hxs
      obtain ⟨ys₁, ys₂, n₁, n₂, rfl, rfl, h₁, h₂⟩ := ih hrest
      exact ⟨y :: ys₁, ys₂, _, n₂, rfl, Nat.add_right_comm _ _ _, Aligned.pair b y h₁, h₂⟩
  | @insert y xs ys n h ih =>
    obtain ⟨ys₁, ys₂, n₁, n₂, rfl, rfl, h₁, h₂⟩ := ih hxs
    exact ⟨y :: ys₁, ys₂, n₁ + 1, n₂, rfl, Nat.add_right_comm _ _ _, Aligned.insert y h₁, h₂⟩
  | @delete x xs ys n h ih =>
    cases before with
    | nil =>
      obtain rfl : after = x :: xs := hxs
      exact ⟨[], ys, 0, _, rfl, (Nat.zero_add _).symm, Aligned.nil, Aligned.delete x h⟩
    | cons b before =>
      obtain ⟨rfl, hrest⟩ := List.cons.inj hxs
      obtain ⟨ys₁, ys₂, n₁, n₂, rfl, rfl, h₁, h₂⟩ := ih hrest
      exact ⟨ys₁, ys₂, n₁ + 1, n₂, rfl, Nat.add_right_comm _ _ _, Aligned.delete b h₁, h₂⟩

-- ════════════════════════════════════════════════════════════════════════
-- Scripts
-- ════════════════════════════════════════════════════════════════════════

/-- An alignment is carried out by a script, one change for each element that is charged for. -/
theorem Aligned.exists_script (h : Aligned xs ys n) :
    ∃ script, script.length = n ∧ rewrite? xs script = some ys := by
  induction h with
  | nil => exact ⟨[], rfl, rfl⟩
  | pair x y h ih =>
    obtain ⟨script, rfl, hscript⟩ := ih
    by_cases hsame : x = y
    · subst hsame
      refine ⟨script.map Change.shift, by simp, ?_⟩
      rw [rewrite?_shift, hscript]
      rfl
    · refine ⟨.replace 0 y :: script.map Change.shift, by simp [hsame], ?_⟩
      rw [rewrite?_cons]
      show rewrite? (y :: _) (script.map Change.shift) = _
      rw [rewrite?_shift, hscript]
      rfl
  | insert y h ih =>
    obtain ⟨script, rfl, hscript⟩ := ih
    refine ⟨.insert 0 y :: script.map Change.shift, by simp, ?_⟩
    rw [rewrite?_cons]
    show rewrite? (y :: _) (script.map Change.shift) = _
    rw [rewrite?_shift, hscript]
    rfl
  | delete x h ih =>
    obtain ⟨script, rfl, hscript⟩ := ih
    exact ⟨.delete 0 :: script, rfl, hscript⟩

/-- Without its first element a list is aligned for one more at most. -/
theorem Aligned.exists_tail {x : α} (h : Aligned (x :: xs) ys n) : ∃ m ≤ n + 1, Aligned xs ys m := by
  generalize hlist : x :: xs = list at h
  induction h with
  | nil => cases hlist
  | @pair x' y xs' ys n h ih =>
    obtain ⟨rfl, rfl⟩ := List.cons.inj hlist
    exact ⟨n + 1, by omega, Aligned.insert y h⟩
  | insert y h ih =>
    obtain ⟨m, hm, haligned⟩ := ih hlist
    exact ⟨m + 1, by omega, Aligned.insert y haligned⟩
  | @delete x' xs' ys n h ih =>
    obtain ⟨rfl, rfl⟩ := List.cons.inj hlist
    exact ⟨n, by omega, h⟩

/-- With another first element a list is aligned for one more at most. -/
theorem Aligned.exists_head (x' : α) {x : α} (h : Aligned (x :: xs) ys n) :
    ∃ m ≤ n + 1, Aligned (x' :: xs) ys m := by
  generalize hlist : x :: xs = list at h
  induction h with
  | nil => cases hlist
  | @pair x y xs' ys n h ih =>
    obtain ⟨rfl, rfl⟩ := List.cons.inj hlist
    refine ⟨_, ?_, Aligned.pair x' y h⟩
    split <;> omega
  | insert y h ih =>
    obtain ⟨m, hm, haligned⟩ := ih hlist
    exact ⟨m + 1, by omega, Aligned.insert y haligned⟩
  | @delete x xs' ys n h ih =>
    obtain ⟨rfl, rfl⟩ := List.cons.inj hlist
    exact ⟨n + 1, by omega, Aligned.delete x' h⟩

/-- One change adds at most one to what an alignment charges. -/
theorem Aligned.exists_before_change {change : Change α} (hchange : change.edited? xs = some zs)
    (h : Aligned zs ys n) : ∃ m ≤ n + 1, Aligned xs ys m := by
  obtain ⟨before, after, hcases⟩ := Change.edited?_cases hchange
  -- the part in front of the place is aligned as before
  have hjoin {rest rest' : List α} (hrest : ∀ {ys n}, Aligned rest ys n → ∃ m ≤ n + 1, Aligned rest' ys m)
      (hzs : Aligned (before ++ rest) ys n) : ∃ m ≤ n + 1, Aligned (before ++ rest') ys m := by
    obtain ⟨ys₁, ys₂, n₁, n₂, rfl, rfl, h₁, h₂⟩ := hzs.split
    obtain ⟨m, hm, haligned⟩ := hrest h₂
    exact ⟨n₁ + m, by omega, h₁.append haligned⟩
  rcases hcases with ⟨y, rfl, rfl⟩ | ⟨x, rfl, rfl⟩ | ⟨x, y, rfl, rfl⟩
  · exact hjoin Aligned.exists_tail h
  · exact hjoin (fun haligned => ⟨_, le_rfl, Aligned.delete x haligned⟩) h
  · exact hjoin (Aligned.exists_head x) h

/-- **A script is no shorter than an alignment charges**, wherever its changes are made. -/
theorem exists_aligned_of_rewrite? {script : List (Change α)} (h : rewrite? xs script = some ys) :
    ∃ n ≤ script.length, Aligned xs ys n := by
  induction script generalizing xs with
  | nil =>
    obtain rfl : xs = ys := Option.some.inj h
    exact ⟨0, le_rfl, Aligned.refl xs⟩
  | cons first script ih =>
    rw [rewrite?_cons, Option.bind_eq_some_iff] at h
    obtain ⟨zs, hfirst, hrest⟩ := h
    obtain ⟨n, hn, haligned⟩ := ih hrest
    obtain ⟨m, hm, haligned'⟩ := haligned.exists_before_change hfirst
    refine ⟨m, ?_, haligned'⟩
    rw [List.length_cons]
    omega

/-- The least charge is the least length of a script. -/
theorem isLeast_script_of_isLeast_aligned (h : IsLeast {n | Aligned xs ys n} n) :
    IsLeast {n | ∃ script, script.length = n ∧ rewrite? xs script = some ys} n := by
  obtain ⟨haligned, hle⟩ := h
  refine ⟨haligned.exists_script, ?_⟩
  rintro length ⟨script, rfl, hscript⟩
  obtain ⟨m, hm, haligned'⟩ := exists_aligned_of_rewrite? hscript
  exact (hle haligned').trans hm

-- ════════════════════════════════════════════════════════════════════════
-- The least charge
-- ════════════════════════════════════════════════════════════════════════

theorem isLeast_aligned_nil_left (ys : List α) : IsLeast {n | Aligned [] ys n} ys.length := by
  constructor
  · induction ys with
    | nil => exact Aligned.nil
    | cons y ys ih => exact Aligned.insert y ih
  · intro n h
    have hlength := Aligned.length_le h
    simpa using hlength.2

theorem isLeast_aligned_nil_right (xs : List α) : IsLeast {n | Aligned xs [] n} xs.length := by
  constructor
  · induction xs with
    | nil => exact Aligned.nil
    | cons x xs ih => exact Aligned.delete x ih
  · intro n h
    have hlength := Aligned.length_le h
    simpa using hlength.1

/-- The last elements of two lists are a pair, or one of them stands alone. -/
theorem Aligned.concat_cases {x y : α} (h : Aligned (xs ++ [x]) (ys ++ [y]) n) :
    (∃ m, Aligned xs ys m ∧ n = m + if x = y then 0 else 1) ∨
      (∃ m, Aligned (xs ++ [x]) ys m ∧ n = m + 1) ∨ ∃ m, Aligned xs (ys ++ [y]) m ∧ n = m + 1 := by
  have hreverse := h.reverse
  rw [List.reverse_concat, List.reverse_concat] at hreverse
  generalize hfirst : x :: xs.reverse = xs' at hreverse
  generalize hsecond : y :: ys.reverse = ys' at hreverse
  cases hreverse with
  | nil => cases hfirst
  | pair x' y' h =>
    obtain ⟨rfl, rfl⟩ := List.cons.inj hfirst
    obtain ⟨rfl, rfl⟩ := List.cons.inj hsecond
    exact Or.inl ⟨_, aligned_reverse_iff.mp h, rfl⟩
  | insert y' h =>
    obtain ⟨rfl, rfl⟩ := List.cons.inj hsecond
    subst hfirst
    rw [← List.reverse_concat] at h
    exact Or.inr (Or.inl ⟨_, aligned_reverse_iff.mp h, rfl⟩)
  | delete x' h =>
    obtain ⟨rfl, rfl⟩ := List.cons.inj hfirst
    subst hsecond
    rw [← List.reverse_concat] at h
    exact Or.inr (Or.inr ⟨_, aligned_reverse_iff.mp h, rfl⟩)

/-- **The least charge for two lists**, from those without the last element of the one, of the other, and of
both. -/
theorem isLeast_aligned_concat {x y : α} {up left corner : Nat}
    (hup : IsLeast {n | Aligned xs (ys ++ [y]) n} up) (hleft : IsLeast {n | Aligned (xs ++ [x]) ys n} left)
    (hcorner : IsLeast {n | Aligned xs ys n} corner) :
    IsLeast {n | Aligned (xs ++ [x]) (ys ++ [y]) n}
      (min (min (up + 1) (left + 1)) (corner + if x = y then 0 else 1)) := by
  constructor
  · show Aligned (xs ++ [x]) (ys ++ [y]) _
    rcases min_choice (min (up + 1) (left + 1)) (corner + if x = y then 0 else 1) with hmin | hmin
    · rw [hmin]
      rcases min_choice (up + 1) (left + 1) with hmin' | hmin'
      · rw [hmin']
        exact Aligned.concat_delete x hup.1
      · rw [hmin']
        exact Aligned.concat_insert y hleft.1
    · rw [hmin]
      exact Aligned.concat_pair x y hcorner.1
  · intro n h
    rcases Aligned.concat_cases h with ⟨m, hm, rfl⟩ | ⟨m, hm, rfl⟩ | ⟨m, hm, rfl⟩
    · have hle := hcorner.2 hm
      omega
    · have hle := hleft.2 hm
      omega
    · have hle := hup.2 hm
      omega

end Aligned

end CommandConsole.Spelling
