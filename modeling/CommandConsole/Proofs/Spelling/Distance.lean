import CommandConsole.Proofs.Spelling.Alignment
import CommandConsole.Spelling.Distance

/-!
# The table of distances

The entry of the table for two beginnings is the least number of changes that turn the one into the other. While
a row is filled, this holds of its entries up to the last one written. What stands behind it is left over from
the row before the last, and is not read before it is written.

## Main definitions

- `Spelling.Filled` — a row whose first entries are those of the table
- `Spelling.Filled.Between` — the rows are those that the loop is left with after some elements

## Main statements

- `Spelling.exists_foldlM_range'` — a loop whose steps have answers has one, and keeps its invariant
- `Spelling.Filled.exists_fillCell?` — one entry is filled
- `Spelling.Filled.exists_fillRow?` — a row is filled
- `Spelling.distance_isLeast` — the distance is the least length of a script
-/

namespace CommandConsole.Spelling

/-- A loop over `1` to `count` has an answer if each of its steps has one. What holds at the start and is kept
by the steps holds at the end. -/
theorem exists_foldlM_range' {σ : Type} {step : σ → Nat → Option σ} {I : Nat → σ → Prop} {count : Nat}
    {start : σ} (hstart : I 0 start)
    (hstep : ∀ k state, k < count → I k state → ∃ next, step state (k + 1) = some next ∧ I (k + 1) next) :
    ∃ final, (List.range' 1 count).foldlM step start = some final ∧ I count final := by
  induction count with
  | zero => exact ⟨start, rfl, hstart⟩
  | succ count ih =>
    obtain ⟨state, hstate, hinv⟩ := ih fun k state hk => hstep k state (by omega)
    obtain ⟨next, hnext, hinv'⟩ := hstep count state (by omega) hinv
    refine ⟨next, ?_, hinv'⟩
    rw [List.range'_1_concat, List.foldlM_append, hstate]
    show (step state (1 + count)).bind _ = _
    rw [Nat.add_comm, hnext]
    rfl

variable {α : Type} [DecidableEq α] {as bs : Array α} {i j count : Nat} {row above : Array Nat}

/-- The entry of the table for the first `i` elements of `as` and the first `j` of `bs`. -/
def IsEntry (as bs : Array α) (i j entry : Nat) : Prop :=
  IsLeast {n | Aligned (as.toList.take i) (bs.toList.take j) n} entry

/-- The first `count` entries of a row are those of the table for the first `i` elements of `as`. -/
structure Filled (as bs : Array α) (i count : Nat) (row : Array Nat) : Prop where
  size_eq : row.size = bs.size + 1
  isEntry : ∀ j < count, ∃ entry, row[j]? = some entry ∧ IsEntry as bs i j entry

-- ════════════════════════════════════════════════════════════════════════
-- Entries
-- ════════════════════════════════════════════════════════════════════════

theorem isEntry_zero_left (hj : j ≤ bs.size) : IsEntry as bs 0 j j := by
  have hleast := isLeast_aligned_nil_left (bs.toList.take j)
  rwa [List.length_take, Array.length_toList, Nat.min_eq_left hj] at hleast

theorem isEntry_zero_right (hi : i ≤ as.size) : IsEntry as bs i 0 i := by
  have hleast := isLeast_aligned_nil_right (as.toList.take i)
  rwa [List.length_take, Array.length_toList, Nat.min_eq_left hi] at hleast

/-- An entry from the one above it, the one to its left and the one in the corner. -/
theorem IsEntry.next {up left corner : Nat} (hi : i < as.size) (hj : j < bs.size)
    (hup : IsEntry as bs i (j + 1) up) (hleft : IsEntry as bs (i + 1) j left)
    (hcorner : IsEntry as bs i j corner) :
    IsEntry as bs (i + 1) (j + 1)
      (min (min (up + 1) (left + 1)) (corner + if as[i] = bs[j] then 0 else 1)) := by
  have htakeA : as.toList.take (i + 1) = as.toList.take i ++ [as[i]] :=
    List.take_succ_eq_append_getElem hi
  have htakeB : bs.toList.take (j + 1) = bs.toList.take j ++ [bs[j]] :=
    List.take_succ_eq_append_getElem hj
  rw [IsEntry, htakeB] at hup
  rw [IsEntry, htakeA] at hleft
  rw [IsEntry, htakeA, htakeB]
  exact isLeast_aligned_concat hup hleft hcorner

-- ════════════════════════════════════════════════════════════════════════
-- Rows
-- ════════════════════════════════════════════════════════════════════════

/-- Writing the entry behind the filled ones, wherever the rest of the row comes from. -/
theorem Filled.exists_store? {entry : Nat} (h : Filled as bs i count row) (hcount : count ≤ bs.size)
    (hentry : IsEntry as bs i count entry) :
    ∃ row', store? row count entry = some row' ∧ Filled as bs i (count + 1) row' := by
  have hlt : count < row.size := by
    rw [h.size_eq]
    omega
  refine ⟨row.set count entry hlt, dif_pos hlt, ?_, ?_⟩
  · rw [Array.size_set]
    exact h.size_eq
  · intro j hj
    by_cases hlast : j = count
    · subst hlast
      exact ⟨entry, Array.getElem?_set_self hlt, hentry⟩
    · obtain ⟨entry', hget, hentry'⟩ := h.isEntry j (by omega)
      refine ⟨entry', ?_, hentry'⟩
      rwa [Array.getElem?_set_ne hlt (Ne.symm hlast)]

/-- **One entry is filled** from entries that have been filled before. -/
theorem Filled.exists_fillCell? (habove : Filled as bs i (bs.size + 1) above)
    (h : Filled as bs (i + 1) (j + 1) row) (hi : i < as.size) (hj : j < bs.size) :
    ∃ row', fillCell? as bs (i + 1) above row (j + 1) = some row' ∧ Filled as bs (i + 1) (j + 2) row' := by
  obtain ⟨up, hgetUp, hup⟩ := habove.isEntry (j + 1) (by omega)
  obtain ⟨corner, hgetCorner, hcorner⟩ := habove.isEntry j (by omega)
  obtain ⟨left, hgetLeft, hleft⟩ := h.isEntry j (by omega)
  have hcell : cell? as bs (i + 1) above row (j + 1) =
      some (min (min (up + 1) (left + 1)) (corner + if as[i] = bs[j] then 0 else 1)) := by
    simp [cell?, hi, hj, hgetUp, hgetCorner, hgetLeft]
  have hstore := h.exists_store? (by omega) (hup.next hi hj hleft hcorner)
  rwa [fillCell?, hcell]

/-- The rows of the loop behind the first `i` elements of `as`. -/
structure Filled.Between (as bs : Array α) (i : Nat) (rows : Rows) : Prop where
  above : Filled as bs i (bs.size + 1) rows.above
  size_spare : rows.spare.size = bs.size + 1

theorem Filled.Between.first (as bs : Array α) : Filled.Between as bs 0 (firstRows bs) := by
  refine ⟨⟨by simp [firstRows], ?_⟩, by simp [firstRows]⟩
  intro j hj
  exact ⟨j, by simp [firstRows, hj], isEntry_zero_left (by omega)⟩

/-- **A row is filled** in the place of the one before the last. -/
theorem Filled.exists_fillRow? {rows : Rows} (h : Filled.Between as bs i rows) (hi : i < as.size) :
    ∃ rows', fillRow? as bs rows (i + 1) = some rows' ∧ Filled.Between as bs (i + 1) rows' := by
  have hnone : Filled as bs (i + 1) 0 rows.spare := ⟨h.size_spare, by omega⟩
  obtain ⟨begun, hbegun, hfirst⟩ := hnone.exists_store? (Nat.zero_le _) (isEntry_zero_right hi)
  obtain ⟨row, hrow, hfilled⟩ := exists_foldlM_range' (I := fun j => Filled as bs (i + 1) (j + 1))
    hfirst fun j row hj hfilled => h.above.exists_fillCell? hfilled hi hj
  refine ⟨⟨row, rows.above⟩, ?_, hfilled, h.above.size_eq⟩
  simp only [fillRow?, hbegun, Option.bind_eq_bind, Option.bind_some, hrow]
  rfl

theorem exists_distanceBetween? (as bs : Array α) :
    ∃ entry, distanceBetween? as bs = some entry ∧ IsEntry as bs as.size bs.size entry := by
  obtain ⟨rows, hrows, hfinal⟩ := exists_foldlM_range' (I := Filled.Between as bs)
    (Filled.Between.first as bs) fun i rows hi h => Filled.exists_fillRow? h hi
  obtain ⟨entry, hget, hentry⟩ := hfinal.above.isEntry bs.size (by omega)
  refine ⟨entry, ?_, hentry⟩
  rw [distanceBetween?, hrows]
  exact hget

/-- **The distance is the least length of a script** that turns the bytes of the one text into those of the
other. On the way to it every index is in range. -/
theorem distance_isLeast (a b : String) :
    distance? a b = some (distance a b) ∧
      IsLeast {n | ∃ script : List (Change UInt8),
        script.length = n ∧ rewrite? (Text.bytes a) script = some (Text.bytes b)} (distance a b) := by
  obtain ⟨entry, hsome, hentry⟩ :=
    exists_distanceBetween? (Text.bytes a).toArray (Text.bytes b).toArray
  have hdistance : distance a b = entry := by
    show (distanceBetween? _ _).getD 0 = entry
    rw [hsome]
    rfl
  rw [hdistance]
  refine ⟨hsome, isLeast_script_of_isLeast_aligned ?_⟩
  simpa [IsEntry] using hentry

example : distance "kitten" "sitting" = 3 := by decide +kernel

end CommandConsole.Spelling
