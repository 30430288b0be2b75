import CommandConsole.Dictionary

/-!
# The keys of a dictionary

The items of a dictionary stand in strictly increasing order of their keys. Insertion and erasure keep
this order, so every key stands there once, and the keys are those that a look-up finds.

## Main definitions

- `Dictionary.Sorted` — the keys are in strictly increasing order

## Main statements

- `Dictionary.mem_keys` — the keys are those that have a value
- `Dictionary.Sorted.insert`, `Dictionary.Sorted.erase` — the order is kept
-/

namespace CommandConsole.Dictionary

variable {κ υ : Type} [DecidableEq κ]

theorem mem_map_fst_iff (k : κ) (items : List (κ × υ)) :
    k ∈ items.map (·.1) ↔ (findItem? k items).isSome := by
  induction items with
  | nil => simp [findItem?]
  | cons item rest ih =>
    obtain ⟨key, value⟩ := item
    by_cases hkey : key = k
    · simp [findItem?, hkey]
    · have hne : k ≠ key := fun h => hkey h.symm
      simp only [List.map_cons, List.mem_cons, findItem?, hkey, if_false, hne, false_or]
      exact ih

/-- The keys are those that have a value. -/
theorem mem_keys (d : Dictionary κ υ) (k : κ) : k ∈ d.keys ↔ (d.find? k).isSome :=
  mem_map_fst_iff k d.items

variable [LT κ]

/-- The keys of a dictionary are in strictly increasing order. -/
def Sorted (d : Dictionary κ υ) : Prop := d.keys.Pairwise (· < ·)

omit [DecidableEq κ] in
theorem Sorted.empty : (empty : Dictionary κ υ).Sorted := List.Pairwise.nil

omit [DecidableEq κ] in
theorem Sorted.nodup [Std.Irrefl fun a b : κ => a < b] {d : Dictionary κ υ} (h : d.Sorted) :
    d.keys.Nodup := by
  refine List.Pairwise.imp ?_ h
  rintro a b hab rfl
  exact Std.Irrefl.irrefl a hab

theorem Sorted.erase {d : Dictionary κ υ} (h : d.Sorted) (k : κ) : (d.erase k).Sorted := by
  have hitems : (d.erase k).items.Sublist d.items := List.filter_sublist
  have hkeys : (d.erase k).keys.Sublist d.keys := hitems.map _
  exact List.Pairwise.sublist hkeys h

variable [DecidableLT κ]

theorem mem_map_fst_insertItem (k k' : κ) (v : υ) (items : List (κ × υ)) :
    k' ∈ (insertItem k v items).map (·.1) ↔ k' = k ∨ k' ∈ items.map (·.1) := by
  rw [mem_map_fst_iff, mem_map_fst_iff, findItem?_insertItem]
  by_cases hk : k = k'
  · simp [hk]
  · simp [hk, Ne.symm hk]

/-- An item is put in front of the first larger key. -/
theorem Sorted.insert [Trans (fun a b : κ => a < b) (fun a b => a < b) (fun a b => a < b)]
    [Std.Trichotomous fun a b : κ => a < b] {d : Dictionary κ υ} (h : d.Sorted) (k : κ) (v : υ) :
    (d.insert k v).Sorted := by
  obtain ⟨items⟩ := d
  change (items.map (·.1)).Pairwise (· < ·) at h
  change ((insertItem k v items).map (·.1)).Pairwise (· < ·)
  induction items with
  | nil => simp [insertItem]
  | cons item rest ih =>
    obtain ⟨key, value⟩ := item
    rw [List.map_cons, List.pairwise_cons] at h
    obtain ⟨hfirst, hrest⟩ := h
    rw [insertItem]
    split
    · rename_i hlt
      rw [List.map_cons, List.map_cons, List.pairwise_cons, List.pairwise_cons]
      refine ⟨?_, hfirst, hrest⟩
      intro other hother
      rcases List.mem_cons.mp hother with rfl | hother
      · exact hlt
      · exact Trans.trans hlt (hfirst other hother)
    · split
      · rename_i hkey
        subst hkey
        exact List.pairwise_cons.mpr ⟨hfirst, hrest⟩
      · rename_i hnot hne
        have hgt : key < k := by
          rcases Std.lt_trichotomy key k with hgt | heq | hlt
          · exact hgt
          · exact absurd heq hne
          · exact absurd hlt hnot
        refine List.pairwise_cons.mpr ⟨?_, ih hrest⟩
        intro other hother
        rcases (mem_map_fst_insertItem k other v rest).mp hother with rfl | hother
        · exact hgt
        · exact hfirst other hother

end CommandConsole.Dictionary
