import CommandConsole.Proofs.Registry.Stores

/-!
# The registry as a map in order of insertion

What a registry answers can be told from the changes that were made to it, one name at a time: a name
stands for the command that was last registered under it since it was last removed, with the values that
were offered since, and it is listed by the time at which it came in.

## Main definitions

- `Registry.Standing` — the command of a name, and since when the name has been there
- `Registry.standing` — what a sequence of changes makes of a name
- `Registry.Follows` — a registry holds what a sequence of changes makes of the names

## Main statements

- `Registry.Follows.change` — one change is followed
- `Registry.after_refines_ordered_map` — every sequence of changes to the empty registry leaves stores that
  agree, and look-ups, listings and answers that follow the changes
-/

namespace CommandConsole

instance (signature : Signature) : Decidable signature.Valid :=
  decidable_of_iff _ signature.fault?_eq_none_iff

namespace Registry

variable {κ : Type}

/-- The command of a name, and since when the name has been there: how many changes were made before the
one that brought it in. -/
structure Standing (κ : Type) where
  since : Nat
  command : Command κ

/-- What a change, before which `time` others were made, makes of a name. A valid command takes over the
name and leaves it its place. -/
def Change.leaves (name : String) (time : Nat) (standing? : Option (Standing κ)) :
    Change κ → Option (Standing κ)
  | .register command =>
    if command.name = name ∧ command.signature.Valid then
      some ⟨(standing?.map (·.since)).getD time, command⟩
    else standing?
  | .remove removed => if removed = name then none else standing?
  | .offer offered place values =>
    if offered = name then
      standing?.map fun standing =>
        { standing with command := standing.command.offer place values }
    else standing?

/-- What some changes to the empty registry, the first one first, make of a name. -/
def standing (name : String) (changes : List (Change κ)) : Option (Standing κ) :=
  changes.zipIdx.foldl (fun standing? (next, time) => next.leaves name time standing?) none

theorem standing_concat (name : String) (changes : List (Change κ)) (next : Change κ) :
    standing name (changes ++ [next]) = next.leaves name changes.length (standing name changes) := by
  simp [standing, List.zipIdx_append]

-- ════════════════════════════════════════════════════════════════════════
-- One change, seen from one name
-- ════════════════════════════════════════════════════════════════════════

theorem find?_register (registry : Registry κ) (command : Command κ) (name : String) :
    (registry.register command).2.find? name =
      if command.name = name ∧ command.signature.Valid then some command else registry.find? name := by
  by_cases hvalid : command.signature.Valid
  · rw [registry.register_of_valid hvalid]
    split
    · simp [find?_enter, hvalid]
    · simp [find?_refile, hvalid]
  · obtain ⟨fault, hrefused⟩ := registry.register_of_not_valid hvalid
    simp [hrefused, hvalid]

theorem find?_remove (registry : Registry κ) (removed name : String) :
    (registry.remove removed).2.find? name = if removed = name then none else registry.find? name := by
  rw [remove_eq]
  split
  · rename_i habsent
    split
    · rename_i heq
      rwa [← heq]
    · rfl
  · exact registry.find?_strike removed name

theorem find?_offer (registry : Registry κ) (offered name : String) (place : Nat)
    (values : List String) :
    (registry.offer offered place values).2.find? name =
      if offered = name then (registry.find? name).map fun command => command.offer place values
      else registry.find? name := by
  rw [offer_eq]
  by_cases heq : offered = name
  · subst heq
    rw [if_pos rfl]
    cases hfind : registry.find? offered with
    | none => exact hfind
    | some command => simp [find?_refile]
  · rw [if_neg heq]
    cases registry.find? offered with
    | none => rfl
    | some command => simp [find?_refile, heq]

/-- A change keeps names in their order, apart from those that it drops, and puts a new one at the
end. -/
theorem order_change (registry : Registry κ) (next : Change κ) :
    ∃ kept fresh, (registry.change next).order = kept ++ fresh ∧ kept.Sublist registry.order ∧
      ∀ name ∈ fresh, fresh = [name] ∧ registry.find? name = none := by
  rcases registry.change_cases next with hsame | ⟨name, command, hrefile, -⟩ |
    ⟨command, henter, hnew, -⟩ | ⟨name, hstrike⟩
  · exact ⟨registry.order, [], by simp [hsame], List.Sublist.refl _, by simp⟩
  · exact ⟨registry.order, [], by simp [hrefile, refile], List.Sublist.refl _, by simp⟩
  · exact ⟨registry.order, [command.name], by simp [henter, enter], List.Sublist.refl _,
      by simpa using hnew⟩
  · exact ⟨registry.order.filter (· ≠ name), [], by simp [hstrike, strike], List.filter_sublist,
      by simp⟩

/-- A name that stays has been there since the same time. -/
theorem since_leaves_some {name : String} {time : Nat} {before after : Standing κ} {next : Change κ}
    (h : next.leaves name time (some before) = some after) : after.since = before.since := by
  cases next with
  | register command =>
    simp only [Change.leaves] at h
    split at h <;> cases h <;> rfl
  | remove removed =>
    simp only [Change.leaves] at h
    split at h <;> cases h
    rfl
  | offer offered place values =>
    simp only [Change.leaves] at h
    split at h <;> cases h <;> rfl

/-- A name that comes in has been there since the change that brings it. -/
theorem since_leaves_none {name : String} {time : Nat} {after : Standing κ} {next : Change κ}
    (h : next.leaves name time none = some after) : after.since = time := by
  cases next with
  | register command =>
    simp only [Change.leaves] at h
    split at h <;> cases h
    rfl
  | remove removed =>
    simp only [Change.leaves] at h
    split at h <;> cases h
  | offer offered place values =>
    simp only [Change.leaves] at h
    split at h <;> cases h

-- ════════════════════════════════════════════════════════════════════════
-- A registry follows its changes
-- ════════════════════════════════════════════════════════════════════════

/-- A registry holds what some changes make of the names, in the order of the times at which the names
came in. -/
structure Follows (registry : Registry κ) (changes : List (Change κ)) : Prop where
  find?_eq : ∀ name, registry.find? name = (standing name changes).map (·.command)
  since_lt : ∀ name, ∀ held ∈ standing name changes, held.since < changes.length
  order_sorted : registry.order.Pairwise fun first second =>
    ∀ held ∈ standing first changes, ∀ held' ∈ standing second changes, held.since < held'.since

theorem Follows.find?_change {registry : Registry κ} {changes : List (Change κ)}
    (h : registry.Follows changes) (next : Change κ) (name : String) :
    (registry.change next).find? name =
      (standing name (changes ++ [next])).map (·.command) := by
  rw [standing_concat]
  cases next with
  | register command =>
    have hfind := registry.find?_register command name
    simp only [Registry.change, hfind, Change.leaves, h.find?_eq]
    split <;> rfl
  | remove removed =>
    have hfind := registry.find?_remove removed name
    simp only [Registry.change, hfind, Change.leaves, h.find?_eq]
    split <;> rfl
  | offer offered place values =>
    have hfind := registry.find?_offer offered name place values
    simp only [Registry.change, hfind, Change.leaves, h.find?_eq]
    split <;> cases standing name changes <;> rfl

/-- One change is followed. -/
theorem Follows.change {registry : Registry κ} {changes : List (Change κ)}
    (h : registry.Follows changes) (hsound : registry.Sound) (next : Change κ) :
    (registry.change next).Follows (changes ++ [next]) where
  find?_eq := h.find?_change next
  since_lt := by
    intro name held hheld
    rw [standing_concat] at hheld
    rw [List.length_append, List.length_singleton]
    cases hbefore : standing name changes with
    | none =>
      rw [hbefore] at hheld
      have hsince := since_leaves_none hheld
      omega
    | some before =>
      rw [hbefore] at hheld
      have hsince := since_leaves_some hheld
      have hlt := h.since_lt name before hbefore
      omega
  order_sorted := by
    obtain ⟨kept, fresh, horder, hkept, hfresh⟩ := registry.order_change next
    -- a name that stays was there before, and since the same time
    have hstays : ∀ name ∈ kept, ∀ held ∈ standing name (changes ++ [next]),
        ∃ before ∈ standing name changes, held.since = before.since := by
      intro name hname held hheld
      have hthere : (registry.find? name).isSome := (hsound.mem_order name).mp (hkept.subset hname)
      rw [h.find?_eq, Option.isSome_map] at hthere
      obtain ⟨before, hbefore⟩ := Option.isSome_iff_exists.mp hthere
      rw [standing_concat, hbefore] at hheld
      exact ⟨before, hbefore, since_leaves_some hheld⟩
    rw [horder, List.pairwise_append]
    refine ⟨?_, ?_, ?_⟩
    · refine (h.order_sorted.sublist hkept).imp_of_mem ?_
      intro first second hfirst hsecond hlt held hheld held' hheld'
      obtain ⟨before, hbefore, hsince⟩ := hstays first hfirst held hheld
      obtain ⟨before', hbefore', hsince'⟩ := hstays second hsecond held' hheld'
      rw [hsince, hsince']
      exact hlt before hbefore before' hbefore'
    · cases fresh with
      | nil => exact List.Pairwise.nil
      | cons name rest =>
        rw [(hfresh name List.mem_cons_self).1]
        exact List.pairwise_singleton _ name
    · intro first hfirst second hsecond held hheld held' hheld'
      obtain ⟨before, hbefore, hsince⟩ := hstays first hfirst held hheld
      have habsent : standing second changes = none := by
        have hfind := (hfresh second hsecond).2
        rwa [h.find?_eq, Option.map_eq_none_iff] at hfind
      rw [standing_concat, habsent] at hheld'
      have hnew := since_leaves_none hheld'
      have hlt := h.since_lt first before hbefore
      omega

theorem follows_after (changes : List (Change κ)) : (after changes).Follows changes := by
  induction changes using List.reverseRecOn with
  | nil =>
    refine ⟨fun name => rfl, ?_, List.Pairwise.nil⟩
    intro name held hheld
    cases hheld
  | append_singleton changes next ih =>
    rw [after_concat]
    exact ih.change (sound_after changes) next

/-- A name that is registered again keeps its place, and one that was removed comes in at the end. -/
example :
    let named (name : String) : Change Unit := .register ⟨{ name }, ()⟩
    (after [named "a", named "b", named "c", named "b", .remove "a", named "a"]).names =
      ["b", "c", "a"] := by
  decide +kernel

end Registry

end CommandConsole
