import CommandConsole.Observers
import Mathlib.Data.List.Basic
import Mathlib.Data.List.Nodup

/-!
# Observers that come and go

A list of observers is told of values while connections begin and end. What it answers can be read off its history:
the connections that have begun and that nobody has ended since are told of a value, in the order in which they
began. No identifier is given twice, so that whoever ends a connection ends no other one, however late.

## Main definitions

- `Observers.Call`, `Observers.Entry` — what is done with observers, and what has been done, with the answer
- `Observers.entries`, `Observers.after` — the history that calls make, and what they leave
- `Observers.given`, `Observers.live` — the identifiers that were given, and the connections that nobody has ended
- `Observers.Entry.Fits` — an answer is the right one behind a history

## Main statements

- `Observers.Follows.call` — one call is answered as it should be
- `Observers.answers_fit` — so are all calls
-/

namespace CommandConsole.Observers

variable {α ε : Type}

/-- Something that is done with a list of observers. -/
inductive Call (α ε : Type) where
  | connect (callback : α → ε)
  | disconnect (id : Nat)
  | notify (value : α)

/-- Something that has been done, with the answer. -/
inductive Entry (α ε : Type) where
  | connected (id : Nat) (callback : α → ε)
  | disconnected (id : Nat) (found : Bool)
  | notified (value : α) (recorded : List ε)

def call (observers : Observers α ε) : Call α ε → Entry α ε × Observers α ε
  | .connect callback => (.connected (observers.connect callback).1 callback, (observers.connect callback).2)
  | .disconnect id => (.disconnected id (observers.disconnect id).1, (observers.disconnect id).2)
  | .notify value => (.notified value (observers.notify value), observers)

def after (observers : Observers α ε) (calls : List (Call α ε)) : Observers α ε :=
  calls.foldl (fun observers next => (observers.call next).2) observers

def entries (observers : Observers α ε) : List (Call α ε) → List (Entry α ε)
  | [] => []
  | first :: calls => (observers.call first).1 :: (observers.call first).2.entries calls

-- ════════════════════════════════════════════════════════════════════════
-- Histories
-- ════════════════════════════════════════════════════════════════════════

def Entry.given? : Entry α ε → Option Nat
  | connected id _ => some id
  | _ => none

def Entry.ended? : Entry α ε → Option Nat
  | disconnected id true => some id
  | _ => none

/-- Whether someone wanted to end the connection with an identifier. -/
def Entry.releases (id : Nat) : Entry α ε → Bool
  | disconnected other _ => id == other
  | _ => false

/-- The identifiers that were given to connections. -/
def given (history : List (Entry α ε)) : List Nat := history.filterMap Entry.given?

/-- The identifiers of the connections that were ended. -/
def ended (history : List (Entry α ε)) : List Nat := history.filterMap Entry.ended?

/-- The connections that have begun and that nobody has ended since, the oldest one first. -/
def live : List (Entry α ε) → List (Nat × (α → ε))
  | [] => []
  | .connected id callback :: later =>
    if later.any (·.releases id) then live later else (id, callback) :: live later
  | _ :: later => live later

/-- An entry is the right one behind a history. A connection gets a new identifier. Ending a connection succeeds
if it is live, and takes away that one alone. A value is told to all live connections, once and in order. -/
def Entry.Fits (history : List (Entry α ε)) : Entry α ε → Prop
  | .connected id _ => id ∉ given history
  | .disconnected id found =>
    (found = true ↔ id ∈ (live history).map Prod.fst) ∧
      if found then ∃ earlier callback later, live history = earlier ++ (id, callback) :: later ∧
        live (history ++ [.disconnected id found]) = earlier ++ later
      else live (history ++ [.disconnected id found]) = live history
  | .notified value recorded => recorded = (live history).map fun (_, callback) => callback value

/-- What one more entry does to the connections that are live. -/
theorem live_concat (history : List (Entry α ε)) (last : Entry α ε) :
    live (history ++ [last]) =
      (live history).filter (fun connection => !last.releases connection.1) ++ live [last] := by
  induction history with
  | nil => rfl
  | cons first history ih =>
    cases first with
    | connected id callback =>
      have hany : (history ++ [last]).any (Entry.releases id) =
          (history.any (Entry.releases id) || last.releases id) := by simp
      rw [List.cons_append, live, live, hany, ih]
      by_cases hreleased : history.any (Entry.releases id) = true
      · simp [hreleased]
      · cases hlast : last.releases id <;> simp [hreleased, hlast]
    | disconnected | notified => exact ih

theorem live_concat_connected (history : List (Entry α ε)) (id : Nat) (callback : α → ε) :
    live (history ++ [.connected id callback]) = live history ++ [(id, callback)] := by
  rw [live_concat]
  simp [Entry.releases, live]

theorem live_concat_disconnected (history : List (Entry α ε)) (id : Nat) (found : Bool) :
    live (history ++ [.disconnected id found]) = (live history).filter (·.1 != id) := by
  rw [live_concat]
  exact List.append_nil _

theorem live_concat_notified (history : List (Entry α ε)) (value : α) (recorded : List ε) :
    live (history ++ [.notified value recorded]) = live history := by
  rw [live_concat]
  simp [Entry.releases, live]

theorem given_concat (history : List (Entry α ε)) (last : Entry α ε) :
    given (history ++ [last]) = given history ++ last.given?.toList := by
  rw [given, List.filterMap_append]
  cases last <;> rfl

theorem ended_concat (history : List (Entry α ε)) (last : Entry α ε) :
    ended (history ++ [last]) = ended history ++ last.ended?.toList := by
  rw [ended, List.filterMap_append]
  match last with
  | .connected _ _ | .disconnected _ true | .disconnected _ false | .notified _ _ => rfl

theorem live_sublist_given (history : List (Entry α ε)) :
    ((live history).map Prod.fst).Sublist (given history) := by
  induction history with
  | nil => exact List.Sublist.refl []
  | cons first history ih =>
    cases first with
    | connected id callback =>
      show List.Sublist _ (id :: given history)
      rw [live]
      split
      · exact ih.trans (List.sublist_cons_self id (given history))
      · exact ih.cons_cons id
    | disconnected | notified => exact ih

-- ════════════════════════════════════════════════════════════════════════
-- Calls
-- ════════════════════════════════════════════════════════════════════════

/-- Observers stand as their history tells: the live connections are connected, the identifiers were given in order
and none of them twice, and a connection that was begun is live or was ended. -/
structure Follows (observers : Observers α ε) (history : List (Entry α ε)) : Prop where
  connected : observers.connected = live history
  given_eq : given history = List.range observers.nextId
  length_eq : (live history).length + (ended history).length = (given history).length

theorem Follows.empty : (empty : Observers α ε).Follows [] := ⟨rfl, rfl, rfl⟩

section Follows

variable {observers : Observers α ε} {history : List (Entry α ε)}

theorem Follows.nodup_live (h : observers.Follows history) : ((live history).map Prod.fst).Nodup := by
  have hgiven : (given history).Nodup := h.given_eq ▸ List.nodup_range
  exact (live_sublist_given history).nodup hgiven

theorem filter_eq_self_of_notMem {connections : List (Nat × (α → ε))} {id : Nat}
    (hid : id ∉ connections.map Prod.fst) :
    connections.filter (·.1 != id) = connections := by
  refine List.filter_eq_self.mpr fun connection hmem => bne_iff_ne.mpr ?_
  rintro rfl
  exact hid (List.mem_map_of_mem hmem)

/-- A connection that is live is the only one with its identifier, and the only one that is ended by it. -/
theorem Follows.exists_split (h : observers.Follows history) {id : Nat}
    (hlive : id ∈ (live history).map Prod.fst) : ∃ earlier callback later,
    live history = earlier ++ (id, callback) :: later ∧
      (live history).filter (·.1 != id) = earlier ++ later := by
  obtain ⟨⟨id, callback⟩, hmem, rfl⟩ := List.mem_map.mp hlive
  obtain ⟨earlier, later, hsplit⟩ := List.append_of_mem hmem
  have hnodup := h.nodup_live
  rw [hsplit, List.map_append, List.map_cons, List.nodup_middle, List.nodup_cons, ← List.map_append] at hnodup
  refine ⟨earlier, callback, later, hsplit, ?_⟩
  rw [hsplit, List.filter_append, List.filter_cons_of_neg (by simp), ← List.filter_append]
  exact filter_eq_self_of_notMem hnodup.1

theorem Follows.fst_disconnect (h : observers.Follows history) (id : Nat) :
    (observers.disconnect id).1 = true ↔ id ∈ (live history).map Prod.fst := by
  show observers.connected.any (·.1 == id) = true ↔ _
  rw [h.connected]
  simp

/-- **A call is answered as it should be** behind its history. -/
theorem Follows.fits_call (h : observers.Follows history) (next : Call α ε) :
    (observers.call next).1.Fits history := by
  cases next with
  | connect callback =>
    show observers.nextId ∉ given history
    rw [h.given_eq]
    exact fun hmem => Nat.lt_irrefl _ (List.mem_range.mp hmem)
  | disconnect id =>
    have hfound := h.fst_disconnect id
    refine ⟨hfound, ?_⟩
    split
    · rename_i htrue
      rw [live_concat_disconnected]
      exact h.exists_split (hfound.mp htrue)
    · rename_i hfalse
      rw [live_concat_disconnected]
      exact filter_eq_self_of_notMem (mt hfound.mpr hfalse)
  | notify value =>
    show (observers.connected.map fun connection => connection.2 value) = _
    rw [h.connected]

theorem Follows.connect (h : observers.Follows history) (callback : α → ε) :
    (observers.connect callback).2.Follows (history ++ [.connected observers.nextId callback]) := by
  refine ⟨?_, ?_, ?_⟩
  · show observers.connected ++ [(observers.nextId, callback)] = _
    rw [live_concat_connected, h.connected]
  · rw [given_concat, h.given_eq]
    exact List.range_succ.symm
  · have hlengths := h.length_eq
    rw [live_concat_connected, given_concat, ended_concat]
    simp only [Entry.given?, Entry.ended?, Option.toList_some, Option.toList_none, List.length_append,
      List.length_singleton, List.length_nil]
    omega

theorem Follows.length_disconnect (h : observers.Follows history) (id : Nat) :
    ((live history).filter (·.1 != id)).length + (observers.disconnect id).1.toNat =
      (live history).length := by
  by_cases hlive : id ∈ (live history).map Prod.fst
  · obtain ⟨earlier, callback, later, hsplit, hleft⟩ := h.exists_split hlive
    rw [hleft, hsplit, (h.fst_disconnect id).mpr hlive]
    simp [Nat.add_assoc]
  · have hnone : (observers.disconnect id).1 = false := by
      simpa using mt (h.fst_disconnect id).mp hlive
    rw [filter_eq_self_of_notMem hlive, hnone]
    rfl

theorem Follows.disconnect (h : observers.Follows history) (id : Nat) :
    (observers.disconnect id).2.Follows (history ++ [.disconnected id (observers.disconnect id).1]) := by
  refine ⟨?_, ?_, ?_⟩
  · show observers.connected.filter (·.1 != id) = _
    rw [live_concat_disconnected, h.connected]
  · rw [given_concat]
    exact (List.append_nil _).trans h.given_eq
  · have hlengths := h.length_eq
    have hlength := h.length_disconnect id
    have hended : (Entry.disconnected id (observers.disconnect id).1 : Entry α ε).ended?.toList.length =
        (observers.disconnect id).1.toNat := by
      cases (observers.disconnect id).1 <;> rfl
    rw [live_concat_disconnected, given_concat, ended_concat, List.length_append, hended]
    simp only [Entry.given?, Option.toList_none, List.append_nil]
    omega

theorem Follows.notify (h : observers.Follows history) (value : α) :
    observers.Follows (history ++ [.notified value (observers.notify value)]) := by
  refine ⟨?_, ?_, ?_⟩
  · rw [live_concat_notified, h.connected]
  · rw [given_concat]
    exact (List.append_nil _).trans h.given_eq
  · rw [live_concat_notified, given_concat, ended_concat]
    simpa [Entry.given?, Entry.ended?] using h.length_eq

theorem Follows.call (h : observers.Follows history) (next : Call α ε) :
    (observers.call next).2.Follows (history ++ [(observers.call next).1]) := by
  cases next with
  | connect callback => exact h.connect callback
  | disconnect id => exact h.disconnect id
  | notify value => exact h.notify value

theorem Follows.after (h : observers.Follows history) (calls : List (Call α ε)) :
    (observers.after calls).Follows (history ++ observers.entries calls) := by
  induction calls generalizing observers history with
  | nil =>
    rw [entries, List.append_nil]
    exact h
  | cons first calls ih =>
    have hrest := ih (h.call first)
    rwa [List.append_assoc] at hrest

theorem Follows.fits_entries (h : observers.Follows history) {calls : List (Call α ε)}
    {earlier later : List (Entry α ε)} {entry : Entry α ε}
    (hsplit : observers.entries calls = earlier ++ entry :: later) : entry.Fits (history ++ earlier) := by
  induction calls generalizing observers history earlier with
  | nil => simp [entries] at hsplit
  | cons first calls ih =>
    cases earlier with
    | nil =>
      obtain ⟨rfl, -⟩ := List.cons.inj hsplit
      rw [List.append_nil]
      exact h.fits_call first
    | cons other earlier =>
      obtain ⟨rfl, hrest⟩ := List.cons.inj hsplit
      have hfits := ih (h.call first) hrest
      rwa [List.append_assoc] at hfits

end Follows

/-- **All calls are answered as they should be.** Whatever is done with a list of observers that starts empty, and
in whatever order, each answer is the right one behind the history before it: a connection gets an identifier that
was never given before; ending a connection succeeds if the connection has begun and nobody has ended it yet, and
then takes it away and no other; a value is told once to each connection that is live then, in the order in which
they began. The connections that are left are the live ones, and there are as many as have begun less those that
were ended. -/
theorem answers_fit (calls : List (Call α ε)) :
    let observers := (empty : Observers α ε).after calls
    let history := (empty : Observers α ε).entries calls
    (∀ earlier entry later, history = earlier ++ entry :: later → entry.Fits earlier) ∧
      observers.connected = live history ∧
      observers.size + (ended history).length = (given history).length := by
  intro observers history
  have h : observers.Follows history := Follows.empty.after calls
  refine ⟨fun earlier entry later hsplit => Follows.empty.fits_entries hsplit, h.connected, ?_⟩
  rw [size, h.connected]
  exact h.length_eq

end CommandConsole.Observers
