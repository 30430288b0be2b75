import CommandConsole.Text.Utf8
import Mathlib.Tactic.SplitIfs

/-!
# Bytes and characters

A text is determined by its bytes, and one text starts with another exactly if its bytes do: no
character is a proper beginning of another one.

## Main statements

- `Text.bytes_inj` — texts with the same bytes are the same
- `Text.bytes_prefix_iff` — beginnings in bytes and in characters
- `Text.bytes_lt_iff` — the order by bytes is the order by code points
- `Text.eq_of_sorted` — there is one list of given texts in byte order
- `Text.exists_append_of_width_le` — of two cuts through a text, the one at the smaller offset comes first
-/

namespace CommandConsole.Text

/-- Texts with the same bytes are the same text. -/
theorem bytes_inj {s t : String} : bytes s = bytes t ↔ s = t := by
  constructor
  · intro h
    exact String.toByteArray_inj.mp (ByteArray.ext (Array.toList_inj.mp h))
  · rintro rfl
    rfl

@[simp] theorem bytes_empty : bytes "" = [] := by decide

theorem bytes_append (s t : String) : bytes (s ++ t) = bytes s ++ bytes t := by
  simp [bytes, String.toByteArray_append]

/-- One text starts with the bytes of another exactly if it starts with its characters. -/
theorem bytes_prefix_iff {s t : String} : bytes s <+: bytes t ↔ s.toList <+: t.toList := by
  constructor
  · rintro ⟨rest, h⟩
    have hbytes : s.toList.utf8Encode ++ ⟨rest.toArray⟩ = t.toList.utf8Encode := by
      rw [String.utf8Encode_toList, String.utf8Encode_toList]
      refine ByteArray.ext (Array.toList_inj.mp ?_)
      simpa [bytes] using h
    exact List.isPrefix_of_utf8Encode_append_eq_utf8Encode _ hbytes
  · rintro ⟨rest, h⟩
    have ht : t = s ++ String.ofList rest := by
      rw [← String.toList_inj, String.toList_append, String.toList_ofList, h]
    exact ⟨bytes (String.ofList rest), by rw [ht, bytes_append]⟩

theorem bytes_eq_flatMap (s : String) : bytes s = s.toList.flatMap String.utf8EncodeChar := by
  rw [bytes, ← String.utf8Encode_toList, List.utf8Encode, List.toList_data_toByteArray]

theorem lt_digits {m n : Nat} (h : m < n) :
    m / 64 < n / 64 ∨ m / 64 = n / 64 ∧ m % 64 < n % 64 := by
  omega

/-- The bytes of two characters differ before either of them ends, in the order of the code points. -/
theorem utf8EncodeChar_append_lt {c d : Char} (h : c < d) (as bs : List UInt8) :
    String.utf8EncodeChar c ++ as < String.utf8EncodeChar d ++ bs := by
  have hlt : c.val.toNat < d.val.toNat := h
  have hmax : d.val.toNat < 0x110000 := by
    have hvalid := d.valid
    simp only [UInt32.isValidChar, Nat.isValidChar] at hvalid
    omega
  rw [String.utf8EncodeChar.eq_1 c, String.utf8EncodeChar.eq_1 d]
  generalize c.val.toNat = m at hlt
  generalize d.val.toNat = n at hlt hmax
  -- every byte but the first is a digit to the base 64
  have hdigit := lt_digits hlt
  have hdigit' : m / 64 < n / 64 → _ := lt_digits
  have hdigit'' : m / 64 / 64 < n / 64 / 64 → _ := lt_digits
  have htwo : ∀ k, k / 4096 = k / 64 / 64 := fun k => by omega
  have hthree : ∀ k, k / 262144 = k / 64 / 64 / 64 := fun k => by omega
  -- a character with more bytes than another has the larger first byte
  split_ifs <;>
    simp only [List.cons_append, List.nil_append, List.cons_lt_cons_iff, UInt8.lt_iff_toNat_lt,
      ← UInt8.toNat_inj, UInt8.toNat_ofNat', htwo, hthree] <;>
    omega

theorem flatMap_utf8EncodeChar_lt {cs ds : List Char} (h : cs < ds) :
    cs.flatMap String.utf8EncodeChar < ds.flatMap String.utf8EncodeChar := by
  induction cs generalizing ds with
  | nil =>
    cases ds with
    | nil => exact absurd h (List.lt_irrefl _)
    | cons d ds =>
      obtain ⟨b, bs, hbytes⟩ := List.exists_cons_of_ne_nil (String.utf8EncodeChar_ne_nil (c := d))
      rw [List.flatMap_cons, hbytes]
      exact List.nil_lt_cons _ _
  | cons c cs ih =>
    cases ds with
    | nil => exact absurd h (List.not_lt_nil _)
    | cons d ds =>
      rw [List.flatMap_cons, List.flatMap_cons]
      rcases List.cons_lt_cons_iff.mp h with hlt | ⟨rfl, hlt⟩
      · exact utf8EncodeChar_append_lt hlt _ _
      · exact List.append_left_lt (ih hlt)

/-- **The order of texts by their bytes is the order by code points.** -/
theorem bytes_lt_iff {s t : String} : bytes s < bytes t ↔ s < t := by
  have hmono : ∀ {s t : String}, s < t → bytes s < bytes t := by
    intro s t h
    rw [bytes_eq_flatMap, bytes_eq_flatMap]
    exact flatMap_utf8EncodeChar_lt (String.lt_iff.mp h)
  refine ⟨fun h => ?_, hmono⟩
  rcases Std.lt_trichotomy s t with hlt | rfl | hgt
  · exact hlt
  · exact absurd h (List.lt_irrefl _)
  · exact absurd h (List.lt_asymm (hmono hgt))

/-- Texts in strictly increasing byte order are all different. -/
theorem nodup_of_sorted {texts : List String}
    (h : texts.Pairwise fun first second => bytes first < bytes second) : texts.Nodup := by
  refine List.Pairwise.imp ?_ h
  rintro first second hlt rfl
  exact List.lt_irrefl _ hlt

/-- Texts in strictly increasing byte order are determined by which texts they are. -/
theorem eq_of_sorted {texts texts' : List String}
    (h : texts.Pairwise fun first second => bytes first < bytes second)
    (h' : texts'.Pairwise fun first second => bytes first < bytes second)
    (hmem : ∀ text, text ∈ texts ↔ text ∈ texts') : texts = texts' := by
  have hperm : texts.Perm texts' :=
    (List.perm_ext_iff_of_nodup (nodup_of_sorted h) (nodup_of_sorted h')).mpr hmem
  refine hperm.eq_of_pairwise ?_ h h'
  intro first second _ _ hlt hgt
  exact absurd hgt (List.lt_asymm hlt)

-- ════════════════════════════════════════════════════════════════════════
-- Cuts through a text
-- ════════════════════════════════════════════════════════════════════════

theorem width_eq_zero_iff {cs : List Char} : width cs = 0 ↔ cs = [] := by
  cases cs with
  | nil => simp
  | cons c cs =>
    have hpos := c.utf8Size_pos
    simp only [width_cons, reduceCtorEq, iff_false]
    omega

/-- Of two cuts through a text, the one at the smaller offset comes first. -/
theorem exists_append_of_width_le {as bs xs ys : List Char} (h : as ++ bs = xs ++ ys)
    (hwidth : width as ≤ width xs) : ∃ zs, xs = as ++ zs ∧ bs = zs ++ ys := by
  rcases List.append_eq_append_iff.mp h with ⟨zs, hxs, hbs⟩ | ⟨zs, has, hys⟩
  · exact ⟨zs, hxs, hbs⟩
  · have hnil : zs = [] := by
      rw [has, width_append] at hwidth
      exact width_eq_zero_iff.mp (by omega)
    subst hnil
    exact ⟨[], by simpa using has.symm, by simpa using hys.symm⟩

end CommandConsole.Text
