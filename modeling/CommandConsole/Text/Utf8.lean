/-!
# Texts as bytes

Offsets in a typed line, keys of the prefix index and distances between names are all counted in
UTF-8 bytes. The order of texts by their bytes is the order by code points, which is the order `<`
of `String`.

## Main definitions

- `Text.bytes` — the bytes of a text
- `Text.width` — how many bytes a list of characters takes
- `Text.takeWidth` — the characters before a byte offset
-/

namespace CommandConsole.Text

/-- The UTF-8 bytes of a text, in order. -/
def bytes (s : String) : List UInt8 :=
  s.toByteArray.data.toList

/-- The number of UTF-8 bytes that the characters take together. -/
def width : List Char → Nat
  | [] => 0
  | c :: cs => c.utf8Size + width cs

/-- The characters at the beginning that lie before the byte offset `offset` as a whole. -/
def takeWidth (offset : Nat) : List Char → List Char
  | [] => []
  | c :: cs =>
    if c.utf8Size ≤ offset then c :: takeWidth (offset - c.utf8Size) cs else []

/-- No characters take no bytes. -/
@[simp] theorem width_nil : width [] = 0 := rfl

/-- The first character takes its own bytes. -/
@[simp] theorem width_cons (c : Char) (cs : List Char) : width (c :: cs) = c.utf8Size + width cs := rfl

/-- Two lists of characters take the bytes of both. -/
@[simp] theorem width_append (as bs : List Char) : width (as ++ bs) = width as + width bs := by
  induction as with
  | nil => simp
  | cons c cs ih => simp [ih, Nat.add_assoc]

/-- At an offset between two characters nothing is cut through. -/
@[simp] theorem takeWidth_append (as bs : List Char) : takeWidth (width as) (as ++ bs) = as := by
  induction as with
  | nil =>
    cases bs with
    | nil => rfl
    | cons c cs =>
      have := c.utf8Size_pos
      simp [takeWidth]; omega
  | cons c cs ih => simp [takeWidth, ih]

end CommandConsole.Text
