/-!
# Dictionaries

A finite map kept as a list of its items in strictly increasing order of the keys. The list is
canonical: two dictionaries with the same keys and values are the same list.

## Main definitions

- `Dictionary κ υ` — the map
- `Dictionary.find?` — the value of a key
- `Dictionary.insert`, `Dictionary.erase` — give a key a value, or none
- `Dictionary.map` — change every value and keep the keys
-/

namespace CommandConsole

/-- A finite map from `κ` to `υ`. -/
structure Dictionary (κ υ : Type) where
  /-- The keys with their values, the keys in strictly increasing order. -/
  items : List (κ × υ)
  deriving DecidableEq, Repr

namespace Dictionary

variable {κ υ υ' : Type}

/-- The dictionary without keys. -/
def empty : Dictionary κ υ := ⟨[]⟩

instance : EmptyCollection (Dictionary κ υ) := ⟨empty⟩

instance : Inhabited (Dictionary κ υ) := ⟨empty⟩

/-- The number of keys. -/
def size (d : Dictionary κ υ) : Nat := d.items.length

/-- Whether there is no key. -/
def isEmpty (d : Dictionary κ υ) : Bool := d.items.isEmpty

/-- The keys in increasing order. -/
def keys (d : Dictionary κ υ) : List κ := d.items.map (·.1)

/-- The value that the first item with the key `k` holds. -/
def findItem? [DecidableEq κ] (k : κ) : List (κ × υ) → Option υ
  | [] => none
  | (key, value) :: rest => if key = k then some value else findItem? k rest

/-- The value of `k`, if it has one. -/
def find? [DecidableEq κ] (d : Dictionary κ υ) (k : κ) : Option υ := findItem? k d.items

/-- Whether `k` has a value. -/
def contains [DecidableEq κ] (d : Dictionary κ υ) (k : κ) : Bool := (d.find? k).isSome

/-- Put an item in its place, replacing the item with the same key. -/
def insertItem [DecidableEq κ] [LT κ] [DecidableLT κ] (k : κ) (v : υ) :
    List (κ × υ) → List (κ × υ)
  | [] => [(k, v)]
  | (key, value) :: rest =>
    if k < key then (k, v) :: (key, value) :: rest
    else if key = k then (k, v) :: rest
    else (key, value) :: insertItem k v rest

/-- Give `k` the value `v`, whatever it had before. -/
def insert [DecidableEq κ] [LT κ] [DecidableLT κ] (d : Dictionary κ υ) (k : κ) (v : υ) :
    Dictionary κ υ :=
  ⟨insertItem k v d.items⟩

/-- Take the value of `k` away. -/
def erase [DecidableEq κ] (d : Dictionary κ υ) (k : κ) : Dictionary κ υ :=
  ⟨d.items.filter fun (key, _) => key ≠ k⟩

/-- Change every value and keep the keys. -/
def map (f : υ → υ') (d : Dictionary κ υ) : Dictionary κ υ' :=
  ⟨d.items.map fun (key, value) => (key, f value)⟩

/-- An empty dictionary has no values. -/
@[simp] theorem find?_empty [DecidableEq κ] (k : κ) : (empty : Dictionary κ υ).find? k = none := rfl

/-- Among the items, too, an insertion changes the value of its own key alone. -/
theorem findItem?_insertItem [DecidableEq κ] [LT κ] [DecidableLT κ] (k k' : κ) (v : υ)
    (items : List (κ × υ)) :
    findItem? k' (insertItem k v items) = if k = k' then some v else findItem? k' items := by
  induction items with
  | nil => rfl
  | cons item rest ih =>
    obtain ⟨key, value⟩ := item
    simp only [insertItem]
    split
    · rfl
    · split <;> rename_i hkey
      · subst hkey
        simp only [findItem?]
        split <;> rfl
      · simp only [findItem?, ih]
        split <;> split <;> simp_all

/-- After an insertion the key has the new value and every other key its old one. -/
theorem find?_insert [DecidableEq κ] [LT κ] [DecidableLT κ] (d : Dictionary κ υ) (k k' : κ) (v : υ) :
    (d.insert k v).find? k' = if k = k' then some v else d.find? k' :=
  findItem?_insertItem k k' v d.items

/-- After an erasure the key has no value and every other key its old one. -/
theorem find?_erase [DecidableEq κ] (d : Dictionary κ υ) (k k' : κ) :
    (d.erase k).find? k' = if k = k' then none else d.find? k' := by
  obtain ⟨items⟩ := d
  simp only [erase, find?]
  induction items with
  | nil => simp [findItem?]
  | cons item rest ih =>
    obtain ⟨key, value⟩ := item
    by_cases hkey : key = k <;> by_cases hk : k = k' <;> simp_all [findItem?]

/-- Changing the values changes what a look-up answers and not whether it answers. -/
@[simp] theorem find?_map [DecidableEq κ] (f : υ → υ') (d : Dictionary κ υ) (k : κ) :
    (d.map f).find? k = (d.find? k).map f := by
  obtain ⟨items⟩ := d
  simp only [map, find?]
  induction items with
  | nil => rfl
  | cons item rest ih =>
    obtain ⟨key, value⟩ := item
    simp only [List.map_cons, findItem?]
    split
    · rfl
    · exact ih

end Dictionary

end CommandConsole
