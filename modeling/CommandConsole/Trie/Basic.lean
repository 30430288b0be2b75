import CommandConsole.Text.Utf8
import CommandConsole.Trie.Forest

/-!
# Prefix trees

A map from texts to values that answers which keys start with a given text, in order, without
looking at the others. A key is spelled by its UTF-8 bytes from the root down; every entry keeps its
key, so that a listing need not spell it again.

## Main definitions

- `Trie υ` — the map, with the number of its entries
- `Trie.find?`, `Trie.insert`, `Trie.erase`
- `Trie.withPrefix` — the entries whose keys start with a text, in increasing byte order of the keys

## Design notes

An insertion and an erasure answer the value that the key had before, beside the new tree.
-/

namespace CommandConsole

/-- A map from texts to values, indexed by prefix. -/
structure Trie (υ : Type) where
  /-- The entry of the empty key. -/
  root : Option (String × υ) := none
  /-- The nodes of all other keys. -/
  below : Forest (String × υ) := .nil
  size : Nat := 0
  deriving DecidableEq, Repr

namespace Trie

variable {υ : Type}

/-- The tree without entries. -/
def empty : Trie υ := {}

instance : EmptyCollection (Trie υ) := ⟨empty⟩

instance : Inhabited (Trie υ) := ⟨empty⟩

/-- Whether there is no entry. -/
def isEmpty (trie : Trie υ) : Bool := trie.size == 0

/-- The node that a text leads to: its entry and the forest below it. -/
def node? (trie : Trie υ) (text : String) : Option (Option (String × υ) × Forest (String × υ)) :=
  match Text.bytes text with
  | [] => some (trie.root, trie.below)
  | b :: path => trie.below.below? b path

/-- The value of `key`, if it has one. -/
def find? (trie : Trie υ) (key : String) : Option υ :=
  (trie.node? key).bind fun (entry, _) => entry.map (·.2)

/-- Give `key` the value `value`. Answers the value it had before. -/
def insert (trie : Trie υ) (key : String) (value : υ) : Option υ × Trie υ :=
  let old := trie.find? key
  let size := if old.isSome then trie.size else trie.size + 1
  match Text.bytes key with
  | [] => (old, { trie with root := some (key, value), size })
  | b :: path => (old, { trie with below := trie.below.insert (key, value) b path, size })

/-- Take the value of `key` away, with the nodes that led only to it. Answers the value it had. -/
def erase (trie : Trie υ) (key : String) : Option υ × Trie υ :=
  let old := trie.find? key
  let size := if old.isSome then trie.size - 1 else trie.size
  match Text.bytes key with
  | [] => (old, { trie with root := none, size })
  | b :: path => (old, { trie with below := trie.below.erase b path, size })

/-- The entries whose keys start with `text`, in increasing byte order of the keys. The text itself
need not be a key. -/
def withPrefix (trie : Trie υ) (text : String) : List (String × υ) :=
  match trie.node? text with
  | none => []
  | some (entry, below) => entry.toList ++ below.toList

/-- The keys that start with `text`, in increasing byte order. -/
def keysWithPrefix (trie : Trie υ) (text : String) : List String :=
  (trie.withPrefix text).map (·.1)

/-- All keys, in increasing byte order. -/
def keys (trie : Trie υ) : List String := trie.keysWithPrefix ""

end Trie

end CommandConsole
