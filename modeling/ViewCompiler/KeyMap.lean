/-!
# Maps from names, in key order

A `KeyMap α` is a finite map from strings, kept as the list of its entries with strictly
increasing keys. Strings compare by their characters, which is also the order of their UTF-8
bytes.

* `KeyMap.insert` keeps the order and replaces the value of a key that is there.
* `KeyMap.get?` finds the value of a key.
* `KeyMap.ofList` inserts entries one after another, so the last value of a key wins.
-/

namespace ViewCompiler

/-- A finite map from strings, as its entries in key order. -/
abbrev KeyMap (α : Type) := List (String × α)

namespace KeyMap

variable {α β : Type}

/-- The map without entries. -/
def empty : KeyMap α := []

/-- The value of a key. -/
def get? (map : KeyMap α) (key : String) : Option α :=
  match map with
  | [] => none
  | (k, v) :: rest => if k = key then some v else get? rest key

/-- Is there a value for the key? -/
def contains (map : KeyMap α) (key : String) : Bool := (get? map key).isSome

/-- Set the value of a key. -/
def insert (map : KeyMap α) (key : String) (value : α) : KeyMap α :=
  match map with
  | [] => [(key, value)]
  | (k, v) :: rest =>
    if key < k then (key, value) :: (k, v) :: rest
    else if key = k then (key, value) :: rest
    else (k, v) :: insert rest key value

/-- Take the entries in order; the last value of a key wins. -/
def ofList (entries : List (String × α)) : KeyMap α :=
  entries.foldl (fun map entry => insert map entry.1 entry.2) empty

/-- The keys, in order. -/
def keys (map : KeyMap α) : List String := map.map Prod.fst

/-- The values, in the order of their keys. -/
def values (map : KeyMap α) : List α := map.map Prod.snd

/-- Change every value. -/
def mapValues (f : α → β) (map : KeyMap α) : KeyMap β := map.map fun entry => (entry.1, f entry.2)

/-- Change the value of a key, starting from `initial` if there is none. -/
def update (map : KeyMap α) (key : String) (initial : α) (f : α → α) : KeyMap α :=
  insert map key (f ((get? map key).getD initial))

end KeyMap

end ViewCompiler
