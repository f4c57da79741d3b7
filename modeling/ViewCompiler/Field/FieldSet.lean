import ViewCompiler.Field.Basic

/-!
# Field sets

A `FieldSet` is an ordered list of fields with an index from names to positions, so that a field
is found by name without a search. A name that occurs more than once stays in the list, where
checks can report it, and the index leads to its first occurrence.

* `FieldSet.ofList`, `FieldSet.push` and `FieldSet.narrowedTo` build sets and keep the index.
* `FieldSet.get?` and `FieldSet.modify` look a name up in the index.
-/

namespace ViewCompiler

/-- An ordered list of fields with an index by name. -/
structure FieldSet where
  /-- The fields, in order. -/
  fields : List Field
  /-- The position that each name leads to. -/
  index : KeyMap Nat
  deriving DecidableEq, Inhabited

namespace FieldSet

/-- The set without fields. -/
def empty : FieldSet := ⟨[], []⟩

instance : EmptyCollection FieldSet := ⟨empty⟩

/-- The index extended by the fields of a list that starts at a position; a name that is already
there keeps its position. -/
def indexFrom (index : KeyMap Nat) (position : Nat) : List Field → KeyMap Nat
  | [] => index
  | field :: rest =>
    let index := if index.contains field.name then index else index.insert field.name position
    indexFrom index (position + 1) rest

/-- The set of the fields of a list, repeated names included. -/
def ofList (fields : List Field) : FieldSet := ⟨fields, indexFrom [] 0 fields⟩

/-- The field that a name leads to. -/
def get? (set : FieldSet) (name : String) : Option Field :=
  (set.index.get? name).bind fun position => set.fields[position]?

/-- Does a name lead to a field? -/
def contains (set : FieldSet) (name : String) : Bool := set.index.contains name

/-- The number of fields. -/
def size (set : FieldSet) : Nat := set.fields.length

/-- Is there no field? -/
def isEmpty (set : FieldSet) : Bool := set.fields.isEmpty

/-- The names of the fields, in order. -/
def names (set : FieldSet) : List String := set.fields.map Field.name

/-- Append a field; a field whose name is already there is passed over. -/
def push (set : FieldSet) (field : Field) : FieldSet :=
  if set.contains field.name then set
  else ⟨set.fields ++ [field], set.index.insert field.name set.fields.length⟩

/-- Change the field that a name leads to, in place: the index stays as it is. -/
def modify (set : FieldSet) (name : String) (f : Field → Field) : FieldSet :=
  match set.index.get? name with
  | none => set
  | some position => { set with fields := set.fields.modify position f }

/-- The texts that occur more than once, in the order in which they occur again. -/
def repeated (texts : List String) : List String := go [] [] texts
where
  go (seen found : List String) : List String → List String
    | [] => found
    | text :: rest =>
      if seen.contains text then
        go seen (if found.contains text then found else found ++ [text]) rest
      else go (text :: seen) found rest

/-- The names that occur more than once. -/
def duplicateNames (set : FieldSet) : List String := repeated set.names

/-- The display names that occur more than once; an empty one does not count. -/
def duplicateDisplayNames (set : FieldSet) : List String :=
  repeated ((set.fields.map Field.displayName).filter (· ≠ ""))

/-- The fields with one of the names, in the order of the set. -/
def narrowedTo (set : FieldSet) (names : List String) : FieldSet :=
  ofList (set.fields.filter fun field => names.contains field.name)

/-- The set as a value: the list of its fields. -/
def encode (set : FieldSet) : Json := .array (set.fields.map Field.encode)

/-- A set from a value. -/
def decode (value : Json) : Option FieldSet := (Json.list? Field.decode value).map ofList

end FieldSet

end ViewCompiler
