import ViewCompiler.Field.FieldSet
import ViewCompiler.Page.Error

/-!
# Shapes of documents

* `Row.flatten`: a document as a row, with the paths of its leaves as keys. Values that are reached
  more than once under one path are collected.
* `Row.pick`: the parts of a document that fields name, at the paths of the fields. Arrays on the
  way are passed through.
-/

namespace ViewCompiler

/-- A row, or the content of a document. -/
abbrev Row := KeyMap Json

namespace Row

/-! ### Flattening -/

/-- Set the value of a key that is kept. -/
def put (keep : String → Bool) (key : String) (value : Json) (row : Row) : Row :=
  if keep key then row.insert key value else row

/-- Add a scalar under a key; with a value that is there it makes up an array. -/
def collect (keep : String → Bool) (key : String) (scalar : Json) (row : Row) : Row :=
  match row.get? key with
  | none => row.put keep key scalar
  | some (.array found) => row.insert key (.array (found ++ [scalar]))
  | some first => row.insert key (.array [first, scalar])

/-- Is the first item an array or an object? -/
def startsNested : List Json → Bool
  | [] => false
  | item :: _ => item.isContainer

mutual

/-- Add a value that is reached under a key. -/
def assign (keep : String → Bool) (key : String) : Json → Row → Row
  | .object [], row => row.put keep key (.object [])
  | .object members, row => assignMembers keep key members row
  | .array items, row =>
    if startsNested items then assignItems keep key items row else row.put keep key (.array items)
  | scalar, row => row.collect keep key scalar

/-- Add the members of an object that is reached under a key. -/
def assignMembers (keep : String → Bool) (key : String) : List (String × Json) → Row → Row
  | [], row => row
  | (name, value) :: rest, row =>
    assignMembers keep key rest (assign keep (key ++ "." ++ name) value row)

/-- Add the items of an array that is reached under a key. -/
def assignItems (keep : String → Bool) (key : String) : List Json → Row → Row
  | [], row => row
  | item :: rest, row => assignItems keep key rest (assign keep key item row)

end

/-- The row of a document with the keys that are kept. -/
def flattenWhere (keep : String → Bool) (document : Row) : Row :=
  document.foldl (fun row (key, value) => assign keep key value row) []

/-- The row of a document with all its keys, or with those that name a field. -/
def flatten (document : Row) (fields : Option FieldSet) : Row :=
  flattenWhere (fun key => fields.all (·.contains key)) document

/-! ### Picking -/

/-- Values that a path leads to. -/
structure Found where
  /-- The values, in the order of the document. -/
  values : List Json
  /-- Did the path lead through an array? -/
  many : Bool
  deriving Inhabited

/-- No value. -/
def Found.nothing : Found := ⟨[], false⟩

mutual

/-- The values in a value: the items of an array, at any depth, but not `null`. -/
def leaves : Json → Found
  | .null => .nothing
  | .array items => ⟨leavesOf items, true⟩
  | value => ⟨[value], false⟩

/-- The values in the items of an array. -/
def leavesOf : List Json → List Json
  | [] => []
  | item :: rest => (leaves item).values ++ leavesOf rest

end

mutual

/-- The values that a path leads to from a value. -/
def valuesAt (path : List String) : Json → Found
  | .null => .nothing
  | .array items => if path.isEmpty then leaves (.array items) else ⟨valuesIn path items, true⟩
  | .object members =>
    match path with
    | [] => ⟨[.object members], false⟩
    | head :: rest => valuesUnder head rest members
  | value => if path.isEmpty then ⟨[value], false⟩ else .nothing

/-- The values that a path leads to from the items of an array. -/
def valuesIn (path : List String) : List Json → List Json
  | [] => []
  | item :: rest => (valuesAt path item).values ++ valuesIn path rest

/-- The values that a path leads to from the member with a name. -/
def valuesUnder (name : String) (path : List String) : List (String × Json) → Found
  | [] => .nothing
  | (key, value) :: rest => if key = name then valuesAt path value else valuesUnder name path rest

end

/-- The values as one: an array unless there is just one and no array was on the way. -/
def Found.value (found : Found) : Json :=
  match found.values with
  | [value] => if found.many then .array [value] else value
  | values => .array values

/-- Set the value at a path; objects that are missing on the way are put there. -/
def setAt : List String → Json → Row → Except RowError Row
  | [], _, row => .ok row
  | [last], value, row => .ok (row.insert last value)
  | segment :: rest, value, row =>
    match row.get? segment with
    | none => (setAt rest value []).map fun inner => row.insert segment (.object inner)
    | some (.object inner) =>
      (setAt rest value inner).map fun inner => row.insert segment (.object inner)
    | some _ => .error (.notAnObject segment)

/-- Copy what a field names from a document to a row. -/
def pickField (document : Row) (row : Row) (field : Field) : Except RowError Row :=
  let found : Found := match field.path with
    | [] => .nothing
    | head :: rest => valuesUnder head rest document
  if found.values.isEmpty then .ok row else setAt field.path found.value row

/-- The parts of a document that the fields name. -/
def pick (document : Row) (fields : List Field) : Except RowError Row :=
  fields.foldlM (pickField document) []

end Row

end ViewCompiler
