import ViewCompiler.Filter.Operator
import ViewCompiler.Json.Depth
import ViewCompiler.Json.Record

/-!
# Filters

A `Filter` is a tree: a leaf compares a field with a value, an inner node joins its children with
`and` or `or`. Nothing about its legality is built into the type.

* `Filter.isEmpty`: a filter without field, operator, children and value restricts nothing.
* `Filter.referenced`: the fields that a filter names.
* `Filter.decode` and `Filter.encode`: filters as values.
-/

namespace ViewCompiler

/-- A filter tree. -/
structure Filter where
  /-- The field that a leaf tests. -/
  field : String := ""
  /-- The name of the operator. -/
  operation : String := ""
  /-- The filters that `and` and `or` join. -/
  children : List Filter := []
  /-- Where the value comes from; `const` or nothing for a value that is given. -/
  valueFrom : String := ""
  /-- The value that a leaf compares with. -/
  value : Option Json := none
  deriving Inhabited

namespace Filter

/-- The source of a value that is given. -/
def constant : String := "const"

/-- The field name that stands for every field of a document. -/
def allFields : String := "*"

/-- The fields that describe a document rather than its content. -/
def metaFields : List String := ["__id", "__routing"]

/-- A leaf that compares a field with a given value. -/
def leaf (field operation : String) (value : Json) : Filter :=
  { field, operation, valueFrom := constant, value := some value }

/-- A leaf whose operator takes no value. -/
def unary (field operation : String) : Filter := { field, operation }

/-- All of the filters. -/
def conj (children : List Filter) : Filter := { operation := "and", children }

/-- At least one of the filters. -/
def disj (children : List Filter) : Filter := { operation := "or", children }

/-- Does the filter restrict nothing? -/
def isEmpty (filter : Filter) : Bool :=
  filter.field = "" && filter.operation = "" && filter.children.isEmpty && filter.value.isNone

/-- The filter, unless it is empty. -/
def nonEmpty? (filter : Option Filter) : Option Filter := filter.filter fun f => !f.isEmpty

/-- The operator that the filter names. -/
def operator? (filter : Filter) : Option Operator := Operator.ofName? filter.operation

/-! ### Fields -/

/-- A name appended to a list of names, unless it is there. -/
def addName (names : List String) (name : String) : List String :=
  if names.contains name then names else names ++ [name]

mutual

/-- The fields that the filter names, after those found before. -/
def addReferenced (found : List String) : Filter → List String
  | ⟨field, _, children, _, _⟩ =>
    addAllReferenced (if field = "" then found else addName found field) children

/-- The fields that the filters name, after those found before. -/
def addAllReferenced (found : List String) : List Filter → List String
  | [] => found
  | child :: rest => addAllReferenced (addReferenced found child) rest

end

/-- The fields that the filter names, each once, in the order in which they come first. -/
def referenced (filter : Filter) : List String := addReferenced [] filter

/-! ### Filters as values -/

mutual

/-- The filter as a value; parts that say nothing are left out. -/
def encode : Filter → Json
  | ⟨field, operation, children, valueFrom, value⟩ =>
    .ofOptionalMembers
      [("field", if field = "" then none else some (.string field)),
        ("operation", if operation = "" then none else some (.string operation)),
        ("sub_conditions", if children.isEmpty then none else some (.array (encodeAll children))),
        ("value_from", if valueFrom = "" then none else some (.string valueFrom)),
        ("value", value)]

/-- The filters as values. -/
def encodeAll : List Filter → List Json
  | [] => []
  | filter :: rest => filter.encode :: encodeAll rest

end

/-- The members of a filter, in their order. -/
def memberNames : List String := ["field", "operation", "sub_conditions", "value_from", "value"]

/-- A filter from a value that nests less than `depth` deep. -/
def decodeWithin : Nat → Json → Option Filter
  | 0, _ => none
  | depth + 1, value => do
    let members ← value.record? memberNames 0
    return {
      field := ← Json.orElse? members "field" "" Json.string?
      operation := ← Json.orElse? members "operation" "" Json.string?
      children := ← Json.orElse? members "sub_conditions" [] (Json.list? (decodeWithin depth))
      valueFrom := ← Json.orElse? members "value_from" "" Json.string?
      value := ← Json.optional? members "value" some }

/-- A filter from a value; every part may be missing. -/
def decode (value : Json) : Option Filter := decodeWithin (value.depth + 1) value

end Filter

end ViewCompiler
