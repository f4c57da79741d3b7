import ViewCompiler.Field.FieldSet
import ViewCompiler.Filter.Basic
import ViewCompiler.Filter.Error
import ViewCompiler.Json.Printer

/-!
# Predicates

A `Predicate` is a filter whose operators are known and whose field names are resolved to columns.
`Predicate.ofFilter` builds it; the search clause and the SQL condition of a filter are both
written from it.

An atomic relation is addressed by the names of its fields, a composed one by the columns that
its fields read.
-/

namespace ViewCompiler

/-- How the fields of a relation are addressed in the search backend. -/
inductive Addressing where
  /-- By the name of the field. -/
  | byName
  /-- By the column that the field reads. -/
  | bySource
  deriving DecidableEq, Repr, Inhabited

/-- A field that a predicate tests. -/
structure Column where
  /-- The name in the search backend. -/
  path : String
  /-- The name in SQL. -/
  column : String
  /-- The type of the field. -/
  type : DataType
  /-- Has the field a keyword index? -/
  keyword : Bool
  deriving DecidableEq, Repr, Inhabited

namespace Column

/-- The column of a field. -/
def ofField (addressing : Addressing) (field : Field) : Column :=
  { path := match addressing with
      | .byName => field.name
      | .bySource => field.sourceName
    column := field.sourceName
    type := field.type
    keyword := field.hasFeature .keyword }

/-- The column that stands for every field. -/
def all : Column := ⟨Filter.allFields, Filter.allFields, .unknown, false⟩

/-- The column that a name leads to. -/
def resolve (addressing : Addressing) (fields : FieldSet) (name : String) :
    Except FilterError Column :=
  if name = Filter.allFields then .ok all
  else match fields.get? name with
    | some field => .ok (ofField addressing field)
    | none => .error (.fieldNotFound name)

/-- Where an exact comparison looks: analysed text is compared on its keyword index. -/
def exactPath (column : Column) : String :=
  if column.type.isText && column.keyword then column.path ++ ".keyword" else column.path

end Column

/-- A leaf of a predicate. -/
structure Comparison where
  /-- What is tested. -/
  column : Column
  /-- How it is tested. -/
  operator : Operator
  /-- The operator as the filter names it. -/
  operation : String
  /-- What it is compared with. -/
  value : Json
  deriving Inhabited

/-- A filter with resolved operators and columns. -/
inductive Predicate where
  | all (parts : List Predicate)
  | any (parts : List Predicate)
  | leaf (comparison : Comparison)
  deriving Inhabited

namespace Predicate

mutual

/-- The predicate of a filter; empty children are left out. -/
def ofFilter (addressing : Addressing) (fields : FieldSet) : Filter → Except FilterError Predicate
  | ⟨field, operation, children, _, value⟩ =>
    match Operator.ofName? operation with
    | none => .error (.unsupportedOperation operation)
    | some .all => (ofFilters addressing fields children).map .all
    | some .any => (ofFilters addressing fields children).map .any
    | some operator =>
      (Column.resolve addressing fields field).map fun column =>
        .leaf { column, operator, operation, value := value.getD .null }

/-- The predicates of the filters that are not empty. -/
def ofFilters (addressing : Addressing) (fields : FieldSet) :
    List Filter → Except FilterError (List Predicate)
  | [] => .ok []
  | filter :: rest =>
    if filter.isEmpty then ofFilters addressing fields rest
    else do
      let part ← ofFilter addressing fields filter
      let parts ← ofFilters addressing fields rest
      return part :: parts

end

mutual

/-- Does a full-text operator occur in the predicate? -/
def needsScoring : Predicate → Bool
  | .all parts => anyNeedsScoring parts
  | .any parts => anyNeedsScoring parts
  | .leaf comparison => comparison.operator.isScoring

/-- Does a full-text operator occur in one of the predicates? -/
def anyNeedsScoring : List Predicate → Bool
  | [] => false
  | part :: rest => needsScoring part || anyNeedsScoring rest

end

/-- The two bounds of a range; a bound that is missing is `null`. -/
def bounds (value : Json) : Json × Json :=
  let items := value.items?.getD []
  (items[0]?.getD .null, items[1]?.getD .null)

/-- The amount and the unit of a time offset; the unit is days unless it is given. -/
def offset (value : Json) : String × String :=
  let (amount, unit) := bounds value
  (amount.compact, unit.string?.getD "d")

end Predicate

end ViewCompiler
