import ViewCompiler.Field.DataType

/-!
# Fields

A `Field` is a named, typed column that a view or a scope node exposes. `Field.sourceName` is the
physical column it reads, `Field.path` its name as a path into a document.
-/

namespace ViewCompiler

/-- The kind of an auxiliary index of a field. -/
inductive Field.FeatureKind where
  | keyword
  | fulltext
  | vector
  deriving DecidableEq, Repr, Inhabited

namespace Field.FeatureKind

/-- The name of a kind. -/
def name : FeatureKind → String
  | keyword => "keyword"
  | fulltext => "fulltext"
  | vector => "vector"

/-- The kind with a name. -/
def ofName? (text : String) : Option FeatureKind :=
  [keyword, fulltext, vector].find? fun kind => kind.name = text

/-- A kind from its name. -/
def decode (value : Json) : Option FeatureKind := value.tag?.bind ofName?

end Field.FeatureKind

/-- An auxiliary index of a field. -/
structure Field.Feature where
  /-- The kind of the index. -/
  kind : Field.FeatureKind
  /-- The field that the index refers to. -/
  refField : Option String := none
  deriving DecidableEq, Repr, Inhabited

namespace Field.Feature

/-- The feature as a value. -/
def encode (feature : Feature) : Json :=
  .ofOptionalMembers
    [("type", some (.string feature.kind.name)), ("ref_field", feature.refField.map .string)]

/-- A feature from a value. -/
def decode (value : Json) : Option Feature := do
  let members ← value.record? ["type", "ref_field"] 1
  return {
    kind := ← Json.required? members "type" FeatureKind.decode
    refField := ← Json.optional? members "ref_field" Json.string? }

end Field.Feature

/-- A named, typed column. -/
structure Field where
  /-- The name under which the column is exposed. -/
  name : String
  /-- The physical column, if it has another name. -/
  originalName : String := ""
  /-- The name shown to people. -/
  displayName : String := ""
  /-- The logical type. -/
  type : DataType := .unknown
  /-- A remark. -/
  comment : String := ""
  /-- The auxiliary indices. -/
  features : List Field.Feature := []
  deriving DecidableEq, Repr, Inhabited

namespace Field

/-- A field whose physical column and display name are its own name. -/
def ofName (name : String) (type : DataType) : Field :=
  { name, originalName := name, displayName := name, type }

/-- The field with one more feature. -/
def withFeature (field : Field) (kind : FeatureKind) : Field :=
  { field with features := field.features ++ [{ kind }] }

/-- The physical column that the field reads. -/
def sourceName (field : Field) : String :=
  if field.originalName = "" then field.name else field.originalName

/-- The name as a path: its parts between the dots. -/
def path (field : Field) : List String := (Text.splitOn '.' field.name.toList).map String.ofList

/-- Has the field an auxiliary index of this kind? -/
def hasFeature (field : Field) (kind : FeatureKind) : Bool :=
  field.features.any fun feature => feature.kind = kind

/-- The field as a value; a remark and features are left out when there are none. -/
def encode (field : Field) : Json :=
  .ofOptionalMembers
    [("name", some (.string field.name)),
      ("original_name", some (.string field.originalName)),
      ("display_name", some (.string field.displayName)),
      ("type", some field.type.encode),
      ("comment", if field.comment = "" then none else some (.string field.comment)),
      ("features",
        if field.features.isEmpty then none else some (.array (field.features.map Feature.encode)))]

/-- The members of a field, in their order. -/
def memberNames : List String :=
  ["name", "original_name", "display_name", "type", "comment", "features"]

/-- A field from a value; only its name must be there. -/
def decode (value : Json) : Option Field := do
  let members ← value.record? memberNames 1
  return {
    name := ← Json.required? members "name" Json.string?
    originalName := ← Json.orElse? members "original_name" "" Json.string?
    displayName := ← Json.orElse? members "display_name" "" Json.string?
    type := ← Json.orElse? members "type" .unknown DataType.decode
    comment := ← Json.orElse? members "comment" "" Json.string?
    features := ← Json.orElse? members "features" [] (Json.list? Feature.decode) }

end Field

end ViewCompiler
