import ViewCompiler.View.Basic
import ViewCompiler.Json.Schema

/-!
# Views as values

* `View.encode`, `Node.encode`: views and nodes as values. What checks and compilation have found
  out about a view is no part of its definition.
* `View.decode`, `Node.decode`: views and nodes from values. The configuration of a node is read
  as its type asks; that of an output node does not matter.
* `View.ofText?`: a view from a text.
-/

namespace ViewCompiler

namespace ViewKind

/-- The name of a kind. -/
def name : ViewKind → String
  | atomic => "atomic"
  | custom => "custom"

/-- A kind from its name. -/
def decode (value : Json) : Option ViewKind :=
  value.tag?.bind fun text => [atomic, custom].find? fun kind => kind.name = text

end ViewKind

namespace FieldScope

/-- The name of a field scope. -/
def name : FieldScope → String
  | all => "all"
  | declared => "custom"

/-- A field scope from its name. -/
def decode (value : Json) : Option FieldScope :=
  value.tag?.bind fun text => [all, declared].find? fun scope => scope.name = text

end FieldScope

/-- An engine from its name. -/
def Engine.decode (value : Json) : Option Engine := value.tag?.bind ofName?

/-- The kind of a node from its name. -/
def NodeKind.decode (value : Json) : Option NodeKind := value.tag?.bind ofName?

/-- The kind of a join from its name. -/
def JoinKind.decode (value : Json) : Option JoinKind := value.tag?.bind ofName?

/-- The kind of a union from its name. -/
def UnionKind.decode (value : Json) : Option UnionKind := value.tag?.bind ofName?

namespace Distinct

/-- The request as a value. -/
def encode (distinct : Distinct) : Json :=
  .ofMembers [("enable", .bool distinct.enabled), ("fields", .strings distinct.fields)]

/-- A request from a value. -/
def decode (value : Json) : Option Distinct := do
  let members ← value.record? ["enable", "fields"] 0
  return {
    enabled := ← Json.orElse? members "enable" false Json.bool?
    fields := ← Json.orElse? members "fields" [] Json.strings? }

end Distinct

namespace JoinKey

/-- The pair as a value. -/
def encode (key : JoinKey) : Json :=
  .ofMembers
    [("left_field", .string key.left), ("right_field", .string key.right),
      ("operator", .string key.operator)]

/-- A pair from a value. -/
def decode (value : Json) : Option JoinKey := do
  let members ← value.record? ["left_field", "right_field", "operator"] 2
  return {
    left := ← Json.required? members "left_field" Json.string?
    right := ← Json.required? members "right_field" Json.string?
    operator := ← Json.orElse? members "operator" "=" Json.string? }

end JoinKey

namespace UnionColumn

/-- The column as a value. -/
def encode (column : UnionColumn) : Json :=
  .ofMembers [("field", .string column.field), ("value_from", .string column.valueFrom)]

/-- A column from a value. -/
def decode (value : Json) : Option UnionColumn := do
  let members ← value.record? ["field", "value_from"] 1
  return {
    field := ← Json.required? members "field" Json.string?
    valueFrom := ← Json.orElse? members "value_from" "" Json.string? }

end UnionColumn

/-! ### Writing -/

mutual

/-- The view as a value; a stored statement and nodes are left out when there are none. -/
def View.encode : View → Json
  | ⟨id, name, technicalName, metaTableName, storedSql, dataSourceId, kind, engine, fields, scope,
      fieldScope, _, _, _⟩ =>
    .ofOptionalMembers
      [("id", some (.string id)),
        ("name", some (.string name)),
        ("technical_name", some (.string technicalName)),
        ("meta_table_name", some (.string metaTableName)),
        ("sql_str", storedSql.map .string),
        ("data_source_id", some (.string dataSourceId)),
        ("type", some (.string kind.name)),
        ("query_type", some (.string engine.name)),
        ("fields", some fields.encode),
        ("data_scope", if scope.isEmpty then none else some (.array (Node.encodeAll scope))),
        ("field_scope", some (.string fieldScope.name))]

/-- The node as a value. -/
def Node.encode : Node → Json
  | ⟨id, inputs, config, outputFields, _⟩ =>
    .ofMembers
      [("id", .string id),
        ("type", .string config.kind.name),
        ("input_nodes", .strings inputs),
        ("config", config.encode),
        ("output_fields", outputFields.encode)]

/-- The nodes as values. -/
def Node.encodeAll : List Node → List Json
  | [] => []
  | node :: rest => node.encode :: Node.encodeAll rest

/-- The configuration as a value. -/
def NodeConfig.encode : NodeConfig → Json
  | .view viewId filter distinct source =>
    .ofOptionalMembers
      [("view_id", some (.string viewId)),
        ("filters", filter.map Filter.encode),
        ("distinct", some distinct.encode),
        ("view", NodeConfig.encodeSource source)]
  | .join kind keys filter distinct =>
    .ofOptionalMembers
      [("join_type", some (.string kind.name)),
        ("join_on", some (.array (keys.map JoinKey.encode))),
        ("filters", filter.map Filter.encode),
        ("distinct", some distinct.encode)]
  | .union kind columns filter =>
    .ofOptionalMembers
      [("union_type", some (.string kind.name)),
        ("union_fields",
          some (.array (columns.map fun mapping => .array (mapping.map UnionColumn.encode)))),
        ("filters", filter.map Filter.encode)]
  | .sql expression => .ofMembers [("sql_expression", .string expression)]
  | .output => .object []

/-- The source of a view node as a value. -/
def NodeConfig.encodeSource : Option View → Option Json
  | none => none
  | some source => some source.encode

end

/-! ### Reading -/

/-- The members of a view, in their order. -/
def View.memberNames : List String :=
  ["id", "name", "technical_name", "meta_table_name", "sql_str", "data_source_id", "type",
    "query_type", "fields", "data_scope", "field_scope"]

/-- The members of a node, in their order. -/
def Node.memberNames : List String := ["id", "type", "input_nodes", "config", "output_fields"]

mutual

/-- A view from a value that nests less than `depth` deep. -/
def View.decodeWithin : Nat → Json → Option View
  | 0, _ => none
  | depth + 1, value => do
    let members ← value.record? View.memberNames 1
    return {
      id := ← Json.required? members "id" Json.string?
      name := ← Json.orElse? members "name" "" Json.string?
      technicalName := ← Json.orElse? members "technical_name" "" Json.string?
      metaTableName := ← Json.orElse? members "meta_table_name" "" Json.string?
      storedSql := ← Json.optional? members "sql_str" Json.string?
      dataSourceId := ← Json.orElse? members "data_source_id" "" Json.string?
      kind := ← Json.orElse? members "type" .atomic ViewKind.decode
      engine := ← Json.orElse? members "query_type" .indexBase Engine.decode
      fields := ← Json.orElse? members "fields" .empty FieldSet.decode
      scope := ← Json.orElse? members "data_scope" [] (Json.list? (Node.decodeWithin depth))
      fieldScope := ← Json.orElse? members "field_scope" .declared FieldScope.decode }

/-- A node from a value that nests less than `depth` deep. -/
def Node.decodeWithin : Nat → Json → Option Node
  | 0, _ => none
  | depth + 1, value => do
    let members ← value.record? Node.memberNames 2
    let kind ← Json.required? members "type" NodeKind.decode
    return {
      id := ← Json.required? members "id" Json.string?
      inputs := ← Json.orElse? members "input_nodes" [] Json.strings?
      config := ← NodeConfig.decodeWithin depth kind ((members.get? "config").getD .null)
      outputFields := ← Json.orElse? members "output_fields" .empty FieldSet.decode }

/-- The configuration of a node of a kind from a value that nests less than `depth` deep; no
configuration is one without members. -/
def NodeConfig.decodeWithin : Nat → NodeKind → Json → Option NodeConfig
  | 0, _, _ => none
  | depth + 1, kind, value => do
    let value := if value.isNull then .object [] else value
    match kind with
    | .view =>
      let members ← value.record? ["view_id", "filters", "distinct", "view"] 1
      return .view
        (← Json.required? members "view_id" Json.string?)
        (← Json.optional? members "filters" Filter.decode)
        (← Json.orElse? members "distinct" {} Distinct.decode)
        (← Json.optional? members "view" (View.decodeWithin depth))
    | .join =>
      let members ← value.record? ["join_type", "join_on", "filters", "distinct"] 1
      return .join
        (← Json.required? members "join_type" JoinKind.decode)
        (← Json.orElse? members "join_on" [] (Json.list? JoinKey.decode))
        (← Json.optional? members "filters" Filter.decode)
        (← Json.orElse? members "distinct" {} Distinct.decode)
    | .union =>
      let members ← value.record? ["union_type", "union_fields", "filters"] 1
      return .union
        (← Json.required? members "union_type" UnionKind.decode)
        (← Json.orElse? members "union_fields" [] (Json.list? (Json.list? UnionColumn.decode)))
        (← Json.optional? members "filters" Filter.decode)
    | .sql =>
      let members ← value.record? ["sql_expression"] 0
      return .sql (← Json.orElse? members "sql_expression" "" Json.string?)
    | .output => return .output

end

/-- A view from a value. -/
def View.decode (value : Json) : Option View := View.decodeWithin (value.depth + 1) value

/-- A node from a value. -/
def Node.decode (value : Json) : Option Node := Node.decodeWithin (value.depth + 2) value

/-! ### Texts -/

/-- The parts of a view that are read by name. -/
inductive View.Part where
  | view
  | fields
  | field
  | features
  | feature
  | scope
  | node
  | value
  deriving DecidableEq

/-- What is kept of each part of a view. -/
def View.Part.form : View.Part → Json.Form View.Part
  | .view => .record
      [⟨"id", .value, []⟩, ⟨"name", .value, []⟩, ⟨"technical_name", .value, []⟩,
        ⟨"meta_table_name", .value, []⟩, ⟨"sql_str", .value, []⟩, ⟨"data_source_id", .value, []⟩,
        ⟨"type", .value, []⟩, ⟨"query_type", .value, []⟩, ⟨"fields", .fields, []⟩,
        ⟨"data_scope", .scope, []⟩, ⟨"field_scope", .value, []⟩]
  | .fields => .list .field
  | .field => .record
      [⟨"name", .value, []⟩, ⟨"original_name", .value, []⟩, ⟨"display_name", .value, []⟩,
        ⟨"type", .value, []⟩, ⟨"comment", .value, []⟩, ⟨"features", .features, []⟩]
  | .features => .list .feature
  | .feature => .record [⟨"type", .value, []⟩, ⟨"ref_field", .value, []⟩]
  | .scope => .list .node
  | .node => .record
      [⟨"id", .value, []⟩, ⟨"type", .value, []⟩, ⟨"input_nodes", .value, []⟩,
        ⟨"config", .value, []⟩, ⟨"output_fields", .fields, []⟩]
  | .value => .free

/-- A view from a text. -/
def View.ofText? (text : String) : Option View :=
  (Json.parseAs? View.Part.form .view text).bind View.decode

end ViewCompiler
