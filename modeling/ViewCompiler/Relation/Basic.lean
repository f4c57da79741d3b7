import ViewCompiler.Filter.Condition
import ViewCompiler.Relation.Error

/-!
# Relations

A node of a scope is compiled to a `Relation`, a statement together with the fields of its rows.

* `View.table?`, `View.tableSql`: the table of an atomic view and the statement that reads it.
* `Recipe`: the compilation of a node as a sequence of requests for the relations of its inputs. A
  recipe does not say how these come about.
* `Node.recipe`: the recipe of a node.
-/

namespace ViewCompiler

/-- A statement and the fields of its rows. -/
structure Relation where
  /-- The statement. -/
  sql : String
  /-- The fields, under the names by which a reader knows them. -/
  fields : FieldSet
  deriving DecidableEq, Inhabited

namespace View

/-- The table of an atomic view. -/
def table? (view : View) : Option String :=
  [view.metaTableName, view.technicalName].find? (· ≠ "")

/-- The stored statement, unless it is blank. -/
def storedSql? (view : View) : Option String :=
  view.storedSql.filter fun sql => !(Text.trim sql.toList).isEmpty

/-- The statement that reads an atomic view. -/
def tableSql (view : View) : Except CompileError String :=
  match view.storedSql? with
  | some sql => .ok sql
  | none => match view.table? with
    | none => .error (.noTable view.id)
    | some table => .ok ("SELECT * FROM " ++ table)

end View

/-- The compilation of a node. -/
inductive Recipe where
  /-- It comes to an end. -/
  | done (result : Except CompileError Relation)
  /-- It needs the relation of an input to go on. -/
  | ask (input : String) (next : Relation → Recipe)

namespace Recipe

/-- The recipe that ends with a fault of a node. -/
def fail (id : String) (fault : NodeFault) : Recipe := .done (.error (.node id fault))

/-- Ask for the relations of all inputs, one after another. -/
def askAll : List String → (List (String × Relation) → Recipe) → Recipe
  | [], next => next []
  | input :: rest, next =>
    .ask input fun relation => askAll rest fun relations => next ((input, relation) :: relations)

/-- Follow a recipe where a request may change a state. -/
def run {σ : Type} (relationOf : String → σ → Except CompileError Relation × σ) :
    Recipe → σ → Except CompileError Relation × σ
  | .done result, state => (result, state)
  | .ask input next, state =>
    match relationOf input state with
    | (.error error, state) => (.error error, state)
    | (.ok relation, state) => (next relation).run relationOf state

/-- Follow a recipe where a request has a fixed answer. -/
def eval (relationOf : String → Except CompileError Relation) :
    Recipe → Except CompileError Relation
  | .done result => result
  | .ask input next =>
    match relationOf input with
    | .error error => .error error
    | .ok relation => (next relation).eval relationOf

end Recipe

/-! ### Parts of statements -/

namespace Relation

/-- The fields that distinct rows are told apart by, if a distinct projection is asked for. -/
def distinctFields (outputs : FieldSet) (distinct : Distinct) : Except NodeFault (List Field) :=
  if distinct.enabled then
    let names := if distinct.fields.isEmpty then outputs.names else distinct.fields
    names.mapM fun name => match outputs.get? name with
      | some field => .ok field
      | none => .error (.distinctField name)
  else .ok []

/-- The columns that fields read. -/
def columns (fields : List Field) : String :=
  Text.join ", " (fields.map fun field => Sql.quoteIdent field.sourceName)

/-- The columns of a relation: the distinct ones, or else the given ones. -/
def projection (outputs : FieldSet) (distinct : Distinct) (usual : String) :
    Except NodeFault String :=
  (distinctFields outputs distinct).map fun fields =>
    if fields.isEmpty then usual else "DISTINCT " ++ columns fields

/-- Every listed field, or every column if none is listed. -/
def listed (outputs : FieldSet) : String :=
  if outputs.isEmpty then "*" else columns outputs.fields

/-- The condition of a filter over fields. -/
def condition (addressing : Addressing) (fields : FieldSet) (filter : Option Filter) :
    Except NodeFault (Option String) :=
  (Filter.condition? addressing fields filter).mapError .filter

/-- The statement with a condition at its end, if there is one. -/
def withCondition (sql : String) : Option String → String
  | none => sql
  | some condition => sql ++ " WHERE " ++ condition

/-- The fields as columns of their own names. -/
def renamed (fields : FieldSet) : FieldSet :=
  .ofList (fields.fields.map fun field => { field with originalName := field.name })

/-! ### Nodes by kind -/

/-- The relation of a view node. -/
def ofView (outputs : FieldSet) (viewId : String) (filter : Option Filter) (distinct : Distinct) :
    Option View → Except NodeFault Relation
  | none => .error (.unloadedSource viewId)
  | some source =>
    match source.table? with
    | none => .error .noTable
    | some table => do
      let columns ← projection outputs distinct (listed outputs)
      let condition ← condition source.addressing source.fields filter
      return ⟨withCondition ("SELECT " ++ columns ++ " FROM " ++ table) condition, outputs⟩

/-- The comparison of a pair of fields of two relations. -/
def joinCondition (left right : FieldSet) (leftId rightId : String) (key : JoinKey) :
    Except NodeFault String :=
  match left.get? key.left with
  | none => .error (.leftField key.left leftId)
  | some l => match right.get? key.right with
    | none => .error (.rightField key.right rightId)
    | some r => .ok (Sql.quoteQualified "lft" l.sourceName ++ " = " ++
        Sql.quoteQualified "rgt" r.sourceName)

/-- The relation of a join of two relations. -/
def ofJoin (outputs : FieldSet) (kind : JoinKind) (keys : List JoinKey) (filter : Option Filter)
    (distinct : Distinct) (leftId rightId : String) (left right : Relation) :
    Except NodeFault Relation := do
  let conditions ← keys.mapM (joinCondition left.fields right.fields leftId rightId)
  let columns ← projection outputs distinct "*"
  let condition ← condition .bySource outputs filter
  let sql := "SELECT " ++ columns ++ " FROM (" ++ left.sql ++ ") AS lft " ++ kind.keyword ++
    " JOIN (" ++ right.sql ++ ") AS rgt ON " ++ Text.join " AND " conditions
  return ⟨withCondition sql condition, outputs⟩

/-- A column of a union as a branch gives it. -/
def unionColumn (input : String) (fields : FieldSet) (output : Field) (column : UnionColumn) :
    Except NodeFault String :=
  if column.isConstant then
    .ok (Sql.quoteString column.field ++ " AS " ++ Sql.quoteIdent output.name)
  else match fields.get? column.field with
    | none => .error (.mappedField column.field input)
    | some source =>
      .ok (Sql.quoteIdent source.sourceName ++ " AS " ++ Sql.quoteIdent output.name)

/-- A branch of a union: the columns of one input under the names of the output. -/
def unionBranch (outputs : FieldSet) (number : Nat) (input : String) (columns : List UnionColumn)
    (relation : Relation) : Except NodeFault String := do
  let columns ← (outputs.fields.zip columns).mapM fun (output, column) =>
    unionColumn input relation.fields output column
  return "SELECT " ++ Text.join ", " columns ++ " FROM (" ++ relation.sql ++ ") AS t" ++
    toString number

/-- The relation of a union of branches. -/
def ofUnion (outputs : FieldSet) (kind : UnionKind) (filter : Option Filter)
    (branches : List String) : Except NodeFault Relation := do
  let fields := renamed outputs
  let sql := Text.join (" " ++ kind.keyword ++ " ") branches
  let condition ← condition .bySource fields filter
  return ⟨match condition with
    | none => sql
    | some condition => "SELECT * FROM (" ++ sql ++ ") AS union_result WHERE " ++ condition, fields⟩

/-- The text that a placeholder stands for: the statement of a named relation in parentheses. -/
def placeholderSql (relations : List (String × Relation)) (id : String) :
    Except TemplateError String :=
  match relations.find? fun entry => entry.1 = id with
  | none => .error (.unknownNode id)
  | some (_, relation) => .ok ("(" ++ relation.sql ++ ")")

/-- The relation of an SQL expression over named relations. -/
def ofExpression (outputs : FieldSet) (expression : String)
    (relations : List (String × Relation)) : Except NodeFault Relation :=
  match Template.render (placeholderSql relations) expression with
  | .error cause => .error (.template cause)
  | .ok sql => .ok ⟨sql, renamed outputs⟩

end Relation

/-! ### Recipes of nodes -/

namespace Node

/-- The recipe that ends with a relation or a fault of the node. -/
def finish (node : Node) (result : Except NodeFault Relation) : Recipe :=
  .done (result.mapError (.node node.id))

/-- Ask for the inputs of a union and write a branch for each, from a number on. -/
def branches (node : Node) (number : Nat) :
    List (String × List UnionColumn) → (List String → Recipe) → Recipe
  | [], next => next []
  | (input, columns) :: rest, next =>
    if columns.length ≠ node.outputFields.size then
      .fail node.id (.mappingLength input columns.length node.outputFields.size)
    else .ask input fun relation =>
      match Relation.unionBranch node.outputFields number input columns relation with
      | .error fault => .fail node.id fault
      | .ok branch => node.branches (number + 1) rest fun found => next (branch :: found)

/-- The recipe of a node. -/
def recipe (node : Node) : Recipe :=
  let outputs := node.outputFields
  match node.config with
  | .view viewId filter distinct source =>
    node.finish (Relation.ofView outputs viewId filter distinct source)
  | .join kind keys filter distinct =>
    match node.inputs with
    | [left, right] =>
      if keys.isEmpty then .fail node.id .noJoinKeys
      else .ask left fun l => .ask right fun r =>
        node.finish (Relation.ofJoin outputs kind keys filter distinct left right l r)
    | inputs => .fail node.id (.joinInputs inputs.length)
  | .union kind mappings filter =>
    if node.inputs.length < 2 then .fail node.id (.unionInputs node.inputs.length)
    else if mappings.length ≠ node.inputs.length then
      .fail node.id (.mappingCount mappings.length node.inputs.length)
    else node.branches 1 (node.inputs.zip mappings) fun found =>
      node.finish (Relation.ofUnion outputs kind filter found)
  | .sql expression =>
    if node.inputs.isEmpty then .fail node.id .sqlInputs
    else .askAll node.inputs fun relations =>
      node.finish (Relation.ofExpression outputs expression relations)
  | .output =>
    match node.inputs with
    | [input] => .ask input fun relation =>
        node.finish (.ok { relation with
          fields := if outputs.isEmpty then relation.fields else outputs })
    | inputs => .fail node.id (.outputInputs inputs.length)

end Node

end ViewCompiler
