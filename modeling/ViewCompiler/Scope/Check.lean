import ViewCompiler.Filter.Legality
import ViewCompiler.Scope.Order
import ViewCompiler.Settings.Basic

/-!
# Checking views

A check goes through the nodes of a scope from the inputs to the output. It also completes the
view: nodes with an SQL expression get the fields that the expression projects, the fields of the
view default to those of the output node, and the columns are left open where they cannot be known.

* `Node.check`: the check of one node.
* `View.checkScope`: the check of a scope, with the view as far as it was completed.
* `View.check`: the same for a whole view.
* `View.checked`: the completed view, or the first defect.
-/

namespace ViewCompiler

namespace Node

/-- Fail with a defect unless the condition holds. -/
def require (condition : Bool) (defect : NodeDefect) : Except NodeDefect Unit :=
  if condition then .ok () else .error defect

/-- The fields of the node with an id. -/
def fieldsOf? (scope : List Node) (id : String) : Option FieldSet :=
  (scope.find? fun node => node.id = id).map Node.outputFields

/-- Has the node with an id the field? One whose fields are not known has every field. -/
def hasField (scope : List Node) (id field : String) : Bool :=
  match fieldsOf? scope id with
  | none => true
  | some fields => fields.isEmpty || fields.contains field

/-! ### Nodes by kind -/

/-- A view node reads a loaded source; its filter is legal there, and its fields are fields of the
source. -/
def checkView [Readers] (settings : QuerySettings) (engine : Engine) (outputs : FieldSet)
    (filter : Option Filter) (distinct : Distinct) (source : Option View) :
    Except NodeDefect Unit :=
  match source with
  | none => .error .unloadedSource
  | some source => do
    match filter with
    | none => pure ()
    | some filter => (filter.check source.fields settings.maxChildren).mapError .filter
    if distinct.enabled then
      require (!engine.isSearch) .distinctSearch
      match distinct.fields.find? fun name => !outputs.contains name with
      | some name => .error (.distinctField name)
      | none => pure ()
    match outputs.fields.find? fun field =>
        !source.fields.isEmpty && !source.fields.contains field.sourceName with
    | some field => .error (.sourceField field.sourceName source.id)
    | none => .ok ()

/-- A pair of a join compares two fields of the inputs for equality and is not repeated. -/
def checkJoinKey (scope : List Node) (left right : String) (seen : List (String × String))
    (key : JoinKey) : Except NodeDefect Unit := do
  require (key.left ≠ "" && key.right ≠ "") .unnamedJoinKey
  require (key.operator = "=") (.joinOperator key.operator)
  require (!seen.contains (key.left, key.right)) (.repeatedJoinKey key.left key.right)
  require (hasField scope left key.left) (.joinField key.left left)
  require (hasField scope right key.right) (.joinField key.right right)

/-- All the pairs of a join are right. -/
def checkJoinKeys (scope : List Node) (left right : String) (seen : List (String × String)) :
    List JoinKey → Except NodeDefect Unit
  | [] => .ok ()
  | key :: rest => do
    checkJoinKey scope left right seen key
    checkJoinKeys scope left right ((key.left, key.right) :: seen) rest

/-- A join compares at least one pair of fields. -/
def checkJoin (scope : List Node) (inputs : List String) (keys : List JoinKey) :
    Except NodeDefect Unit := do
  require (!keys.isEmpty) .noJoinKeys
  checkJoinKeys scope (inputs[0]?.getD "") (inputs[1]?.getD "") [] keys

/-- The columns that a union takes from an input are distinct fields of it. -/
def checkColumns (scope : List Node) (input : String) (seen : List String) :
    List UnionColumn → Except NodeDefect Unit
  | [] => .ok ()
  | column :: rest =>
    if column.isConstant then checkColumns scope input seen rest
    else do
      require (!seen.contains column.field) (.repeatedMapping column.field input)
      require (hasField scope input column.field) (.mappedField column.field input)
      checkColumns scope input (column.field :: seen) rest

/-- Every input of a union gives one column for each field. -/
def checkMappings (scope : List Node) (expected : Nat) :
    List (String × List UnionColumn) → Except NodeDefect Unit
  | [] => .ok ()
  | (input, columns) :: rest => do
    require (columns.length = expected) (.mappingLength input columns.length expected)
    checkColumns scope input [] columns
    checkMappings scope expected rest

/-- A union of a search stacks all rows; any other gives a mapping for every input. -/
def checkUnion (engine : Engine) (scope : List Node) (inputs : List String) (outputs : FieldSet)
    (kind : UnionKind) (mappings : List (List UnionColumn)) : Except NodeDefect Unit :=
  if engine.isSearch then require (kind = .all) .distinctUnion
  else do
    require (mappings.length = inputs.length) (.mappingCount mappings.length inputs.length)
    checkMappings scope outputs.size (inputs.zip mappings)

/-- The field of a projected column: the declared one of its name, if there is one. -/
def projectedField (declared : FieldSet) (column : ProjectedColumn) : Field :=
  let field := (declared.get? column.output).getD (.ofName column.output .unknown)
  { field with originalName := column.name }

/-- The fields that an SQL expression projects, and whether it also projects unnamed ones. -/
def projectedFields [Readers] (engine : Engine) (declared : FieldSet) (expression : String) :
    Except NodeDefect (FieldSet × Bool) := do
  require (engine = .sql) .sqlSearch
  require (!(Text.trim expression.toList).isEmpty) .emptySql
  let projection ← (Projection.ofExpression expression).mapError .projection
  return (.ofList (projection.columns.map (projectedField declared)), projection.hasStar)

/-- The names that the output shows to people are distinct. -/
def checkOutput (outputs : FieldSet) : Except NodeDefect Unit :=
  match outputs.duplicateDisplayNames with
  | [] => .ok ()
  | name :: _ => .error (.repeatedDisplayName name)

/-- What the configuration of the node asks for; a node with an SQL expression gives the fields
that it projects. -/
def checkConfig [Readers] (settings : QuerySettings) (engine : Engine) (scope : List Node)
    (node : Node) : Except NodeDefect (Option (FieldSet × Bool)) :=
  let nothing (result : Except NodeDefect Unit) : Except NodeDefect (Option (FieldSet × Bool)) :=
    result.map fun _ => none
  match node.config with
  | .view _ filter distinct source =>
    nothing (checkView settings engine node.outputFields filter distinct source)
  | .join _ keys _ _ => nothing (checkJoin scope node.inputs keys)
  | .union kind mappings _ =>
    nothing (checkUnion engine scope node.inputs node.outputFields kind mappings)
  | .sql expression => (projectedFields engine node.outputFields expression).map some
  | .output => nothing (checkOutput node.outputFields)

/-- The check of a node, whose declared fields must be distinct too. -/
def check [Readers] (settings : QuerySettings) (engine : Engine) (scope : List Node) (node : Node) :
    Except NodeDefect (Option (FieldSet × Bool)) := do
  let projected ← node.checkConfig settings engine scope
  match node.outputFields.duplicateNames with
  | [] => .ok projected
  | name :: _ => .error (.repeatedOutput name)

end Node

namespace View

/-! ### The scope -/

/-- The engine that a view node adds to those of the nodes before, which all agree. -/
def sharedEngine (shared : Option Engine) (node : Node) : Except ViewDefect (Option Engine) :=
  match node.config with
  | .view _ _ _ none => .error (.node node.id .unloadedSource)
  | .view _ _ _ (some source) =>
    if !source.isAtomic then .error (.node node.id (.composedSource source.id))
    else match shared with
      | none => .ok (some source.engine)
      | some engine =>
        if engine = source.engine then .ok shared
        else .error (.node node.id (.mixedEngines source.id source.engine engine))
  | _ => .ok shared

/-- The engine of all sources. -/
def sourceEngine (scope : List Node) : Except ViewDefect Engine := do
  match ← scope.foldlM sharedEngine none with
  | none => .error .noViewNode
  | some engine => .ok engine

/-- Do all sources lie in one place? -/
def inOnePlace (scope : List Node) : Bool :=
  match (scope.filterMap Node.source?).map View.dataSourceId with
  | [] => true
  | first :: rest => rest.all (· = first)

/-- The view with the fields that the node at a position projects. -/
def withProjected (view : View) (position : Nat) : Option (FieldSet × Bool) → View
  | none => view
  | some (fields, star) =>
    { view with
      scope := view.scope.modify position fun node => { node with outputFields := fields }
      hasSqlNode := true
      hasStar := view.hasStar || star }

/-- Check the nodes at the positions, one after another. -/
def checkNodes [Readers] (settings : QuerySettings) (engine : Engine) :
    List Nat → View → Except ViewDefect Unit × View
  | [], view => (.ok (), view)
  | position :: rest, view =>
    match view.scope[position]? with
    | none => checkNodes settings engine rest view
    | some node =>
      match node.check settings engine view.scope with
      | .error defect => (.error (.node node.id defect), view)
      | .ok projected => checkNodes settings engine rest (view.withProjected position projected)

/-- The order in which the nodes are checked and the engine of their sources. -/
def plan (settings : QuerySettings) (scope : List Node) :
    Except ViewDefect (List Nat × Engine) := do
  Scope.require (!scope.isEmpty) .emptyScope
  Scope.require (scope.length ≤ settings.maxNodes) (.tooManyNodes scope.length settings.maxNodes)
  let order ← Scope.order scope
  let engine ← sourceEngine scope
  return (order, engine)

/-- Check the scope of a view. -/
def checkScope [Readers] (settings : QuerySettings) (view : View) :
    Except ViewDefect Unit × View :=
  match plan settings view.scope with
  | .error defect => (.error defect, view)
  | .ok (order, engine) =>
    checkNodes settings engine order
      { view with engine, isSingleSource := inOnePlace view.scope }

/-! ### The view -/

/-- The fields of the output node, or else those of its input. -/
def scopeFields (view : View) : FieldSet :=
  match view.outputNode? with
  | none => .empty
  | some output =>
    if !output.outputFields.isEmpty then output.outputFields
    else (output.inputs.head?.bind (Node.fieldsOf? view.scope)).getD .empty

/-- The view of a checked scope with its fields, and with its columns left open if they are not
known. -/
def completed (view : View) : View :=
  let fields := if view.fields.isEmpty then view.scopeFields else view.fields
  { view with
    fields
    fieldScope := if view.hasStar || fields.isEmpty then .all else view.fieldScope }

/-- Are the fields of the view distinct? -/
def checkFields (view : View) : Except ViewDefect Unit :=
  match view.fields.duplicateNames with
  | [] => .ok ()
  | name :: _ => .error (.repeatedField name)

/-- Check a view, and give it as far as it was completed. -/
def check [Readers] (settings : QuerySettings) (view : View) : Except ViewDefect Unit × View :=
  if view.isAtomic then
    (view.checkFields, { view with isSingleSource := true })
  else match view.checkScope settings with
    | (.error defect, view) => (.error defect, view)
    | (.ok _, view) => (view.completed.checkFields, view.completed)

/-- The completed view, or its first defect. -/
def checked [Readers] (settings : QuerySettings) (view : View) : Except ViewDefect View :=
  match view.check settings with
  | (.ok _, view) => .ok view
  | (.error defect, _) => .error defect

end View

end ViewCompiler
