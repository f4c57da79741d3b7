import ViewCompiler.Filter.Error
import ViewCompiler.Sql.Projection
import ViewCompiler.View.Basic

/-!
# Why a view is refused

* `NodeDefect`: what is wrong with one node of a scope.
* `ViewDefect`: what is wrong with a view.
-/

namespace ViewCompiler

/-- What is wrong with a node of a scope. -/
inductive NodeDefect where
  | repeatedId
  | inputCount (kind : NodeKind) (count : Nat)
  | repeatedInput (input : String)
  | unknownInput (input : String)
  /-- The node reads its own result. -/
  | cycle
  | unloadedSource
  | composedSource (view : String)
  /-- The source runs on another engine than the sources before. -/
  | mixedEngines (view : String) (engine others : Engine)
  | filter (cause : FilterError)
  | distinctSearch
  | distinctField (field : String)
  /-- The source has no such field. -/
  | sourceField (field view : String)
  | noJoinKeys
  | unnamedJoinKey
  | joinOperator (operator : String)
  | repeatedJoinKey (left right : String)
  | joinField (field input : String)
  /-- A search can only stack all rows. -/
  | distinctUnion
  | mappingCount (mappings inputs : Nat)
  | mappingLength (input : String) (length expected : Nat)
  | repeatedMapping (field input : String)
  | mappedField (field input : String)
  | sqlSearch
  | emptySql
  | projection (cause : ProjectionError)
  | repeatedDisplayName (name : String)
  | repeatedOutput (field : String)
  deriving DecidableEq, Repr, Inhabited

namespace NodeDefect

/-- How many inputs a node of a kind takes. -/
def expectedInputs : NodeKind → String
  | .view => "no inputs"
  | .join => "exactly 2 inputs"
  | .union => "at least 2 inputs"
  | .sql => "at least 1 input"
  | .output => "exactly 1 input"

/-- The wording of a defect. -/
def message : NodeDefect → String
  | repeatedId => "duplicate node id"
  | inputCount kind count =>
    kind.name ++ " node requires " ++ expectedInputs kind ++ ", got " ++ toString count
  | repeatedInput input => s!"input node '{input}' is listed more than once"
  | unknownInput input => s!"input node '{input}' does not exist"
  | cycle => "data scope contains a cycle"
  | unloadedSource => "source view is not loaded"
  | composedSource view => s!"source view '{view}' is not atomic"
  | mixedEngines view engine others =>
    s!"source view '{view}' uses query type {engine.label}, other sources use {others.label}"
  | filter cause => cause.message
  | distinctSearch => "distinct is not supported for search views"
  | distinctField field => s!"distinct field '{field}' is not an output field"
  | sourceField field view => s!"output field '{field}' does not exist in source view '{view}'"
  | noJoinKeys => "join node has no join keys"
  | unnamedJoinKey => "join keys must name a field on both sides"
  | joinOperator operator => s!"join operator '{operator}' is not supported"
  | repeatedJoinKey left right => s!"join key {left} = {right} is repeated"
  | joinField field input => s!"join field '{field}' does not exist in node '{input}'"
  | distinctUnion => "search views only support union all"
  | mappingCount mappings inputs => s!"union node has {mappings} field mappings for {inputs} inputs"
  | mappingLength input length expected =>
    s!"mapping for input '{input}' has {length} fields, expected {expected}"
  | repeatedMapping field input => s!"field '{field}' is mapped twice from input '{input}'"
  | mappedField field input => s!"field '{field}' does not exist in node '{input}'"
  | sqlSearch => "sql nodes are only supported for SQL views"
  | emptySql => "sql expression is empty"
  | projection cause => cause.message
  | repeatedDisplayName name => s!"display name '{name}' is used more than once"
  | repeatedOutput field => s!"output field '{field}' is declared more than once"

end NodeDefect

/-- What is wrong with a view. -/
inductive ViewDefect where
  | emptyScope
  | tooManyNodes (count max : Nat)
  | unnamedNode
  | outputCount (count : Nat)
  | noViewNode
  | repeatedField (field : String)
  /-- A node of the scope has a defect. -/
  | node (id : String) (defect : NodeDefect)
  deriving DecidableEq, Repr, Inhabited

namespace ViewDefect

/-- The wording of a defect. -/
def message : ViewDefect → String
  | emptyScope => "data scope is empty"
  | tooManyNodes count max => s!"data scope has {count} nodes, at most {max} are allowed"
  | unnamedNode => "data scope node has an empty id"
  | outputCount count => s!"data scope must have exactly one output node, found {count}"
  | noViewNode => "data scope has no view node"
  | repeatedField field => s!"view field '{field}' is declared more than once"
  | node _ defect => defect.message

/-- The node that a defect lies in. -/
def node? : ViewDefect → Option String
  | node id _ => some id
  | _ => none

end ViewDefect

end ViewCompiler
