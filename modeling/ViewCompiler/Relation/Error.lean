import ViewCompiler.Filter.Error
import ViewCompiler.Sql.Template
import ViewCompiler.View.Basic

/-!
# Why a view is not compiled

* `NodeFault`: why one node of a scope is not compiled.
* `CompileError`: why a view is not compiled.
-/

namespace ViewCompiler

/-- A cause why a node is not compiled. -/
inductive NodeFault where
  /-- The node reads its own result. -/
  | cycle
  | unloadedSource (view : String)
  | noTable
  | filter (cause : FilterError)
  | distinctField (field : String)
  | joinInputs (count : Nat)
  | noJoinKeys
  | leftField (field input : String)
  | rightField (field input : String)
  | unionInputs (count : Nat)
  | mappingCount (mappings inputs : Nat)
  | mappingLength (input : String) (length expected : Nat)
  | mappedField (field input : String)
  | sqlInputs
  | template (cause : TemplateError)
  | outputInputs (count : Nat)
  /-- A search can only stack all rows. -/
  | distinctUnion
  /-- A search has no such nodes. -/
  | unsupported (kind : NodeKind)
  deriving DecidableEq, Repr, Inhabited

namespace NodeFault

/-- The wording of a cause. -/
def message : NodeFault → String
  | cycle => "node is reachable from itself"
  | unloadedSource view => s!"source view '{view}' is not loaded"
  | noTable => "source view has no table"
  | filter cause => cause.message
  | distinctField field => s!"distinct field '{field}' is not an output field"
  | joinInputs count => s!"join node requires 2 inputs, got {count}"
  | noJoinKeys => "join node has no join keys"
  | leftField field input => s!"left field '{field}' not found in node '{input}'"
  | rightField field input => s!"right field '{field}' not found in node '{input}'"
  | unionInputs count => s!"union node requires at least 2 inputs, got {count}"
  | mappingCount mappings inputs => s!"union node has {mappings} field mappings for {inputs} inputs"
  | mappingLength input length expected =>
    s!"mapping for input '{input}' has {length} fields, expected {expected}"
  | mappedField field input => s!"field '{field}' not found in node '{input}'"
  | sqlInputs => "sql node requires at least 1 input"
  | template cause => cause.message
  | outputInputs count => s!"output node requires 1 input, got {count}"
  | distinctUnion => "search views only support union all"
  | unsupported kind => s!"{kind.name} node is not supported for search views"

end NodeFault

/-- A cause why a view is not compiled. -/
inductive CompileError where
  | noOutputNode
  | unknownNode (id : String)
  | noTable (view : String)
  | noViewNode
  /-- An index has a base type that no node reads. -/
  | unreadIndex (index baseType : String)
  /-- A node is not compiled. -/
  | node (id : String) (fault : NodeFault)
  deriving DecidableEq, Repr, Inhabited

namespace CompileError

/-- The wording of a cause. -/
def message : CompileError → String
  | noOutputNode => "data scope has no output node"
  | unknownNode id => s!"node '{id}' not found in data scope"
  | noTable view => s!"view '{view}' has no table"
  | noViewNode => "data scope has no view node"
  | unreadIndex index baseType => s!"index '{index}' has base type '{baseType}' which no node reads"
  | node _ fault => fault.message

/-- The node that is not compiled. -/
def node? : CompileError → Option String
  | node id _ => some id
  | _ => none

end CompileError

end ViewCompiler
