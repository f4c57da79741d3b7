import ViewCompiler.Field.FieldSet
import ViewCompiler.Filter.Basic
import ViewCompiler.Filter.Predicate

/-!
# Views and their scopes

A `View` is a named, typed projection. An atomic view stands for one physical index family or
table; a custom view is composed by the nodes of its scope, a graph in which every node names its
inputs and one output node gives the result.

* `Engine`: the family of backends that a view runs on.
* `NodeConfig`: what a node does with its inputs.
* `View`, `Node`: the two refer to each other, because a view node holds its source view.
-/

namespace ViewCompiler

/-- The family of backends that a view runs on. -/
inductive Engine where
  /-- A search engine with time-partitioned indices that a resolver names. -/
  | indexBase
  /-- A search engine that is addressed by fixed names. -/
  | rawSearch
  /-- A gateway to SQL databases. -/
  | sql
  deriving DecidableEq, Repr, Inhabited

namespace Engine

/-- The name of an engine in view definitions. -/
def name : Engine → String
  | indexBase => "IndexBase"
  | rawSearch => "DSL"
  | sql => "SQL"

/-- The name of an engine in messages. -/
def label : Engine → String
  | indexBase => "IndexBase"
  | rawSearch => "Dsl"
  | sql => "Sql"

/-- The engine with a name. -/
def ofName? (text : String) : Option Engine :=
  [indexBase, rawSearch, sql].find? fun engine => engine.name = text

/-- Does the engine answer searches? -/
def isSearch : Engine → Bool
  | indexBase | rawSearch => true
  | sql => false

end Engine

/-- How a view comes about. -/
inductive ViewKind where
  /-- One physical index family or table. -/
  | atomic
  /-- The result of a scope. -/
  | custom
  deriving DecidableEq, Repr, Inhabited

/-- Which columns belong to a view. -/
inductive FieldScope where
  /-- Every column that the backend returns. -/
  | all
  /-- The declared fields. -/
  | declared
  deriving DecidableEq, Repr, Inhabited

/-- What a node does. -/
inductive NodeKind where
  | view
  | join
  | union
  | sql
  | output
  deriving DecidableEq, Repr, Inhabited

namespace NodeKind

/-- The name of a kind. -/
def name : NodeKind → String
  | view => "view"
  | join => "join"
  | union => "union"
  | sql => "sql"
  | output => "output"

/-- The kind with a name. -/
def ofName? (text : String) : Option NodeKind :=
  [view, join, union, sql, output].find? fun kind => kind.name = text

end NodeKind

/-- A request for distinct rows. -/
structure Distinct where
  /-- Are only distinct rows wanted? -/
  enabled : Bool := false
  /-- The fields that tell rows apart; all of them if there is none. -/
  fields : List String := []
  deriving DecidableEq, Repr, Inhabited

/-- The rows that a join keeps. -/
inductive JoinKind where
  | inner
  | left
  | right
  | fullOuter
  deriving DecidableEq, Repr, Inhabited

namespace JoinKind

/-- The name of a kind in view definitions. -/
def name : JoinKind → String
  | inner => "inner"
  | left => "left"
  | right => "right"
  | fullOuter => "full outer"

/-- The keyword of a kind. -/
def keyword : JoinKind → String
  | inner => "INNER"
  | left => "LEFT"
  | right => "RIGHT"
  | fullOuter => "FULL OUTER"

/-- The kind with a name. -/
def ofName? (text : String) : Option JoinKind :=
  [inner, left, right, fullOuter].find? fun kind => kind.name = text

end JoinKind

/-- A pair of fields that a join compares. -/
structure JoinKey where
  /-- The field of the first input. -/
  left : String
  /-- The field of the second input. -/
  right : String
  /-- How they are compared. -/
  operator : String := "="
  deriving DecidableEq, Repr, Inhabited

/-- The rows that a union keeps. -/
inductive UnionKind where
  | all
  | distinct
  deriving DecidableEq, Repr, Inhabited

namespace UnionKind

/-- The name of a kind in view definitions. -/
def name : UnionKind → String
  | all => "all"
  | distinct => "distinct"

/-- The keywords of a kind. -/
def keyword : UnionKind → String
  | all => "UNION ALL"
  | distinct => "UNION DISTINCT"

/-- The kind with a name. -/
def ofName? (text : String) : Option UnionKind :=
  [all, distinct].find? fun kind => kind.name = text

end UnionKind

/-- Where a branch of a union takes one output column from. -/
structure UnionColumn where
  /-- A field of the input, or a text. -/
  field : String
  /-- `const` if the field is a text; anything else if it names a column. -/
  valueFrom : String := ""
  deriving DecidableEq, Repr, Inhabited

/-- Is the column a text? -/
def UnionColumn.isConstant (column : UnionColumn) : Bool := column.valueFrom = Filter.constant

mutual

/-- A named, typed projection over physical stores. -/
structure View where
  id : String
  name : String := ""
  /-- The base type of a search view, or the name of the backend for the view. -/
  technicalName : String := ""
  /-- The table of an atomic SQL view. -/
  metaTableName : String := ""
  /-- The statement that stands in for the generated one. -/
  storedSql : Option String := none
  dataSourceId : String := ""
  kind : ViewKind := .atomic
  engine : Engine := .indexBase
  fields : FieldSet := FieldSet.empty
  /-- The nodes of a custom view. -/
  scope : List Node := []
  fieldScope : FieldScope := .declared
  /-- Has a check met a node with an SQL expression? -/
  hasSqlNode : Bool := false
  /-- Has a check met an expression that selects every column? -/
  hasStar : Bool := false
  /-- Has a check found that all sources lie in one place? -/
  isSingleSource : Bool := false

/-- A node of a scope. -/
structure Node where
  id : String
  /-- The nodes whose results it reads. -/
  inputs : List String := []
  config : NodeConfig
  /-- The fields of its result. -/
  outputFields : FieldSet := FieldSet.empty
  /-- The fields of its rows as compiled to SQL. -/
  lineage : Option FieldSet := none

/-- What a node does with its inputs. -/
inductive NodeConfig where
  /-- Reads an atomic view, which may have been loaded. -/
  | view (viewId : String) (filter : Option Filter) (distinct : Distinct) (source : Option View)
  /-- Joins two inputs. -/
  | join (kind : JoinKind) (keys : List JoinKey) (filter : Option Filter) (distinct : Distinct)
  /-- Stacks its inputs; one list of columns for each. -/
  | union (kind : UnionKind) (columns : List (List UnionColumn)) (filter : Option Filter)
  /-- Runs an SQL expression over its inputs. -/
  | sql (expression : String)
  /-- Gives the result of the scope. -/
  | output

end

instance : Inhabited NodeConfig := ⟨.output⟩

instance : Inhabited Node := ⟨{ id := "", config := .output }⟩

instance : Inhabited View := ⟨{ id := "" }⟩

/-- What a node of this configuration does. -/
def NodeConfig.kind : NodeConfig → NodeKind
  | .view .. => .view
  | .join .. => .join
  | .union .. => .union
  | .sql _ => .sql
  | .output => .output

namespace Node

/-- What the node does. -/
def kind (node : Node) : NodeKind := node.config.kind

/-- The source of a view node, if it has been loaded. -/
def source? (node : Node) : Option View :=
  match node.config with
  | .view _ _ _ source => source
  | _ => none

end Node

namespace View

/-- An atomic view over one physical index family or table. -/
def atomic (id technicalName : String) (engine : Engine) : View :=
  { id, technicalName, metaTableName := technicalName, engine }

/-- Is the view atomic? -/
def isAtomic (view : View) : Bool := view.kind = .atomic

/-- How a search addresses the fields of the view. -/
def addressing (view : View) : Addressing :=
  match view.kind with
  | .atomic => .byName
  | .custom => .bySource

/-- The first node with an id. -/
def node? (view : View) (id : String) : Option Node := view.scope.find? fun node => node.id = id

/-- The first output node. -/
def outputNode? (view : View) : Option Node :=
  view.scope.find? fun node => node.kind = .output

/-- The view nodes, in order. -/
def viewNodes (view : View) : List Node := view.scope.filter fun node => node.kind = .view

end View

end ViewCompiler
