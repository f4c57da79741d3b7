import ViewCompiler.Readers.Basic
import ViewCompiler.Sql.Quote
import ViewCompiler.Sql.Template

/-!
# What an SQL expression projects

* `Projection`: the columns that a query selects, with their names and labels.
* `Projection.ofExpression`: the projection of an expression with placeholders. The placeholders
  stand for relations of their own names, the expression must be one or more statements, and the
  left-most `SELECT` of the first one counts.
-/

namespace ViewCompiler

/-- A column that a query selects. -/
structure ProjectedColumn where
  /-- The column, or the normal text of an expression. -/
  name : String
  /-- The name that the query gives it. -/
  label : Option String := none
  deriving DecidableEq, Repr, Inhabited

/-- The name of the column in the result. -/
def ProjectedColumn.output (column : ProjectedColumn) : String := column.label.getD column.name

/-- The columns that a query selects. -/
structure Projection where
  /-- The columns that are named, in order. -/
  columns : List ProjectedColumn := []
  /-- Does the query also select every column of a relation? -/
  hasStar : Bool := false
  deriving DecidableEq, Repr, Inhabited

/-- A cause why an expression has no projection. -/
inductive ProjectionError where
  /-- The text is not SQL. -/
  | unreadable
  /-- A placeholder is wrong. -/
  | template (cause : TemplateError)
  /-- The text is blank. -/
  | empty
  /-- The first statement selects nothing. -/
  | notAQuery
  deriving DecidableEq, Repr, Inhabited

/-- The wording of a cause. -/
def ProjectionError.message : ProjectionError → String
  | unreadable => "failed to parse SQL: the text does not fit the grammar"
  | template cause => cause.message
  | empty => "SQL expression is empty"
  | notAQuery => "SQL expression is not a SELECT query"

namespace Projection

/-- The column of an item; an item that selects every column of a relation has none. -/
def column? : Sql.SelectItem → Option ProjectedColumn
  | .star _ => none
  | .expr term label _ => some ⟨term.column.getD term.text, label⟩

/-- The projection of a list of items. -/
def ofItems (items : List Sql.SelectItem) : Projection where
  columns := items.filterMap column?
  hasStar := items.any fun item => (column? item).isNone

/-- The projection of statements: that of the first one. -/
def ofStatements? : List (Option Sql.Selection) → Option Projection
  | some selection :: _ => selection.items.map ofItems
  | _ => none

/-- The projection of an expression. -/
def ofExpression [Readers] (expression : String) : Except ProjectionError Projection :=
  if (Text.trim expression.toList).isEmpty then .error .empty
  else match Template.render (fun id => .ok (Sql.quoteIdent id)) expression with
    | .error cause => .error (.template cause)
    | .ok sql =>
      match Readers.statements? sql with
      | none => .error .unreadable
      | some statements =>
        match ofStatements? statements with
        | none => .error .notAQuery
        | some projection => .ok projection

end Projection

end ViewCompiler
