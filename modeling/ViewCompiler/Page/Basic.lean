import ViewCompiler.Page.Document
import ViewCompiler.Page.Payload
import ViewCompiler.Query.Pagination
import ViewCompiler.View.Codec

/-!
# Pages

A `Page` is what a caller gets: rows of a view with what he needs to ask for more.

* `Exposure`: the fields that a page exposes, after the access rules and the wishes of the caller.
* `Page.shapeAll`: shape every row; one row that fails is a failure of the page.
* `Page.ofSearch`: the page of an answer of a search engine.
* `Page.ofSql`: the page of an answer of the SQL gateway.
-/

namespace ViewCompiler

/-- A page of rows. -/
structure Page where
  rows : List Row := []
  /-- The number of all rows, if it was asked for. -/
  total : Option Nat := none
  scrollId : Option String := none
  pitId : Option String := none
  /-- Where the next page goes on. -/
  cursor : List Json := []
  /-- The view, if it was asked for. -/
  view : Option View := none
  deriving Inhabited

/-- The fields that a page exposes. -/
structure Exposure where
  fields : FieldSet
  /-- Has the caller named the fields? -/
  named : Bool := false
  /-- Is the index of a document told? -/
  withIndex : Bool := true
  /-- Is the score of a document told? -/
  withScore : Bool := true
  deriving Inhabited

namespace Exposure

/-- The key of the index of a document. -/
def indexKey : String := "__index"

/-- The key of the score of a document. -/
def scoreKey : String := "_score"

/-- The fields that the caller names among those that he may see; all of them if he names none. -/
def ofNames (fields : FieldSet) (names : List String) : Exposure :=
  if names.isEmpty then { fields }
  else
    let wanted := names.filter fun name => name ≠ indexKey && name ≠ scoreKey
    { fields := (wanted.filterMap fields.get?).foldl FieldSet.push .empty
      named := true
      withIndex := names.contains indexKey
      withScore := names.contains scoreKey }

/-- The exposure of rows that are no documents. -/
def withoutMeta (exposure : Exposure) : Exposure :=
  { exposure with withIndex := false, withScore := false }

/-- The document in the form that the caller wants, with the fields that the page exposes. -/
def shape (exposure : Exposure) (view : View) (format : Format) (document : Row) :
    Except RowError Row :=
  match format with
  | .flat =>
    .ok (document.flatten (if view.fieldScope = .all then none else some exposure.fields))
  | .original =>
    if (view.isAtomic || view.fieldScope = .all) && !exposure.named then .ok document
    else document.pick exposure.fields.fields

/-- The row of a hit. -/
def hitRow (exposure : Exposure) (view : View) (format : Format) (hit : Hit) :
    Except RowError Row :=
  match hit.source with
  | none => .error (.noSource hit.id)
  | some source =>
    (exposure.shape view format source).map fun row =>
      let row := if exposure.withIndex then row.insert indexKey (.string hit.index) else row
      if exposure.withScore then
        row.insert scoreKey (Json.ofOption (fun score => .number (.float score)) hit.score)
      else row

end Exposure

/-! ### Columns of the gateway -/

namespace SqlColumn

/-- The fields of columns: a name that has come before gets a number. -/
def fieldsFrom (before : List String) : List SqlColumn → List Field
  | [] => []
  | column :: rest =>
    let count := before.count column.name
    let name := if count = 0 then column.name else column.name ++ "_" ++ toString count
    { Field.ofName name (.ofBackend column.type) with originalName := column.name } ::
      fieldsFrom (column.name :: before) rest

/-- One field for each column. -/
def toFields (columns : List SqlColumn) : FieldSet := .ofList (fieldsFrom [] columns)

/-- The declared field that a column names, with the type of the column. -/
def typed? (declared : FieldSet) (column : SqlColumn) : Option Field :=
  (declared.get? column.name).map fun field => { field with type := .ofBackend column.type }

/-- The declared fields that the columns name, with the types of the columns. -/
def typedFields (declared : FieldSet) (columns : List SqlColumn) : FieldSet :=
  (columns.filterMap (typed? declared)).foldl FieldSet.push .empty

/-- The fields that read a column under names of their own. -/
def copies (fields : FieldSet) (column : String) : List Field :=
  fields.fields.filter fun field =>
    Text.startsWith (column ++ "_").toList field.name.toList && field.originalName = column

end SqlColumn

namespace Row

/-- The values of a row, each under the name of the field at its position. -/
def ofPositions : List Field → List SqlColumn → List Json → Row → Row
  | fields, column :: columns, value :: values, row =>
    let name := (fields.head?.map Field.name).getD column.name
    ofPositions fields.tail columns values (row.insert name value)
  | _, _, _, row => row

/-- The values of a row under the names of their columns; a column that has come before goes to the
fields that read it under names of their own. -/
def ofColumns (fields : FieldSet) : List SqlColumn → List Json → Row → Row
  | column :: columns, value :: values, row =>
    ofColumns fields columns values
      (if row.contains column.name then
        (SqlColumn.copies fields column.name).foldl
          (fun row field => row.insert field.name value) row
      else row.insert column.name value)
  | _, _, row => row

/-- A row of the gateway. -/
def ofSql (view : View) (columns : List SqlColumn) : Json → Except RowError Row
  | .array values =>
    .ok (if view.fieldScope = .all then ofPositions view.fields.fields columns values []
      else ofColumns view.fields columns values [])
  | _ => .error .notAnArray

end Row

/-! ### Pages -/

namespace Page

/-- The page without rows; its total is zero if one is wanted. -/
def empty (view : View) (query : Query) : Page where
  total := if query.needTotal then some 0 else none
  view := if query.includeView then some view else none

/-- The results of rows: all of them, or the number of failures and the first one. -/
def gather {ε α : Type} (word : ε → String) (results : List (Except ε α)) :
    Except QueryError (List α) :=
  let failures := results.filterMap fun result =>
    match result with
    | .error error => some error
    | .ok _ => none
  match failures with
  | [] => .ok (results.filterMap Except.toOption)
  | first :: _ => .error (.rows failures.length results.length (word first))

/-- Shape every row, in order. -/
def shapeAll {α : Type} (shape : α → Except RowError Row) (rows : List α) :
    Except QueryError (List Row) :=
  gather RowError.message (rows.map shape)

/-- The page of an answer of a search engine. -/
def ofSearch (view : View) (fields : FieldSet) (query : Query) (answer : SearchAnswer)
    (total : Option Nat) : Except QueryError Page := do
  let exposure := Exposure.ofNames fields query.outputFields
  let rows ← shapeAll (exposure.hitRow view query.format) answer.hits
  return {
    rows
    total := total.filter fun _ => query.needTotal
    scrollId := answer.scrollId.filter (· ≠ "")
    pitId := answer.pitId.filter (· ≠ "")
    cursor := answer.lastSort
    view := if query.includeView then some view else none }

/-- The view with the fields that the gateway sends: all of them if its columns are left open, as
they are under a statement of the caller; those that are declared if it has a node with an SQL
expression. -/
def received (view : View) (query : Query) (columns : List SqlColumn) : View :=
  if view.fieldScope = .all || query.callerSql?.isSome then
    { view with fieldScope := .all, fields := SqlColumn.toFields columns }
  else if view.hasSqlNode then
    { view with fields := SqlColumn.typedFields view.fields columns }
  else view

/-- The fields of a received view that the caller may see, if these were his fields before. -/
def visible (view : View) (query : Query) (fields : FieldSet) : FieldSet :=
  if view.fieldScope = .all then
    if query.rules.isEmpty then view.fields else view.fields.narrowedTo fields.names
  else if view.hasSqlNode then fields.narrowedTo view.fields.names
  else fields

/-- The page of an answer of the SQL gateway, and the view with the fields that it sent. -/
def ofSql (view : View) (fields : FieldSet) (query : Query) (answer : SqlAnswer)
    (total : Option Nat) : Except QueryError Page × View :=
  let view := received view query answer.columns
  let exposure := (Exposure.ofNames (visible view query fields) query.outputFields).withoutMeta
  let rows := shapeAll (fun values => do
    exposure.shape view query.format (← Row.ofSql view answer.columns values)) answer.rows
  (rows.map fun rows => {
    rows
    total := total.filter fun _ => query.needTotal
    cursor := if query.wantsCursor then answer.cursor else []
    view := if query.includeView then some view else none }, view)

/-- The page as a value; parts that say nothing are left out. -/
def encode (page : Page) : Json :=
  .ofOptionalMembers
    [("entries", some (.array (page.rows.map .object))),
      ("total_count", page.total.map .nat),
      ("scroll_id", page.scrollId.map .string),
      ("pit_id", page.pitId.map .string),
      ("search_after", if page.cursor.isEmpty then none else some (.array page.cursor)),
      ("view", page.view.map View.encode)]

end Page

end ViewCompiler
