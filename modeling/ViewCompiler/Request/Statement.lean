import ViewCompiler.Query.Pagination
import ViewCompiler.Relation.Compile
import ViewCompiler.Settings.Basic
import ViewCompiler.Sql.Where

/-!
# Statements for queries

The statement of a view, or the one that the caller gives, is narrowed by the time window, the
filter and the access rules of a query, then sorted and paged.

* `SqlRequest`: what is asked of the SQL gateway.
* `View.sqlRequest`: the request for a query.
-/

namespace ViewCompiler

/-- What is asked of the SQL gateway. -/
structure SqlRequest where
  /-- The statement that gives the rows. -/
  sql : String
  /-- The statement that counts the rows, if a total is wanted. -/
  countSql : Option String := none
  /-- The fields that the caller may see. -/
  fields : FieldSet
  /-- Where the gateway goes on. -/
  nextUri : Option String := none
  /-- The number of rows of a page. -/
  limit : Nat
  deriving DecidableEq, Inhabited

namespace SqlRequest

/-- The condition of a time window over a column; its bounds are in milliseconds, a bound of zero
is none. -/
def timeWindow (column : String) (start stop : Int) : Option String :=
  let instant (t : Int) : String := "from_unixtime(" ++ toString (t.tdiv 1000) ++ ")"
  let column := Sql.quoteIdent column
  if start = 0 then
    if stop = 0 then none else some (column ++ " <= " ++ instant stop)
  else if stop = 0 then some (column ++ " >= " ++ instant start)
  else some (column ++ " BETWEEN " ++ instant start ++ " AND " ++ instant stop)

/-- The condition of the time window of a query, if the query names a date field. -/
def timeFilter (query : Query) : Option String :=
  match query.dateField.filter (· ≠ "") with
  | none => none
  | some field => timeWindow field query.start query.stop

/-- The items of the order, where every field counts once and an unknown one not at all. -/
def sortItems (fields : FieldSet) (seen : List String) :
    List SortKey → Except QueryError (List String)
  | [] => .ok []
  | key :: rest =>
    if key.field = "" then .error (.query .unnamedSort)
    else match key.direction with
      | none => .error (.query (.undirectedSort key.field))
      | some direction =>
        if seen.contains key.field then sortItems fields seen rest
        else match fields.get? key.field with
          | none => sortItems fields (key.field :: seen) rest
          | some field =>
            if field.type.isBinary then .error (.binarySort key.field)
            else (sortItems fields (key.field :: seen) rest).map fun items =>
              (Sql.quoteIdent field.name ++ " " ++ direction.keyword) :: items

/-- Has the statement an order already? -/
def hasOrder (sql : String) : Bool :=
  Text.occursIn "order by".toList ((Sql.mask sql).toList.map Text.asciiLower)

/-- The statement without the blanks and the semicolons at its end. -/
def withoutEnd (sql : String) : String :=
  String.ofList (Text.dropEndWhile (· = ';') (Text.trimEnd sql.toList))

/-- The statement in an order; one that is sorted or limited already becomes a subquery. -/
def ordered (sql order : String) : String :=
  if hasOrder sql || Sql.hasLimit sql then
    "SELECT * FROM (" ++ sql ++ ") AS sorted ORDER BY " ++ order
  else withoutEnd sql ++ " ORDER BY " ++ order

/-- The statement in the order of the items, if there is one. -/
def orderedBy (sql : String) (items : List String) : String :=
  if items.isEmpty then sql else ordered sql (Text.join ", " items)

/-- A value of a cursor as a part of a path. -/
def cursorPart : Json → String
  | .string text => text
  | value => value.compact

/-- The path at which the gateway goes on after a cursor. -/
def cursorPath (cursor : List Json) : Option String :=
  if cursor.isEmpty then none else some (Text.join "/" (cursor.map cursorPart))

/-- The number of rows of a page. -/
def pageSize (settings : QuerySettings) (query : Query) (pagination : Pagination) : Nat :=
  if 0 < query.limit then query.limit
  else if pagination.cursor.isEmpty then settings.defaultLimit
  else settings.cursorLimit

/-- The statement with its page: a page that is found by a cursor is cut by the gateway. -/
def paged (sql : String) (limit : Nat) : Pagination → String
  | .searchAfter .. | .sqlCursor _ => sql
  | .offset count => Sql.addPage sql limit count
  | .scroll .. => Sql.addPage sql limit 0

/-- The statement that counts the rows of a statement. -/
def counting (sql : String) : String := "SELECT count(*) FROM (" ++ sql ++ ") AS t"

end SqlRequest

namespace Query

/-- What the access rules of the query leave of the fields. -/
def grant [Readers] (query : Query) (settings : QuerySettings) (fields : FieldSet) :
    Except QueryError Grant :=
  if query.rules.isEmpty then .ok { fields }
  else (AccessRule.merge fields settings.maxChildren query.rules).mapError .ofAccess

end Query

namespace View

/-- The statement that a query narrows, and the view with what its compilation found out. -/
def baseSql (view : View) (query : Query) : Except QueryError (String × View) :=
  match query.callerSql? with
  | some sql => .ok (sql, view)
  | none => view.toSql.mapError .compile

/-- The condition of a filter over the fields of the view. -/
def condition (view : View) (filter : Option Filter) : Except QueryError (Option String) :=
  (Filter.condition? view.addressing view.fields filter).mapError .filter

/-- The statement narrowed by the time window, the filter and the access rules of a query. -/
def narrowed [Readers] (view : View) (settings : QuerySettings) (query : Query) (base : String) :
    Except QueryError (String × Grant) := do
  let restriction := (Sql.Restriction.mk base []).add? (SqlRequest.timeFilter query)
  let restriction := restriction.add? (← view.condition query.filter)
  let grant ← query.grant settings view.fields
  let restriction := restriction.add? (← view.condition grant.filter)
  return (restriction.build, grant)

/-- The request for a query, and the view with the fields of its compiled nodes. -/
def sqlRequest [Readers] (view : View) (settings : QuerySettings) (query : Query)
    (pagination : Pagination) : Except QueryError (SqlRequest × View) := do
  let (base, compiled) ← view.baseSql query
  let (filtered, grant) ← view.narrowed settings query base
  let items ← SqlRequest.sortItems grant.fields [] query.sort
  let limit := SqlRequest.pageSize settings query pagination
  return ({
    sql := SqlRequest.paged (SqlRequest.orderedBy filtered items) limit pagination
    countSql := if query.needTotal then some (SqlRequest.counting filtered) else none
    fields := grant.fields
    nextUri := SqlRequest.cursorPath pagination.cursor
    limit }, compiled)

end View

end ViewCompiler
