import ViewCompiler.Filter.Basic
import ViewCompiler.Json.Schema

/-!
# Queries

A `Query` asks for a page of a view: which rows, in which order, how many, in which form.

* `Query.decode` and `Query.encode`: queries as values; every part may be missing.
* `Query.ofText?`: a query from a text.
-/

namespace ViewCompiler

/-- The form of the rows of a page. -/
inductive Format where
  /-- Nested documents become rows with dotted keys. -/
  | flat
  /-- Documents keep their nesting. -/
  | original
  deriving DecidableEq, Repr, Inhabited

namespace Format

/-- The name of a form. -/
def name : Format → String
  | flat => "flat"
  | original => "original"

/-- A form from its name. -/
def decode (value : Json) : Option Format :=
  value.tag?.bind fun text => [flat, original].find? fun format => format.name = text

end Format

/-- The direction of an order. -/
inductive Direction where
  | asc
  | desc
  deriving DecidableEq, Repr, Inhabited

namespace Direction

/-- The name of a direction. -/
def name : Direction → String
  | asc => "asc"
  | desc => "desc"

/-- The keyword of a direction. -/
def keyword : Direction → String
  | asc => "ASC"
  | desc => "DESC"

/-- A direction from its name. -/
def decode (value : Json) : Option Direction :=
  value.tag?.bind fun text => [asc, desc].find? fun direction => direction.name = text

end Direction

/-- A field to sort by. -/
structure SortKey where
  field : String
  /-- The direction; a query without one is refused when it is compiled. -/
  direction : Option Direction := none
  deriving DecidableEq, Repr, Inhabited

namespace SortKey

/-- The key as a value. -/
def encode (key : SortKey) : Json :=
  .ofMembers
    [("field", .string key.field),
      ("direction", Json.ofOption (fun d => .string (Direction.name d)) key.direction)]

/-- A key from a value. -/
def decode (value : Json) : Option SortKey := do
  let members ← value.record? ["field", "direction"] 2
  return {
    field := ← Json.required? members "field" Json.string?
    direction := ← Json.optional? members "direction" Direction.decode }

end SortKey

/-- A security rule: the fields that a caller may see and the rows that he may read. -/
structure AccessRule where
  id : String := ""
  name : String := ""
  fields : List String := []
  rowFilter : Option Filter := none
  deriving Inhabited

namespace AccessRule

/-- The rule as a value. -/
def encode (rule : AccessRule) : Json :=
  .ofOptionalMembers
    [("id", some (.string rule.id)), ("name", some (.string rule.name)),
      ("fields", some (.strings rule.fields)), ("row_filters", rule.rowFilter.map Filter.encode)]

/-- A rule from a value. -/
def decode (value : Json) : Option AccessRule := do
  let members ← value.record? ["id", "name", "fields", "row_filters"] 0
  return {
    id := ← Json.orElse? members "id" "" Json.string?
    name := ← Json.orElse? members "name" "" Json.string?
    fields := ← Json.orElse? members "fields" [] Json.strings?
    rowFilter := ← Json.optional? members "row_filters" Filter.decode }

end AccessRule

/-- Where a page goes on after the one before. -/
structure Cursor where
  /-- The sort values of the last row of the page before. -/
  values : List Json := []
  /-- The point in time that the pages are read at. -/
  pitId : Option String := none
  /-- How long the point in time is kept. -/
  pitKeepAlive : Option String := none
  deriving Inhabited

namespace Cursor

/-- The cursor as a value. -/
def encode (cursor : Cursor) : Json :=
  .ofOptionalMembers
    [("search_after", some (.array cursor.values)), ("pit_id", cursor.pitId.map .string),
      ("pit_keep_alive", cursor.pitKeepAlive.map .string)]

/-- A cursor from a value. -/
def decode (value : Json) : Option Cursor := do
  let members ← value.record? ["search_after", "pit_id", "pit_keep_alive"] 0
  return {
    values := ← Json.orElse? members "search_after" [] Json.items?
    pitId := ← Json.optional? members "pit_id" Json.string?
    pitKeepAlive := ← Json.optional? members "pit_keep_alive" Json.string? }

end Cursor

/-- A request for a page of a view. -/
structure Query where
  filter : Option Filter := none
  sort : List SortKey := []
  /-- The rows of a page; zero for the default. -/
  limit : Nat := 0
  offset : Nat := 0
  /-- The bounds of the time window in milliseconds; zero for none. -/
  start : Int := 0
  stop : Int := 0
  /-- The column that holds the time of a row of an SQL view. -/
  dateField : Option String := none
  format : Format := .flat
  /-- The fields to return; all of them if there is none. -/
  outputFields : List String := []
  needTotal : Bool := false
  rules : List AccessRule := []
  /-- How long a scroll is kept; opens one on the first page. -/
  scroll : Option String := none
  scrollId : Option String := none
  useCursor : Bool := false
  cursor : Option Cursor := none
  /-- A statement of the caller that stands in for the generated one. -/
  sql : Option String := none
  /-- Answer with an empty page when a filter names an unknown field. -/
  allowMissingField : Bool := false
  includeView : Bool := false
  deriving Inhabited

namespace Query

/-- The statement of the caller, unless it is blank. -/
def callerSql? (query : Query) : Option String :=
  query.sql.filter fun sql => !(Text.trim sql.toList).isEmpty

/-- The query as a value. -/
def encode (query : Query) : Json :=
  .ofOptionalMembers
    [("filters", query.filter.map Filter.encode),
      ("sort", some (.array (query.sort.map SortKey.encode))),
      ("limit", some (.nat query.limit)),
      ("offset", some (.nat query.offset)),
      ("start", some (.int query.start)),
      ("end", some (.int query.stop)),
      ("date_field", query.dateField.map .string),
      ("format", some (.string query.format.name)),
      ("output_fields", some (.strings query.outputFields)),
      ("need_total", some (.bool query.needTotal)),
      ("row_column_rules", some (.array (query.rules.map AccessRule.encode))),
      ("scroll", query.scroll.map .string),
      ("scroll_id", query.scrollId.map .string),
      ("use_search_after", some (.bool query.useCursor)),
      ("search_after", query.cursor.map Cursor.encode),
      ("sql", query.sql.map .string),
      ("allow_non_exist_field", some (.bool query.allowMissingField)),
      ("include_view", some (.bool query.includeView))]

/-- The members of a query, in their order. -/
def memberNames : List String :=
  ["filters", "sort", "limit", "offset", "start", "end", "date_field", "format", "output_fields",
    "need_total", "row_column_rules", "scroll", "scroll_id", "use_search_after", "search_after",
    "sql", "allow_non_exist_field", "include_view"]

/-- A query from a value. -/
def decode (value : Json) : Option Query := do
  let members ← value.record? memberNames 0
  return {
    filter := ← Json.optional? members "filters" Filter.decode
    sort := ← Json.orElse? members "sort" [] (Json.list? SortKey.decode)
    limit := ← Json.orElse? members "limit" 0 Json.nat?
    offset := ← Json.orElse? members "offset" 0 Json.nat?
    start := ← Json.orElse? members "start" 0 Json.int?
    stop := ← Json.orElse? members "end" 0 Json.int?
    dateField := ← Json.optional? members "date_field" Json.string?
    format := ← Json.orElse? members "format" .flat Format.decode
    outputFields := ← Json.orElse? members "output_fields" [] Json.strings?
    needTotal := ← Json.orElse? members "need_total" false Json.bool?
    rules := ← Json.orElse? members "row_column_rules" [] (Json.list? AccessRule.decode)
    scroll := ← Json.optional? members "scroll" Json.string?
    scrollId := ← Json.optional? members "scroll_id" Json.string?
    useCursor := ← Json.orElse? members "use_search_after" false Json.bool?
    cursor := ← Json.optional? members "search_after" Cursor.decode
    sql := ← Json.optional? members "sql" Json.string?
    allowMissingField := ← Json.orElse? members "allow_non_exist_field" false Json.bool?
    includeView := ← Json.orElse? members "include_view" false Json.bool? }

/-- The parts of a query that are read by name. -/
inductive Part where
  | query
  | filter
  | filters
  | sort
  | sortKey
  | rules
  | rule
  | cursor
  | value
  deriving DecidableEq

/-- What is kept of each part of a query. -/
def Part.form : Part → Json.Form Part
  | .query => .record
      [⟨"filters", .filter, []⟩, ⟨"sort", .sort, []⟩, ⟨"limit", .value, []⟩,
        ⟨"offset", .value, []⟩, ⟨"start", .value, []⟩, ⟨"end", .value, []⟩,
        ⟨"date_field", .value, []⟩, ⟨"format", .value, []⟩, ⟨"output_fields", .value, []⟩,
        ⟨"need_total", .value, []⟩, ⟨"row_column_rules", .rules, []⟩, ⟨"scroll", .value, []⟩,
        ⟨"scroll_id", .value, []⟩, ⟨"use_search_after", .value, []⟩,
        ⟨"search_after", .cursor, []⟩, ⟨"sql", .value, []⟩,
        ⟨"allow_non_exist_field", .value, []⟩, ⟨"include_view", .value, []⟩]
  | .filter => .record
      [⟨"field", .value, []⟩, ⟨"operation", .value, []⟩, ⟨"sub_conditions", .filters, []⟩,
        ⟨"value_from", .value, []⟩, ⟨"value", .value, []⟩]
  | .filters => .list .filter
  | .sort => .list .sortKey
  | .sortKey => .record [⟨"field", .value, []⟩, ⟨"direction", .value, []⟩]
  | .rules => .list .rule
  | .rule => .record
      [⟨"id", .value, []⟩, ⟨"name", .value, []⟩, ⟨"fields", .value, []⟩,
        ⟨"row_filters", .filter, []⟩]
  | .cursor => .record
      [⟨"search_after", .value, []⟩, ⟨"pit_id", .value, []⟩, ⟨"pit_keep_alive", .value, []⟩]
  | .value => .free

/-- A query from a text. -/
def ofText? (text : String) : Option Query :=
  (Json.parseAs? Part.form .query text).bind decode

end Query

end ViewCompiler
