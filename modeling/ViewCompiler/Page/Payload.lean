import ViewCompiler.Json.Record
import ViewCompiler.Json.Schema
import ViewCompiler.Page.Error

/-!
# Answers of backends

* `SearchAnswer`: the matches that a search engine found; `ofText?` reads it, and `ofEnvelope` reads
  the first of several in an envelope.
* `SqlAnswer`: the columns and rows that the SQL gateway sends. `SqlAnswer.cursor` is where the
  gateway goes on.
* `SqlAnswer.countOfText`: the number in the first cell.

Only the members named here are kept of an answer.
-/

namespace ViewCompiler

/-- A document that a search found. -/
structure Hit where
  index : String := ""
  id : String := ""
  /-- How well the document matches. -/
  score : Option Binary64 := none
  /-- The content of the document. -/
  source : Option (KeyMap Json) := none
  /-- The sort values of the document. -/
  sort : Option (List Json) := none
  deriving Inhabited

/-- What a search found. -/
structure SearchAnswer where
  hits : List Hit
  /-- The number of matches. -/
  total : Option Nat := none
  scrollId : Option String := none
  pitId : Option String := none
  deriving Inhabited

/-- A column of the SQL gateway. -/
structure SqlColumn where
  name : String
  /-- The type, in the words of the backend. -/
  type : String := ""
  deriving DecidableEq, Repr, Inhabited

/-- A page of the SQL gateway. -/
structure SqlAnswer where
  columns : List SqlColumn
  rows : List Json
  /-- The number of rows in this page, as the gateway counts them. -/
  total : Option Int := none
  /-- Where the gateway goes on. -/
  nextUri : Option String := none
  deriving Inhabited

/-! ### Forms of the texts -/

/-- The parts of answers that are read by name. -/
inductive Payload where
  | envelope
  | answers
  | answer
  | found
  | total
  | hits
  | hit
  | table
  | columns
  | column
  | value
  deriving DecidableEq

/-- What is kept of each part of an answer. -/
def Payload.form : Payload → Json.Form Payload
  | .envelope => .record [⟨"data", .answers, []⟩]
  | .answers => .list .answer
  | .answer => .record [⟨"hits", .found, []⟩, ⟨"_scroll_id", .value, []⟩, ⟨"pit_id", .value, []⟩]
  | .found => .record [⟨"total", .total, []⟩, ⟨"hits", .hits, []⟩]
  | .total => .tagged "value"
  | .hits => .list .hit
  | .hit => .record
      [⟨"_index", .value, []⟩, ⟨"_id", .value, []⟩, ⟨"_score", .value, []⟩,
        ⟨"_source", .value, []⟩, ⟨"sort", .value, []⟩]
  | .table => .record
      [⟨"columns", .columns, []⟩, ⟨"entries", .value, ["data"]⟩, ⟨"total_count", .value, []⟩,
        ⟨"next_uri", .value, ["nextUri"]⟩]
  | .columns => .list .column
  | .column => .record [⟨"name", .value, []⟩, ⟨"type", .value, []⟩]
  | .value => .free

/-! ### Searches -/

/-- A hit from a value; every part may be missing. -/
def Hit.decode (value : Json) : Option Hit := do
  let members ← value.record? ["_index", "_id", "_score", "_source", "sort"] 0
  return {
    index := ← Json.orElse? members "_index" "" Json.string?
    id := ← Json.orElse? members "_id" "" Json.string?
    score := ← Json.optional? members "_score" Json.double?
    source := ← Json.optional? members "_source" Json.members?
    sort := ← Json.optional? members "sort" Json.items? }

namespace SearchAnswer

/-- The number of matches: a number, or an object that holds it. -/
def decodeTotal : Json → Option Nat
  | .object members => Json.required? members "value" Json.nat?
  | value => value.nat?

/-- An answer from a value. -/
def decode (value : Json) : Option SearchAnswer := do
  let members ← value.record? ["hits", "_scroll_id", "pit_id"] 1
  let found ← Json.required? members "hits" (Json.record? ["total", "hits"] 2)
  return {
    hits := ← Json.required? found "hits" (Json.list? Hit.decode)
    total := ← Json.optional? found "total" decodeTotal
    scrollId := ← Json.optional? members "_scroll_id" Json.string?
    pitId := ← Json.optional? members "pit_id" Json.string? }

/-- The sort values of the last hit. -/
def lastSort (answer : SearchAnswer) : List Json :=
  (answer.hits.getLast?.bind Hit.sort).getD []

/-- An answer from its text. -/
def ofText (text : String) : Except PayloadError SearchAnswer :=
  match (Json.parseAs? Payload.form .answer text).bind decode with
  | some answer => .ok answer
  | none => .error .badSearch

/-- The first of the answers in an envelope. -/
def ofEnvelope (text : String) : Except PayloadError SearchAnswer :=
  let answers? := (Json.parseAs? Payload.form .envelope text).bind fun value =>
    (value.record? ["data"] 1).bind fun members =>
      Json.required? members "data" (Json.list? decode)
  match answers? with
  | none => .error .badEnvelope
  | some [] => .error .emptyEnvelope
  | some (answer :: _) => .ok answer

end SearchAnswer

/-! ### Statements -/

/-- A column from a value. -/
def SqlColumn.decode (value : Json) : Option SqlColumn := do
  let members ← value.record? ["name", "type"] 1
  return {
    name := ← Json.required? members "name" Json.string?
    type := ← Json.orElse? members "type" "" Json.string? }

namespace SqlAnswer

/-- What a page may hold; its columns and rows may be missing. -/
structure Parts where
  columns : Option (List SqlColumn) := none
  rows : Option (List Json) := none
  total : Option Int := none
  nextUri : Option String := none
  deriving Inhabited

/-- The parts of a page from a value. -/
def Parts.decode (value : Json) : Option Parts := do
  let members ← value.record? ["columns", "entries", "total_count", "next_uri"] 2
  return {
    columns := ← Json.optional? members "columns" (Json.list? SqlColumn.decode)
    rows := ← Json.optional? members "entries" Json.items?
    total := ← Json.optional? members "total_count" Json.int?
    nextUri := ← Json.optional? members "next_uri" Json.string? }

/-- The page of its parts. -/
def ofParts (parts : Parts) : Except PayloadError SqlAnswer :=
  match parts.columns, parts.rows with
  | none, _ => .error .noColumns
  | some _, none => .error .noRows
  | some columns, some rows => .ok { columns, rows, total := parts.total, nextUri := parts.nextUri }

/-- A page from its text. -/
def ofText (text : String) : Except PayloadError SqlAnswer :=
  match (Json.parseAs? Payload.form .table text).bind Parts.decode with
  | none => .error .badTable
  | some parts => ofParts parts

/-- The parts of a path between its slashes, without the slashes at its ends. -/
def segments (uri : String) : List String :=
  let trimmed := Text.dropEndWhile (· = '/') (uri.toList.dropWhile (· = '/'))
  (Text.splitOn '/' trimmed).map String.ofList

/-- Where the gateway goes on: the last three parts of its path. -/
def cursor (answer : SqlAnswer) : List Json :=
  match answer.nextUri.filter (· ≠ "") with
  | none => []
  | some uri =>
    let parts := segments uri
    if parts.length < 3 then [] else (parts.drop (parts.length - 3)).map .string

/-- The number in the first cell of a page. -/
def count? (answer : SqlAnswer) : Option Nat := do
  let row ← answer.rows.head?
  let cell ← (← row.items?).head?
  cell.nat?

/-- The number in the first cell of the page with this text. -/
def countOfText (text : String) : Except PayloadError Nat := do
  let answer ← ofText text
  match answer.count? with
  | some count => .ok count
  | none => .error .badCount

end SqlAnswer

end ViewCompiler
