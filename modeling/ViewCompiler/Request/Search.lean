import ViewCompiler.Filter.Clause
import ViewCompiler.Request.Routes
import ViewCompiler.Request.Statement

/-!
# Searches for queries

* `BoolQuery`: the lists of clauses that a document has to match.
* `View.scopeQuery`: the part of a search that keeps to the documents of a view.
* `SortClause.ofKeys`, `SortClause.completed`: the order of a search.
* `SearchRequest`: what is asked of the search engine.
* `View.searchRequest`: the request for a query.
-/

namespace ViewCompiler

/-! ### Clauses -/

/-- The lists of clauses that a document has to match. -/
structure BoolQuery where
  /-- Clauses that all match. -/
  filter : List Json := []
  /-- Clauses that all match and score. -/
  must : List Json := []
  /-- Clauses of which as many match as `minimum` says. -/
  should : List Json := []
  /-- How many of the clauses in `should` match. -/
  minimum : Option Nat := none
  deriving Inhabited

namespace BoolQuery

/-- Is there no clause? -/
def isEmpty (query : BoolQuery) : Bool :=
  query.filter.isEmpty && query.must.isEmpty && query.should.isEmpty

/-- Add a clause that has to match, to `must` if it scores. -/
def push (query : BoolQuery) (clause : Json) (scoring : Bool) : BoolQuery :=
  if scoring then { query with must := query.must ++ [clause] }
  else { query with filter := query.filter ++ [clause] }

/-- Add a clause with its scoring, if there is one. -/
def push? (query : BoolQuery) : Option (Json × Bool) → BoolQuery
  | none => query
  | some (clause, scoring) => query.push clause scoring

/-- The lists that hold clauses, by name. -/
def members (query : BoolQuery) : List (String × Json) :=
  let list (name : String) (clauses : List Json) : List (String × Json) :=
    if clauses.isEmpty then [] else [(name, .array clauses)]
  list "filter" query.filter ++ list "must" query.must ++ list "should" query.should ++
    (query.minimum.map fun n => ("minimum_should_match", Json.nat n)).toList

/-- The query as a clause. -/
def clause (query : BoolQuery) : Json := Clause.single "bool" (.ofMembers query.members)

end BoolQuery

/-- Does a clause with its scoring score? -/
def scores (clause : Option (Json × Bool)) : Bool := clause.any Prod.snd

/-- The clause of a time window in milliseconds; a bound of zero is none. -/
def timeRange (start stop : Int) : Option Json :=
  let bound (name : String) (t : Int) : List (String × Json) :=
    if t = 0 then [] else [(name, .int t)]
  match bound "gte" start ++ bound "lte" stop with
  | [] => none
  | bounds => some (Clause.range "@timestamp" bounds)

/-! ### The scope -/

namespace Node

/-- The clause of a view node: the indices it reads and its filter. -/
def branch (routes : NodeRoutes) (id : String) (filter : Option Filter) (source : View) :
    Except NodeFault (Json × Bool) := do
  let indices := Clause.single "terms"
    (Clause.single "_index" (.strings ((routes.get? id).getD [])))
  let clause ← (Filter.clause? .byName source.fields filter).mapError .filter
  return (({ filter := [indices] } : BoolQuery).push? clause |>.clause, scores clause)

/-- The clause of a node, if it is a view node. -/
def branch? (routes : NodeRoutes) (node : Node) : Except NodeFault (Option (Json × Bool)) :=
  match node.config with
  | .view viewId _ _ none => .error (.unloadedSource viewId)
  | .view _ filter _ (some source) => (branch routes node.id filter source).map some
  | .union .all _ _ => .ok none
  | .union .distinct _ _ => .error .distinctUnion
  | .output => .ok none
  | config => .error (.unsupported config.kind)

/-- The clauses of the view nodes. -/
def allBranches (routes : NodeRoutes) : List Node → Except CompileError (List (Json × Bool))
  | [] => .ok []
  | node :: rest => do
    let branch ← (node.branch? routes).mapError (.node node.id)
    let branches ← allBranches routes rest
    return branch.toList ++ branches

end Node

namespace View

/-- The documents of a view and whether finding them scores. Those of an atomic view need no
clause; a document of a custom view matches the clause of one of the view nodes. -/
def scopeQuery (view : View) (routes : NodeRoutes) : Except CompileError (BoolQuery × Bool) :=
  if view.isAtomic then .ok ({}, false)
  else do
    let branches ← Node.allBranches routes view.scope
    let clauses := branches.map Prod.fst
    let scoring := branches.any Prod.snd
    match clauses with
    | [] => .error .noViewNode
    | [clause] => .ok ({ filter := [clause] }, scoring)
    | clauses => .ok ({ should := clauses, minimum := some 1 }, scoring)

end View

/-! ### The order -/

/-- An item of the order of a search. -/
structure SortClause where
  field : String
  direction : Direction
  deriving DecidableEq, Repr, Inhabited

namespace SortClause

/-- The item as a value. -/
def encode (clause : SortClause) : Json :=
  Clause.single clause.field (.string clause.direction.name)

/-- The item of a field that is in the view: an analysed text is sorted by its keyword index or
not at all. -/
def ofField (field : Field) (direction : Direction) : Except QueryError (List SortClause) :=
  if field.type.isBinary then .error (.binarySort field.name)
  else if field.type.isText then
    .ok (if field.hasFeature .keyword then [⟨field.name ++ ".keyword", direction⟩] else [])
  else .ok [⟨field.name, direction⟩]

/-- The item of a key. The score has a name of its own for callers. -/
def ofKey (fields : FieldSet) (key : SortKey) : Except QueryError (List SortClause) :=
  if key.field = "" then .error (.query .unnamedSort)
  else match key.direction with
    | none => .error (.query (.undirectedSort key.field))
    | some direction =>
      if key.field = "__score" then .ok [⟨"_score", direction⟩]
      else match fields.get? key.field with
        | none => .ok [⟨key.field, direction⟩]
        | some field => ofField field direction

/-- The items of the keys. -/
def ofKeys (fields : FieldSet) : List SortKey → Except QueryError (List SortClause)
  | [] => .ok []
  | key :: rest => do
    let first ← ofKey fields key
    let rest ← ofKeys fields rest
    return first ++ rest

/-- The items that make an order the same on every page. -/
def tieBreakers (engine : Engine) (cursor : Bool) : List SortClause :=
  match engine, cursor with
  | .indexBase, true => [⟨"@timestamp", .desc⟩, ⟨"__id", .desc⟩]
  | .indexBase, false => [⟨"@timestamp", .desc⟩]
  | .rawSearch, true => [⟨"_id", .desc⟩]
  | _, _ => []

/-- The items whose field has not come before. -/
def withoutRepeats (seen : List String) : List SortClause → List SortClause
  | [] => []
  | clause :: rest =>
    if seen.contains clause.field then withoutRepeats seen rest
    else clause :: withoutRepeats (clause.field :: seen) rest

/-- The items followed by the tie breakers, every field once. -/
def completed (sort : List SortClause) (engine : Engine) (cursor : Bool) : List SortClause :=
  withoutRepeats [] (sort ++ tieBreakers engine cursor)

end SortClause

/-! ### The request -/

/-- A point in time at which a search reads. -/
structure PointInTime where
  id : String
  /-- How much longer it is kept. -/
  keepAlive : Option String := none
  deriving DecidableEq, Repr, Inhabited

/-- The point in time as a value. -/
def PointInTime.encode (pit : PointInTime) : Json :=
  .object (("id", .string pit.id) ::
    (pit.keepAlive.map fun keepAlive => ("keep_alive", Json.string keepAlive)).toList)

/-- What is asked of a search engine. -/
structure SearchRequest where
  /-- The rows to skip. -/
  offset : Nat := 0
  /-- The number of rows of a page. -/
  size : Nat
  sort : List SortClause := []
  /-- Are all matches counted? -/
  trackTotal : Bool := false
  /-- Are scores computed, whatever the order? -/
  trackScores : Bool := false
  query : BoolQuery := {}
  pit : Option PointInTime := none
  /-- The sort values to go on after. -/
  searchAfter : List Json := []
  deriving Inhabited

namespace SearchRequest

/-- The request as a value; its members stand in the order in which engines document them. -/
def encode (request : SearchRequest) : Json :=
  let given (condition : Bool) (name : String) (value : Json) : List (String × Json) :=
    if condition then [(name, value)] else []
  .object
    ([("from", .nat request.offset), ("size", .nat request.size)] ++
      given (!request.sort.isEmpty) "sort" (.array (request.sort.map SortClause.encode)) ++
      given request.trackTotal "track_total_hits" (.bool true) ++
      given request.trackScores "track_scores" (.bool true) ++
      [("query", Clause.single "bool" (.object request.query.members))] ++
      (request.pit.map fun pit => ("pit", pit.encode)).toList ++
      given (!request.searchAfter.isEmpty) "search_after" (.array request.searchAfter))

/-- The text of the request. -/
def body (request : SearchRequest) : String := request.encode.compact

/-- The request that counts the matches. -/
def count (request : SearchRequest) : Json := Clause.single "query" request.query.clause

/-- The request with its place among the pages. -/
def onPage (request : SearchRequest) : Pagination → SearchRequest
  | .offset count => { request with offset := count }
  | .searchAfter cursor pitId keepAlive =>
    { request with searchAfter := cursor, pit := pitId.map fun id => { id, keepAlive } }
  | .scroll .. | .sqlCursor _ => request

end SearchRequest

namespace View

/-- The clause of a filter over the fields of the view. -/
def clause (view : View) (filter : Option Filter) : Except QueryError (Option (Json × Bool)) :=
  (Filter.clause? view.addressing view.fields filter).mapError .filter

/-- The documents that a query asks for, whether finding them scores, and what the caller may
see. -/
def documents [Readers] (view : View) (settings : QuerySettings) (query : Query)
    (routes : NodeRoutes) : Except QueryError (BoolQuery × Bool × Grant) := do
  let (scope, scoring) ← (view.scopeQuery routes).mapError .compile
  let range := timeRange query.start query.stop
  let filter ← view.clause query.filter
  let grant ← query.grant settings view.fields
  let rows ← view.clause grant.filter
  let all := { scope with filter := scope.filter ++ range.toList }
  return ((all.push? filter).push? rows, scoring || scores filter || scores rows, grant)

/-- The request for a query and the fields that the caller may see. -/
def searchRequest [Readers] (view : View) (settings : QuerySettings) (query : Query)
    (pagination : Pagination) (routes : NodeRoutes) :
    Except QueryError (SearchRequest × FieldSet) := do
  let (documents, scoring, grant) ← view.documents settings query routes
  let sort ← SortClause.ofKeys view.fields query.sort
  let request : SearchRequest := {
    size := SqlRequest.pageSize settings query pagination
    sort := SortClause.completed sort view.engine pagination.isCursor
    trackTotal := view.engine = .rawSearch && query.needTotal
    trackScores := scoring
    query := documents }
  return (request.onPage pagination, grant.fields)

end View

end ViewCompiler
