import ViewCompiler.Request.Search
import ViewCompiler.Scope.Check
import ViewCompiler.Service.Session

/-!
# Answering queries

`View.answer` is the session that answers a query of a view. The view is checked and completed, the
query is checked against its fields, and then the engine of the view decides.

* `View.answerIndexBase`: resolve the indices, open a point in time if one is wanted, search and
  count; or go on with a scroll.
* `View.answerRawSearch`: search the base types themselves.
* `View.answerSql`: count if a total is wanted, then fetch.
-/

namespace ViewCompiler

namespace Query

/-- May rows satisfy the filter of the query? It must be legal; a field that the view does not have
is a fault unless the query allows for it, and then there are no rows. -/
def checkFilter [Readers] (query : Query) (settings : QuerySettings) (fields : FieldSet) :
    Except QueryError Bool :=
  match Filter.nonEmpty? query.filter with
  | none => .ok true
  | some filter =>
    match filter.missingField? fields with
    | some name =>
      if query.allowMissingField then .ok false else .error (.unknownFilterField name)
    | none => ((filter.check fields settings.maxChildren).mapError .filter).map fun _ => true

/-- Is none of the fields to sort by a binary one? -/
def checkSort (query : Query) (fields : FieldSet) : Except QueryError Unit :=
  match query.sort.find? fun key => (fields.get? key.field).any fun field => field.type.isBinary with
  | some key => .error (.binarySort key.field)
  | none => .ok ()

end Query

namespace Pagination

/-- How long the first page of a scroll is kept. -/
def scrollKeepAlive : Pagination → Option String
  | scroll keepAlive _ => keepAlive
  | _ => none

/-- The point in time at which the page is read. -/
def pitId? : Pagination → Option String
  | searchAfter _ pitId _ => pitId
  | _ => none

/-- How long a point in time is to be kept that has yet to be opened. -/
def pitToOpen? : Pagination → Option String
  | searchAfter _ none keepAlive => keepAlive
  | _ => none

/-- The same page at a point in time. -/
def atPit (pagination : Pagination) (pitId : String) : Pagination :=
  match pagination with
  | searchAfter cursor _ keepAlive => searchAfter cursor (some pitId) keepAlive
  | other => other

end Pagination

namespace View

open Session

/-- The session that ends with an empty page. -/
def answerEmpty (view : View) (query : Query) : Session := .done (.ok (Page.empty view query))

/-! ### Search engines with a resolver -/

/-- Go on with a scroll. -/
def answerScroll [Readers] (view : View) (settings : QuerySettings) (query : Query)
    (scrollId : String) (keepAlive : Option String) : Session :=
  .ask (.scroll scrollId (keepAlive.getD settings.keepAlive)) fun body =>
    attempt ((SearchAnswer.ofText body).mapError .payload) fun answer =>
      attempt (query.grant settings view.fields) fun grant =>
        .done (Page.ofSearch view grant.fields query answer none)

/-- Search, at a point in time if there is one. -/
def askSearch (routes : IndexRoutes) (pagination : Pagination) (body : String)
    (next : String → Session) : Session :=
  match pagination.pitId? with
  | some _ => .ask (.searchAt body) next
  | none => .ask (.search routes.indices body pagination.scrollKeepAlive) next

/-- Search and count, and shape the answer. `continuing` tells that the page is not the first one
of its point in time, so that its total is known. Neither call needs the reply to the other, and a
program may have both under way at once; here the count is asked for once the search has
succeeded, so a search that fails leaves it unasked. -/
def answerRouted [Readers] (view : View) (settings : QuerySettings) (query : Query)
    (routes : IndexRoutes) (pagination : Pagination) (continuing : Bool) : Session :=
  attempt (view.searchRequest settings query pagination routes.byNode) fun (request, fields) =>
    let finish (body : String) (total : Option Nat) : Session :=
      attempt ((SearchAnswer.ofText body).mapError .payload) fun answer =>
        .done (Page.ofSearch view fields query answer total)
    askSearch routes pagination request.body fun body =>
      if query.needTotal && !continuing then
        .ask (.count routes.indices request.count.compact) fun total => finish body (some total)
      else finish body none

/-- Open a point in time if one is wanted, then search. -/
def answerIndices [Readers] (view : View) (settings : QuerySettings) (query : Query)
    (pagination : Pagination) (routes : IndexRoutes) : Session :=
  match pagination.pitToOpen? with
  | some keepAlive =>
    .ask (.openPit routes.indices keepAlive) fun pitId =>
      view.answerRouted settings query routes (pagination.atPit pitId) false
  | none => view.answerRouted settings query routes pagination pagination.pitId?.isSome

/-- The answer of a search engine whose indices a resolver names. -/
def answerIndexBase [Readers] (view : View) (settings : QuerySettings) (query : Query)
    (pagination : Pagination) : Session :=
  match pagination with
  | .scroll keepAlive (some scrollId) => view.answerScroll settings query scrollId keepAlive
  | pagination =>
    let types := BaseTypes.ofView view
    if types.isEmpty then view.answerEmpty query
    else .ask (.resolve types.names query.start query.stop) fun indices =>
      attempt ((types.route indices).mapError .compile) fun byNode =>
        if indices.isEmpty then view.answerEmpty query
        else view.answerIndices settings query pagination { indices, byNode }

/-! ### Other engines -/

/-- The answer of a search engine that is addressed by base types. -/
def answerRawSearch [Readers] (view : View) (settings : QuerySettings) (query : Query)
    (pagination : Pagination) : Session :=
  let routes := (BaseTypes.ofView view).direct
  if routes.isEmpty then view.answerEmpty query
  else attempt (view.searchRequest settings query pagination routes.byNode)
    fun (request, fields) =>
      .ask (.search routes.indices request.body pagination.scrollKeepAlive) fun body =>
        attempt ((SearchAnswer.ofEnvelope body).mapError .payload) fun answer =>
          .done (Page.ofSearch view fields query answer answer.total)

/-- Fetch the rows of a statement. -/
def answerRows (view : View) (query : Query) (request : SqlRequest) (timeout : Duration)
    (total : Option Nat) : Session :=
  .ask (.fetch request.sql request.nextUri request.limit timeout) fun body =>
    attempt ((SqlAnswer.ofText body).mapError .payload) fun answer =>
      .done (Page.ofSql view request.fields query answer total).1

/-- The answer of the SQL gateway: the rows are counted first if a total is wanted, and fetched
unless there are none. -/
def answerSql [Readers] (view : View) (settings : QuerySettings) (query : Query)
    (pagination : Pagination) : Session :=
  attempt (view.sqlRequest settings query pagination) fun (request, view) =>
    attempt (settings.timeout.mapError .settings) fun timeout =>
      match request.countSql with
      | none => view.answerRows query request timeout none
      | some countSql =>
        .ask (.fetch countSql none 1 timeout) fun body =>
          attempt ((SqlAnswer.countOfText body).mapError .payload) fun count =>
            if count = 0 then view.answerEmpty query
            else view.answerRows query request timeout (some count)

/-! ### All engines -/

/-- The session that answers a query of a checked view. -/
def answerChecked [Readers] (view : View) (settings : QuerySettings) (query : Query) : Session :=
  attempt (query.checkFilter settings view.fields) fun mayHaveRows =>
    if !mayHaveRows then view.answerEmpty query
    else attempt (query.checkSort view.fields) fun _ =>
      attempt ((query.pagination view.engine).mapError .query) fun pagination =>
        match view.engine with
        | .indexBase => view.answerIndexBase settings query pagination
        | .rawSearch => view.answerRawSearch settings query pagination
        | .sql => view.answerSql settings query pagination

/-- The session that answers a query of a view. -/
def answer [Readers] (view : View) (settings : QuerySettings) (query : Query) : Session :=
  attempt ((view.checked settings).mapError .view) fun view => view.answerChecked settings query

end View

end ViewCompiler
