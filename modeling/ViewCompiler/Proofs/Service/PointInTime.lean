import ViewCompiler.Proofs.Request.Search
import ViewCompiler.Proofs.Service.Session
import ViewCompiler.Readers.Standard
import ViewCompiler.Service.Answer
import Mathlib.Data.List.Chain
import Mathlib.Data.List.Forall2

/-!
# Paging at a point in time

A caller reads page after page: he repeats his query with the cursor and the point in time that the
last page left. The point in time is opened for the first page, and what a page needs to go on is in
the answer before.

* `Session.exchanges`: the calls of a session with the replies to them.
* `View.pages`: the pages of a query, as long as all requests succeed.
* `Search`: what is asked of the search engine for a page, and what it answers.
* `View.reads_of_answer`: **what one request does**, by the parts of its session.
* `View.pages_at_point_in_time`: **what all requests do.** One point in time is opened, documents
  are counted for the first page only, and every page goes on where the one before ended.
-/

namespace ViewCompiler

/-! ### Exchanges -/

/-- A call with the reply to it. -/
abbrev Exchange := (call : Call) × call.Reply

namespace Call

/-- Does the call open a point in time? -/
def opensPit : Call → Bool
  | openPit .. => true
  | _ => false

/-- Does the call count documents? -/
def counts : Call → Bool
  | count .. => true
  | _ => false

end Call

namespace Session

variable {σ α : Type} {backends : Backends σ} {state : σ} {page : Page} {session : Session}

/-- The calls of a session with the replies to them, up to the first that fails. -/
def exchanges (backends : Backends σ) : Session → σ → List Exchange
  | .done _, _ => []
  | .ask call next, state =>
    match backends call state with
    | (.error _, _) => []
    | (.ok reply, state) => ⟨call, reply⟩ :: (next reply).exchanges backends state

theorem ask_eq_ok {call : Call} {next : call.Reply → Session}
    (h : ((Session.ask call next).run backends state).result = .ok page) :
    ∃ reply after, backends call state = (.ok reply, after) ∧
      ((next reply).run backends after).result = .ok page ∧
      (Session.ask call next).exchanges backends state =
        ⟨call, reply⟩ :: (next reply).exchanges backends after := by
  rcases hreply : backends call state with ⟨failure | reply, after⟩
  · rw [run_ask_error hreply] at h
    cases h
  · rw [run_ask_ok hreply] at h
    exact ⟨reply, after, rfl, h, by rw [exchanges, hreply]⟩

theorem attempt_eq_ok {result : Except QueryError α} {next : α → Session}
    (h : ((attempt result next).run backends state).result = .ok page) :
    ∃ value, result = .ok value ∧ attempt result next = next value := by
  cases result with
  | error error => cases h
  | ok value => exact ⟨value, rfl, rfl⟩

theorem map_fst_exchanges (h : (session.run backends state).result = .ok page) :
    (session.exchanges backends state).map Sigma.fst = (session.run backends state).calls := by
  induction session generalizing state with
  | done result => rfl
  | ask call next ih =>
    obtain ⟨reply, after, hreply, hnext, hexchanges⟩ := ask_eq_ok h
    rw [hexchanges, run_ask_ok hreply, List.map_cons, ih reply hnext]

end Session

/-- Every reply names indices where they are asked for, and a point in time to go on at. -/
structure Backends.Sound {σ : Type} (backends : Backends σ) : Prop where
  resolve {types : List String} {start stop : Int} {state after : σ} {indices : List String}
    (h : backends (.resolve types start stop) state = (.ok indices, after)) : indices ≠ []
  searchAt {body text : String} {state after : σ} {answer : SearchAnswer}
    (h : backends (.searchAt body) state = (.ok text, after))
    (hanswer : SearchAnswer.ofText text = .ok answer) : ∃ id, answer.pitId = some id ∧ id ≠ ""

/-! ### Pages -/

/-- A request that has been answered. -/
structure Turn where
  page : Page
  /-- What was asked for the page. -/
  exchanges : List Exchange

/-- The calls that were made for the page. -/
def Turn.calls (turn : Turn) : List Call := turn.exchanges.map Sigma.fst

/-- The query for the page that follows: it takes the cursor and the point in time of the page. -/
def Query.after (query : Query) (page : Page) : Query :=
  { query with
    cursor := some { query.cursor.getD {} with values := page.cursor, pitId := page.pitId } }

/-- The first pages of a query, unless a request fails. -/
def View.pages [Readers] {σ : Type} (view : View) (settings : QuerySettings)
    (backends : Backends σ) : Nat → Query → σ → Except QueryError (List Turn)
  | 0, _, _ => .ok []
  | n + 1, query, state => do
    let session := view.answer settings query
    let outcome := session.run backends state
    let page ← outcome.result
    let others ← view.pages settings backends n (query.after page) outcome.state
    return { page, exchanges := session.exchanges backends state } :: others

namespace Query

variable {query : Query} {page other : Page} {engine : Engine} {cursor : List Json}
  {pitId keepAlive : Option String}

theorem after_after : (query.after page).after other = query.after other := rfl

theorem pagination_eq_searchAfter :
    query.pagination engine = .ok (.searchAfter cursor pitId keepAlive) ↔
      (query.wantsCursor = true ∧ query.wantsScroll = false ∧ query.offset = 0 ∧ engine ≠ .sql) ∧
        cursor = (query.cursor.getD {}).values ∧
        pitId = (query.cursor.getD {}).pitId.filter (· ≠ "") ∧
        keepAlive = (query.cursor.getD {}).pitKeepAlive.filter (· ≠ "") := by
  rw [Query.pagination]
  cases query.wantsCursor <;> cases query.wantsScroll <;> by_cases hoffset : query.offset = 0 <;>
    by_cases hsql : engine = .sql <;> simp_all [Nat.pos_iff_ne_zero]
  · split <;> simp
  · simp only [eq_comm]

/-- The next page is read at the point in time of the page, which is kept as long. -/
theorem pagination_after
    (h : query.pagination engine = .ok (.searchAfter cursor pitId keepAlive)) (page : Page) :
    (query.after page).pagination engine =
      .ok (.searchAfter page.cursor (page.pitId.filter (· ≠ "")) keepAlive) := by
  obtain ⟨⟨-, hscroll, hoffset, hsql⟩, -, -, hkeep⟩ := pagination_eq_searchAfter.1 h
  refine pagination_eq_searchAfter.2 ⟨⟨?_, hscroll, hoffset, hsql⟩, rfl, rfl, hkeep⟩
  rw [wantsCursor, after, Option.isSome_some, Bool.or_true]

end Query

/-! ### Searches -/

/-- What is asked of the search engine for a page, and what it answers. -/
structure Search where
  /-- The indices that the resolver names. -/
  indices : List String
  request : SearchRequest
  answer : SearchAnswer

/-- The calls for the page are those of the search: the indices are resolved, a point in time is
opened if it has to be, and documents are counted if they have to be. -/
def Turn.Makes (opens counts : Bool) (turn : Turn) (search : Search) : Prop :=
  ∃ types start stop keepAlive id text total,
    turn.exchanges =
      [⟨.resolve types start stop, search.indices⟩] ++
        (if opens then [⟨.openPit search.indices keepAlive, id⟩] else []) ++
        [⟨.searchAt search.request.body, text⟩] ++
        (if counts then [⟨.count search.indices search.request.count.compact, total⟩] else []) ∧
      SearchAnswer.ofText text = .ok search.answer

namespace Turn.Makes

variable {opens counts : Bool} {turn : Turn} {search : Search}

theorem countP_opensPit (h : turn.Makes opens counts search) :
    turn.calls.countP Call.opensPit = opens.toNat := by
  obtain ⟨types, start, stop, keepAlive, id, text, total, hexchanges, -⟩ := h
  rw [Turn.calls, hexchanges]
  cases opens <;> cases counts <;> rfl

theorem countP_counts (h : turn.Makes opens counts search) :
    turn.calls.countP Call.counts = counts.toNat := by
  obtain ⟨types, start, stop, keepAlive, id, text, total, hexchanges, -⟩ := h
  rw [Turn.calls, hexchanges]
  cases opens <;> cases counts <;> rfl

theorem countP_flatMap {turns : List Turn} {searches : List Search}
    (h : List.Forall₂ (Turn.Makes false false) turns searches) :
    (turns.flatMap Turn.calls).countP Call.opensPit = 0 ∧
      (turns.flatMap Turn.calls).countP Call.counts = 0 := by
  induction h with
  | nil => exact ⟨rfl, rfl⟩
  | cons hturn _ ih =>
    rw [List.flatMap_cons, List.countP_append, List.countP_append, hturn.countP_opensPit,
      hturn.countP_counts, ih.1, ih.2]
    exact ⟨rfl, rfl⟩

end Turn.Makes

namespace Search

/-- The search asks for documents of a query in its indices. -/
def Asks [Readers] (view : View) (settings : QuerySettings) (query : Query) (cursor : List Json)
    (pit : PointInTime) (search : Search) : Prop :=
  ∃ byNode visible, (BaseTypes.ofView view).route search.indices = .ok byNode ∧
    view.searchRequest settings query (.searchAfter cursor (some pit.id) pit.keepAlive) byNode =
      .ok (search.request, visible)

/-- The second search goes on where the first one ended: at the point in time that the answer
names, after the sort values of its last hit. -/
structure Follows (keepAlive : String) (previous next : Search) : Prop where
  pit : ∃ id, previous.answer.pitId = some id ∧
    next.request.encode.member? "pit" = some (PointInTime.encode ⟨id, some keepAlive⟩)
  searchAfter : next.request.encode.member? "search_after" =
    if previous.answer.lastSort = [] then none else some (.array previous.answer.lastSort)

/-- The searches have the same query clause and the same sort list. -/
structure Agrees (search other : Search) : Prop where
  query : search.request.encode.member? "query" = other.request.encode.member? "query"
  sort : search.request.encode.member? "sort" = other.request.encode.member? "sort"

variable {view : View} {settings : QuerySettings} {query : Query} {search other : Search}
  {cursor values : List Json} {pit instant : PointInTime}

theorem Asks.agrees [Readers] (h : search.Asks view settings query cursor pit)
    (hother : other.Asks view settings query values instant)
    (hindices : search.indices = other.indices) : search.Agrees other := by
  obtain ⟨byNode, visible, hroute, hrequest⟩ := h
  obtain ⟨byNode', visible', hroute', hrequest'⟩ := hother
  rw [hindices, hroute'] at hroute
  obtain rfl := Except.ok.inj hroute
  obtain ⟨_, _, sort, hdocuments, hkeys, hsort, -⟩ := View.searchRequest_parts hrequest
  obtain ⟨_, _, sort', hdocuments', hkeys', hsort', -⟩ := View.searchRequest_parts hrequest'
  have hquery : search.request.query = other.request.query :=
    congrArg Prod.fst (Except.ok.inj (hdocuments.symm.trans hdocuments'))
  obtain rfl : sort = sort' := Except.ok.inj (hkeys.symm.trans hkeys')
  have hsame : search.request.sort = other.request.sort := hsort.trans hsort'.symm
  constructor
  · rw [SearchRequest.encode_query, SearchRequest.encode_query, hquery]
  · rw [SearchRequest.encode_sort, SearchRequest.encode_sort, hsame]

/-- A search that is made with what an answer left follows it. -/
theorem Asks.follows [Readers] {keepAlive id : String}
    (h : other.Asks view settings query search.answer.lastSort ⟨id, some keepAlive⟩)
    (hpit : search.answer.pitId = some id) : search.Follows keepAlive other := by
  obtain ⟨byNode, visible, -, hrequest⟩ := h
  obtain ⟨hcursor, hinstant⟩ := View.searchRequest_cursor hrequest
  constructor
  · exact ⟨id, hpit, by rw [SearchRequest.encode_pit, hinstant]; rfl⟩
  · rw [SearchRequest.encode_searchAfter, hcursor]

end Search

/-! ### One page -/

/-- What a request does for a page at a point in time. The point in time is opened, and documents
are counted if a total is wanted, unless the query names a point in time. -/
structure Turn.Reads [Readers] (view : View) (settings : QuerySettings) (query : Query)
    (cursor : List Json) (pitId : Option String) (keepAlive : String) (turn : Turn)
    (search : Search) : Prop where
  makes : turn.Makes pitId.isNone (query.needTotal && pitId.isNone) search
  asks : ∃ id, (∀ given ∈ pitId, id = given) ∧
    search.Asks view settings query cursor ⟨id, some keepAlive⟩
  pitId : turn.page.pitId = search.answer.pitId
  cursor : turn.page.cursor = search.answer.lastSort
  next : ∃ id, search.answer.pitId = some id ∧ id ≠ ""

theorem Page.ofSearch_eq_ok {view : View} {fields : FieldSet} {query : Query}
    {answer : SearchAnswer} {total : Option Nat} {page : Page}
    (h : Page.ofSearch view fields query answer total = .ok page) :
    page.pitId = answer.pitId.filter (· ≠ "") ∧ page.cursor = answer.lastSort := by
  obtain ⟨rows, -, h⟩ := Result.bind_eq_ok.1 h
  cases h
  exact ⟨rfl, rfl⟩

namespace View

open Session

variable {σ : Type} {view valid : View} {settings : QuerySettings} {query : Query}
  {backends : Backends σ} {state : σ} {page : Page} {routes : IndexRoutes} {cursor : List Json}

/-- Does the view have rows for the query? Its filter names no field that the view does not have,
and the view has a base type. -/
def MayRead [Readers] (view : View) (settings : QuerySettings) (query : Query) : Prop :=
  query.checkFilter settings view.fields = .ok true ∧ (BaseTypes.ofView view).isEmpty = false

theorem page_of_answer {fields : FieldSet} {text : String} {total : Option Nat}
    (h : ((attempt ((SearchAnswer.ofText text).mapError .payload) fun answer =>
      .done (Page.ofSearch view fields query answer total)).run backends state).result =
        .ok page) :
    ∃ answer, SearchAnswer.ofText text = .ok answer ∧
      page.pitId = answer.pitId.filter (· ≠ "") ∧ page.cursor = answer.lastSort ∧
      (attempt ((SearchAnswer.ofText text).mapError .payload) fun answer =>
        .done (Page.ofSearch view fields query answer total)).exchanges backends state = [] := by
  obtain ⟨answer, hanswer, heq⟩ := attempt_eq_ok h
  rw [heq] at h ⊢
  obtain ⟨hpit, hcursor⟩ := Page.ofSearch_eq_ok h
  exact ⟨answer, Result.mapError_eq_ok.1 hanswer, hpit, hcursor, rfl⟩

/-- The page of an answer, after the count if there is one. -/
theorem page_of_reply {fields : FieldSet} {text body : String} {indices : List String}
    {counting : Bool}
    (h : ((if counting = true then
        Session.ask (.count indices body) fun total =>
          attempt ((SearchAnswer.ofText text).mapError .payload) fun answer =>
            .done (Page.ofSearch view fields query answer (some total))
      else
        attempt ((SearchAnswer.ofText text).mapError .payload) fun answer =>
          .done (Page.ofSearch view fields query answer none)).run backends state).result =
        .ok page) :
    ∃ answer total, SearchAnswer.ofText text = .ok answer ∧
      page.pitId = answer.pitId.filter (· ≠ "") ∧ page.cursor = answer.lastSort ∧
      (if counting = true then
        Session.ask (.count indices body) fun total =>
          attempt ((SearchAnswer.ofText text).mapError .payload) fun answer =>
            .done (Page.ofSearch view fields query answer (some total))
      else
        attempt ((SearchAnswer.ofText text).mapError .payload) fun answer =>
          .done (Page.ofSearch view fields query answer none)).exchanges backends state =
        if counting = true then [⟨.count indices body, total⟩] else [] := by
  cases counting with
  | true =>
    obtain ⟨total, after, -, h, hexchanges⟩ := ask_eq_ok h
    obtain ⟨answer, hanswer, hpit, hcursor, hnone⟩ := page_of_answer h
    exact ⟨answer, total, hanswer, hpit, hcursor, by rw [if_pos rfl, hexchanges, hnone]; rfl⟩
  | false =>
    obtain ⟨answer, hanswer, hpit, hcursor, hnone⟩ := page_of_answer h
    exact ⟨answer, 0, hanswer, hpit, hcursor, hnone⟩

/-- The search at a point in time, the count if there is one, and the page. -/
theorem reads_of_answerRouted [Readers] (hsound : backends.Sound) {id : String}
    {keepAlive : Option String} {continuing : Bool}
    (h : ((view.answerRouted settings query routes (.searchAfter cursor (some id) keepAlive)
      continuing).run backends state).result = .ok page) :
    ∃ request visible text answer total,
      view.searchRequest settings query (.searchAfter cursor (some id) keepAlive) routes.byNode =
        .ok (request, visible) ∧
      (view.answerRouted settings query routes (.searchAfter cursor (some id) keepAlive)
          continuing).exchanges backends state =
        [⟨.searchAt request.body, text⟩] ++
          (if query.needTotal && !continuing then
            [⟨.count routes.indices request.count.compact, total⟩] else []) ∧
      SearchAnswer.ofText text = .ok answer ∧
      (∃ next, answer.pitId = some next ∧ next ≠ "") ∧
      page.pitId = answer.pitId ∧ page.cursor = answer.lastSort := by
  rw [answerRouted] at h ⊢
  obtain ⟨⟨request, visible⟩, hrequest, heq⟩ := attempt_eq_ok h
  rw [heq] at h ⊢
  simp only [askSearch, Pagination.pitId?] at h ⊢
  obtain ⟨text, after, hsearch, h, hexchanges⟩ := ask_eq_ok h
  obtain ⟨answer, total, hanswer, hpit, hcursor, hcount⟩ := page_of_reply h
  obtain ⟨next, hsome, hnext⟩ := hsound.searchAt hsearch hanswer
  rw [hsome, Option.filter_some, if_pos (by simpa using hnext), ← hsome] at hpit
  refine ⟨request, visible, text, answer, total, hrequest, ?_, hanswer, ⟨next, hsome, hnext⟩, hpit,
    hcursor⟩
  rw [hexchanges, hcount]
  rfl

/-- What a request does once the indices are resolved. -/
theorem reads_of_answerIndexBase [Readers] (hsound : backends.Sound) {pitId : Option String}
    {keepAlive : String} (htypes : (BaseTypes.ofView view).isEmpty = false)
    (h : ((view.answerIndexBase settings query
      (.searchAfter cursor pitId (some keepAlive))).run backends state).result = .ok page) :
    ∃ search, Turn.Reads view settings query cursor pitId keepAlive
      { page, exchanges := (view.answerIndexBase settings query
          (.searchAfter cursor pitId (some keepAlive))).exchanges backends state } search := by
  simp only [answerIndexBase, htypes, Bool.false_eq_true, ↓reduceIte] at h ⊢
  obtain ⟨indices, after, hresolve, h, hexchanges⟩ := ask_eq_ok h
  rw [hexchanges]
  obtain ⟨byNode, hroute, heq⟩ := attempt_eq_ok h
  have hroute := Result.mapError_eq_ok.1 hroute
  have hindices : indices.isEmpty = false := by simpa using hsound.resolve hresolve
  rw [heq] at h ⊢
  simp only [hindices, Bool.false_eq_true, ↓reduceIte] at h ⊢
  cases pitId with
  | none =>
    simp only [answerIndices, Pagination.pitToOpen?, Pagination.atPit] at h ⊢
    obtain ⟨id, opened, -, h, hexchanges⟩ := ask_eq_ok h
    obtain ⟨request, visible, text, answer, total, hrequest, hsearch, hanswer, hnext, hpage⟩ :=
      reads_of_answerRouted hsound h
    refine ⟨⟨indices, request, answer⟩, ?_, ?_, hpage.1, hpage.2, hnext⟩
    · refine ⟨(BaseTypes.ofView view).names, query.start, query.stop, keepAlive, id, text, total,
        ?_, hanswer⟩
      rw [hexchanges, hsearch, Bool.not_false, Option.isNone_none]
      rfl
    · exact ⟨id, by simp, byNode, visible, hroute, hrequest⟩
  | some id =>
    simp only [answerIndices, Pagination.pitToOpen?, Pagination.pitId?] at h ⊢
    obtain ⟨request, visible, text, answer, total, hrequest, hsearch, hanswer, hnext, hpage⟩ :=
      reads_of_answerRouted hsound h
    refine ⟨⟨indices, request, answer⟩, ?_, ?_, hpage.1, hpage.2, hnext⟩
    · refine ⟨(BaseTypes.ofView view).names, query.start, query.stop, keepAlive, id, text, total,
        ?_, hanswer⟩
      rw [hsearch]
      rfl
    · exact ⟨id, by simp, byNode, visible, hroute, hrequest⟩

theorem answer_of_mayRead [Readers] (hchecked : view.checked settings = .ok valid)
    (hengine : valid.engine = .indexBase) {pagination : Pagination}
    (hpagination : query.pagination .indexBase = .ok pagination)
    (hfilter : query.checkFilter settings valid.fields = .ok true)
    (h : ((view.answer settings query).run backends state).result = .ok page) :
    view.answer settings query = valid.answerIndexBase settings query pagination := by
  have hanswer : view.answer settings query =
      attempt (query.checkSort valid.fields) fun _ =>
        valid.answerIndexBase settings query pagination := by
    rw [answer, hchecked]
    simp only [Except.mapError, attempt, answerChecked, hfilter, Bool.not_true, Bool.false_eq_true,
      ↓reduceIte, hengine, hpagination]
  rw [hanswer] at h ⊢
  obtain ⟨-, -, heq⟩ := attempt_eq_ok h
  exact heq

/-- **What one request does**, if the view may have rows for the query. -/
theorem reads_of_answer [Readers] (hchecked : view.checked settings = .ok valid)
    (hengine : valid.engine = .indexBase) (hsound : backends.Sound) {pitId : Option String}
    {keepAlive : String}
    (hpagination : query.pagination .indexBase = .ok (.searchAfter cursor pitId (some keepAlive)))
    (hmay : valid.MayRead settings query)
    (h : ((view.answer settings query).run backends state).result = .ok page) :
    ∃ search, Turn.Reads valid settings query cursor pitId keepAlive
      { page, exchanges := (view.answer settings query).exchanges backends state } search := by
  obtain ⟨hfilter, htypes⟩ := hmay
  have hanswer := answer_of_mayRead hchecked hengine hpagination hfilter h
  rw [hanswer] at h ⊢
  exact reads_of_answerIndexBase hsound htypes h

theorem exchanges_of_not_mayRead [Readers] (hchecked : view.checked settings = .ok valid)
    (hengine : valid.engine = .indexBase) {pitId keepAlive : Option String}
    (hpagination : query.pagination .indexBase = .ok (.searchAfter cursor pitId keepAlive))
    (hnot : ¬valid.MayRead settings query)
    (h : ((view.answer settings query).run backends state).result = .ok page) :
    (view.answer settings query).exchanges backends state = [] := by
  have hanswer : view.answer settings query = valid.answerChecked settings query := by
    rw [answer, hchecked]
    rfl
  rw [hanswer] at h
  obtain ⟨mayHaveRows, hfilter, heq⟩ := attempt_eq_ok h
  cases mayHaveRows with
  | false =>
    rw [hanswer, answerChecked, heq]
    rfl
  | true =>
    have htypes : (BaseTypes.ofView valid).isEmpty = true := by
      by_contra htypes
      exact hnot ⟨hfilter, by simpa using htypes⟩
    rw [← hanswer] at h
    rw [answer_of_mayRead hchecked hengine hpagination hfilter h]
    simp only [answerIndexBase, htypes, ↓reduceIte]
    rfl

/-! ### All pages -/

theorem pages_succ [Readers] {n : Nat} {turns : List Turn}
    (h : view.pages settings backends (n + 1) query state = .ok turns) :
    ∃ page others, ((view.answer settings query).run backends state).result = .ok page ∧
      view.pages settings backends n (query.after page)
        ((view.answer settings query).run backends state).state = .ok others ∧
      turns = { page, exchanges := (view.answer settings query).exchanges backends state } ::
        others := by
  obtain ⟨page, hpage, h⟩ := Result.bind_eq_ok.1 h
  obtain ⟨others, hothers, h⟩ := Result.bind_eq_ok.1 h
  exact ⟨page, others, hpage, hothers, (Except.ok.inj h).symm⟩

/-- Requests for rows that there cannot be make no call. -/
theorem exchanges_of_pages [Readers] (hchecked : view.checked settings = .ok valid)
    (hengine : valid.engine = .indexBase) {pitId keepAlive : Option String}
    (hpagination : query.pagination .indexBase = .ok (.searchAfter cursor pitId keepAlive))
    (hnot : ¬valid.MayRead settings query) {n : Nat} {turns : List Turn}
    (h : view.pages settings backends n query state = .ok turns) :
    ∀ turn ∈ turns, turn.exchanges = [] := by
  induction n generalizing query state turns cursor pitId with
  | zero =>
    obtain rfl := Except.ok.inj h
    exact List.forall_mem_nil _
  | succ n ih =>
    obtain ⟨page, others, hpage, hothers, rfl⟩ := pages_succ h
    refine List.forall_mem_cons.2 ⟨?_, ?_⟩
    · exact exchanges_of_not_mayRead hchecked hengine hpagination hnot hpage
    · exact ih (Query.pagination_after hpagination page) hnot hothers

/-- The requests after a page go on where it ended, each after the one before. -/
theorem pages_follow [Readers] (hchecked : view.checked settings = .ok valid)
    (hengine : valid.engine = .indexBase) (hsound : backends.Sound) {pitId : Option String}
    {keepAlive : String}
    (hpagination : query.pagination .indexBase = .ok (.searchAfter cursor pitId (some keepAlive)))
    (hmay : valid.MayRead settings query) {n : Nat} {rest : List Turn} {previous : Search}
    (hpit : page.pitId = previous.answer.pitId) (hcursor : page.cursor = previous.answer.lastSort)
    (hnext : ∃ id, previous.answer.pitId = some id ∧ id ≠ "")
    (h : view.pages settings backends n (query.after page) state = .ok rest) :
    ∃ tail, List.Forall₂ (Turn.Makes false false) rest tail ∧
      (previous :: tail).IsChain (Search.Follows keepAlive) ∧
      ∀ search ∈ tail, ∃ cursor pit, search.Asks valid settings query cursor pit := by
  -- what is known of a page and its search is all that the next request needs
  induction n generalizing page state rest previous with
  | zero =>
    obtain rfl := Except.ok.inj h
    exact ⟨[], .nil, .singleton _, List.forall_mem_nil _⟩
  | succ n ih =>
    obtain ⟨id, hid, hne⟩ := hnext
    obtain ⟨other, others, hother, hothers, rfl⟩ := pages_succ h
    -- the next request names the point in time, so it opens none and does not count
    have hafter := Query.pagination_after hpagination page
    rw [hpit, hid, Option.filter_some, if_pos (by simpa using hne)] at hafter
    obtain ⟨search, hreads⟩ := reads_of_answer hchecked hengine hsound hafter hmay hother
    obtain ⟨instant, hinstant, hasks⟩ := hreads.asks
    obtain rfl := hinstant id rfl
    rw [hcursor] at hasks
    rw [Query.after_after] at hothers
    obtain ⟨tail, hmakes, hchain, htail⟩ := ih hreads.pitId hreads.cursor hreads.next hothers
    refine ⟨search :: tail, .cons ?_ hmakes, .cons_cons (hasks.follows hid) hchain, ?_⟩
    · simpa using hreads.makes
    · exact List.forall_mem_cons.2 ⟨⟨_, _, hasks⟩, htail⟩

/-- **What all requests do.** If there may be rows, one point in time is opened over all pages, for
the first one; documents are counted for the first page if a total is wanted and for no other; and
every search after the first is made at the point in time that the last answer names, after the sort
values of its last hit, with the query clause and the sort list of the first search as long as the
indices are the same. Otherwise no call is made at all. -/
theorem pages_at_point_in_time [Readers] (hchecked : view.checked settings = .ok valid)
    (hengine : valid.engine = .indexBase) (hsound : backends.Sound) {keepAlive : String}
    (hpagination : query.pagination .indexBase = .ok (.searchAfter cursor none (some keepAlive)))
    {n : Nat} {first : Turn} {rest : List Turn}
    (h : view.pages settings backends n query state = .ok (first :: rest)) :
    (valid.MayRead settings query →
      ((first :: rest).flatMap Turn.calls).countP Call.opensPit = 1 ∧
      first.calls.countP Call.counts = query.needTotal.toNat ∧
      (rest.flatMap Turn.calls).countP Call.counts = 0 ∧
      ∃ head tail, first.Makes true query.needTotal head ∧
        List.Forall₂ (Turn.Makes false false) rest tail ∧
        (head :: tail).IsChain (Search.Follows keepAlive) ∧
        ∀ search ∈ tail, search.indices = head.indices → search.Agrees head) ∧
    (¬valid.MayRead settings query → ∀ turn ∈ first :: rest, turn.exchanges = []) := by
  refine ⟨fun hmay => ?_, fun hnot => exchanges_of_pages hchecked hengine hpagination hnot h⟩
  cases n with
  | zero => cases h
  | succ n =>
    obtain ⟨page, others, hpage, hothers, hturns⟩ := pages_succ h
    obtain ⟨rfl, rfl⟩ := List.cons.inj hturns
    obtain ⟨head, hreads⟩ := reads_of_answer hchecked hengine hsound hpagination hmay hpage
    obtain ⟨instant, -, hasks⟩ := hreads.asks
    have hmakes := hreads.makes
    rw [Option.isNone_none, Bool.and_true] at hmakes
    obtain ⟨tail, hrest, hchain, htail⟩ := pages_follow hchecked hengine hsound hpagination hmay
      hreads.pitId hreads.cursor hreads.next hothers
    obtain ⟨hopens, hcounts⟩ := Turn.Makes.countP_flatMap hrest
    refine ⟨?_, hmakes.countP_counts, hcounts, head, tail, hmakes, hrest, hchain, ?_⟩
    · rw [List.flatMap_cons, List.countP_append, hmakes.countP_opensPit, hopens]
      rfl
    · intro search hsearch hindices
      obtain ⟨values, pit, hother⟩ := htail search hsearch
      exact hother.agrees hasks hindices

/-! ### Two pages -/

/-- An atomic view of logs. -/
def ofEntries : View := View.atomic "entries" "logs" .indexBase

/-- A query that pages at a point in time. -/
def paging : Query where
  useCursor := true
  cursor := some { pitKeepAlive := some "1m" }
  needTotal := true

/-- An answer with one hit, written as nested arrays: the point in time stands behind the hits. -/
def oneHit : String := "[[null,[[\"x-logs-1\",\"1\",null,\x7b\x7d,[7,\"a\"]]]],null,\"later\"]"

/-- Backends that have one document. -/
def oneDocument : Backends Unit := fun call state =>
  match call with
  | .resolve .. => (.ok ["x-logs-1"], state)
  | .count .. => (.ok 1, state)
  | .openPit .. => (.ok "now", state)
  | .search .. | .scroll .. | .searchAt .. | .fetch .. => (.ok oneHit, state)

theorem oneDocument_sound : oneDocument.Sound where
  resolve h := by
    cases h
    exact List.cons_ne_nil _ _
  searchAt h hanswer := by
    have hread : (SearchAnswer.ofText oneHit).toOption.bind SearchAnswer.pitId = some "later" := by
      decide +kernel
    cases h
    rw [hanswer] at hread
    exact ⟨"later", hread, by decide⟩

theorem pages_at_point_in_time_paging :
    ∃ first second head next, ofEntries.pages {} oneDocument 2 paging () = .ok [first, second] ∧
      ([first, second].flatMap Turn.calls).countP Call.opensPit = 1 ∧
      first.calls.countP Call.counts = 1 ∧ second.calls.countP Call.counts = 0 ∧
      first.Makes true true head ∧ second.Makes false false next ∧ head.Follows "1m" next := by
  have hchecked : ofEntries.checked {} = .ok { ofEntries with isSingleSource := true } := rfl
  have hpagination : paging.pagination .indexBase = .ok (.searchAfter [] none (some "1m")) := rfl
  have hmay : View.MayRead { ofEntries with isSingleSource := true } {} paging := ⟨rfl, rfl⟩
  have hread : (ofEntries.pages {} oneDocument 2 paging ()).toOption.isSome = true := by
    decide +kernel
  obtain ⟨turns, hturns⟩ := Option.isSome_iff_exists.1 hread
  have hpages := Result.toOption_eq_some.1 hturns
  obtain ⟨page, others, -, hothers, rfl⟩ := pages_succ hpages
  obtain ⟨last, none, -, hnone, rfl⟩ := pages_succ hothers
  obtain rfl := Except.ok.inj hnone
  obtain ⟨hopens, hfirst, hsecond, head, tail, hmakes, hrest, hchain, -⟩ :=
    (pages_at_point_in_time hchecked rfl oneDocument_sound hpagination hpages).1 hmay
  cases hrest with
  | cons hnext hnil =>
    cases hnil
    rw [List.flatMap_singleton] at hsecond
    exact ⟨_, _, head, _, hpages, hopens, hfirst, hsecond, hmakes, hnext,
      List.isChain_pair.1 hchain⟩

/-- A query that pages at a point in time, for a field that the view does not have. -/
def pagingBlind : Query :=
  { paging with
    filter := some (.leaf "level" "==" (.string "error"))
    allowMissingField := true }

/-- A query whose filter names a field that the view does not have succeeds without a point in
time. -/
theorem pages_without_point_in_time :
    ∃ valid first, ofEntries.checked {} = .ok valid ∧ valid.engine = .indexBase ∧
      oneDocument.Sound ∧
      pagingBlind.pagination .indexBase = .ok (.searchAfter [] none (some "1m")) ∧
      ofEntries.pages {} oneDocument 1 pagingBlind () = .ok [first] ∧
      first.calls.countP Call.opensPit ≠ 1 := by
  have hpages : ofEntries.pages {} oneDocument 1 pagingBlind () = .ok [_] := rfl
  exact ⟨{ ofEntries with isSingleSource := true }, _, rfl, rfl, oneDocument_sound, rfl, hpages,
    by decide⟩

end View

end ViewCompiler
