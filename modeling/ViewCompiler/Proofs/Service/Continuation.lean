import ViewCompiler.Proofs.Request.Search
import ViewCompiler.Proofs.Service.Session
import ViewCompiler.Readers.Standard
import ViewCompiler.Service.Answer

/-!
# Requests that go on

A query that goes on after a page carries what that page left: the id of a scroll, a point in time,
the values of a cursor. A session keeps it if the call that asks for the page passes it on, and all
its other calls prepare the page or count.

* `Pagination.Continues`: the pagination goes on after a page.
* `Call.GoesOn`: a call asks for the page that follows, `Call.Prepares`: it asks for no page.
* `Session.GoesOn`: a session asks for the page that follows, whatever the replies are.
* `Session.GoesOn.run`: **it does so with all backends**, by one lemma for each call.
* `View.answer_goesOn`: a query that goes on is answered by such a session, unless the scroll of a
  search engine without a resolver is dropped.
* `View.continuations_go_on_iff`: **a query that goes on carries on with all backends exactly if its
  scroll is not dropped.**
-/

namespace ViewCompiler

/-! ### Pagination -/

namespace Pagination

/-- Does the pagination go on after a page? -/
def Continues : Pagination → Prop
  | offset _ => False
  | scroll _ scrollId => scrollId.isSome = true
  | searchAfter cursor pitId _ => pitId.isSome = true ∨ cursor ≠ []
  | sqlCursor cursor => cursor ≠ []

/-- Does an engine have this way to page? -/
def Fits (engine : Engine) : Pagination → Prop
  | offset _ => True
  | scroll .. | searchAfter .. => engine ≠ .sql
  | sqlCursor _ => engine = .sql

end Pagination

theorem Query.pagination_fits {query : Query} {engine : Engine} {pagination : Pagination}
    (h : query.pagination engine = .ok pagination) : pagination.Fits engine := by
  rw [Query.pagination] at h
  split at h
  · cases h
  split at h
  · cases h
  split at h
  · split at h
    · cases h
    · next hsql =>
      obtain rfl := Except.ok.inj h
      exact hsql
  split at h
  · dsimp only at h
    split at h
    · next hsql =>
      split at h
      · cases h
      · obtain rfl := Except.ok.inj h
        exact hsql
    · next hsql =>
      obtain rfl := Except.ok.inj h
      exact hsql
  · obtain rfl := Except.ok.inj h
    trivial

/-! ### Calls -/

namespace Call

/-- The call asks for no page: it resolves indices, opens a point in time or counts. -/
def Prepares : Call → Prop
  | resolve .. | openPit .. | count .. => True
  | fetch sql nextUri limit _ => nextUri = none ∧ limit = 1 ∧ ∃ rows, sql = SqlRequest.counting rows
  | search .. | scroll .. | searchAt .. => False

/-- The text of a search goes on after a cursor, at a point in time if there is one. -/
def SearchGoesOn (cursor : List Json) (pitId : Option String) (body : String) : Prop :=
  ∃ request : Json, body = request.compact ∧
    (cursor ≠ [] → request.member? "search_after" = some (.array cursor)) ∧
    ∀ id ∈ pitId, ∃ pit, request.member? "pit" = some pit ∧ pit.member? "id" = some (.string id)

/-- The call asks for the page that follows. -/
inductive GoesOn : Pagination → Call → Prop
  | scroll {opened : Option String} (scrollId keepAlive : String) :
    GoesOn (.scroll opened (some scrollId)) (.scroll scrollId keepAlive)
  | search {cursor : List Json} {pitId keepAlive scroll : Option String} {indices : List String}
      {body : String} (hbody : SearchGoesOn cursor pitId body) :
    GoesOn (.searchAfter cursor pitId keepAlive) (.search indices body scroll)
  | searchAt {cursor : List Json} {pitId keepAlive : Option String} {body : String}
      (hbody : SearchGoesOn cursor pitId body) :
    GoesOn (.searchAfter cursor pitId keepAlive) (.searchAt body)
  | fetch {cursor : List Json} {sql : String} {limit : Nat} {timeout : Duration} :
    GoesOn (.sqlCursor cursor) (.fetch sql
      (some (Text.join "/" (cursor.map SqlRequest.cursorPart))) limit timeout)

end Call

/-! ### Sessions -/

namespace Session

variable {α : Type} {session : Session} {result : Except QueryError α} {next : α → Session}
  {pagination : Pagination}

/-- The session asks for no page. -/
def Finishes : Session → Prop
  | .done _ => True
  | .ask call next => call.Prepares ∧ ∀ reply, (next reply).Finishes

/-- The session prepares a page and then asks for the one that follows, or it ends without a call
for a page, with an error or with an empty page. -/
def GoesOn (pagination : Pagination) : Session → Prop
  | .done result => ∀ page, result = .ok page → ∃ view query, page = .empty view query
  | .ask call next =>
    (call.Prepares ∧ ∀ reply, (next reply).GoesOn pagination) ∨
      (call.GoesOn pagination ∧ ∀ reply, (next reply).Finishes)

/-- What has come of a session that goes on: one of its calls asked for the page that follows and
the others for none, or no call asked for a page and there are no rows. -/
def Outcome.GoesOn {σ : Type} (pagination : Pagination) (outcome : Outcome σ) : Prop :=
  (∃ before call after, outcome.calls = before ++ call :: after ∧ call.GoesOn pagination ∧
      ∀ other ∈ before ++ after, other.Prepares) ∨
    (∀ call ∈ outcome.calls, call.Prepares) ∧
      ∀ page, outcome.result = .ok page → ∃ view query, page = .empty view query

theorem Finishes.run {σ : Type} (h : session.Finishes) (backends : Backends σ) (state : σ) :
    ∀ call ∈ (session.run backends state).calls, call.Prepares := by
  induction session generalizing state with
  | done result => exact List.forall_mem_nil _
  | ask call next ih =>
    obtain ⟨hcall, hnext⟩ := h
    rcases hreply : backends call state with ⟨failure | reply, after⟩
    · rw [run_ask_error hreply]
      exact List.forall_mem_singleton.2 hcall
    · rw [run_ask_ok hreply]
      exact List.forall_mem_cons.2 ⟨hcall, ih reply (hnext reply) after⟩

theorem Outcome.GoesOn.cons {σ : Type} {outcome : Outcome σ} (h : outcome.GoesOn pagination)
    {call : Call} (hcall : call.Prepares) :
    Outcome.GoesOn pagination { outcome with calls := call :: outcome.calls } := by
  rcases h with ⟨before, page, after, hcalls, hpage, hothers⟩ | ⟨hcalls, hresult⟩
  · refine .inl ⟨call :: before, page, after, ?_, hpage, List.forall_mem_cons.2 ⟨hcall, hothers⟩⟩
    simp only [hcalls, List.cons_append]
  · exact .inr ⟨List.forall_mem_cons.2 ⟨hcall, hcalls⟩, hresult⟩

/-- **A session that goes on does so with all backends.** -/
theorem GoesOn.run {σ : Type} (h : session.GoesOn pagination) (backends : Backends σ) (state : σ) :
    (session.run backends state).GoesOn pagination := by
  induction session generalizing state with
  | done result => exact .inr ⟨List.forall_mem_nil _, h⟩
  | ask call next ih =>
    rcases h with ⟨hcall, hnext⟩ | ⟨hcall, hnext⟩
    · -- a call before the page
      rcases hreply : backends call state with ⟨failure | reply, after⟩
      · rw [run_ask_error hreply]
        exact .inr ⟨List.forall_mem_singleton.2 hcall, fun page hpage => by cases hpage⟩
      · rw [run_ask_ok hreply]
        exact (ih reply (hnext reply) after).cons hcall
    · -- the call for the page
      rcases hreply : backends call state with ⟨failure | reply, after⟩
      · rw [run_ask_error hreply]
        exact .inl ⟨[], call, [], rfl, hcall, List.forall_mem_nil _⟩
      · rw [run_ask_ok hreply]
        exact .inl ⟨[], call, _, rfl, hcall, (hnext reply).run backends after⟩

theorem goesOn_attempt (h : ∀ value, result = .ok value → (next value).GoesOn pagination) :
    (attempt result next).GoesOn pagination := by
  cases result with
  | error error => exact fun page hpage => by cases hpage
  | ok value => exact h value rfl

theorem finishes_attempt (h : ∀ value, (next value).Finishes) :
    (attempt result next).Finishes := by
  cases result with
  | error error => trivial
  | ok value => exact h value

end Session

/-! ### Answers -/

namespace View

open Session

variable {view : View} {settings : QuerySettings} {query : Query} {pagination : Pagination}
  {routes : IndexRoutes} {cursor : List Json} {pitId keepAlive : Option String}

theorem answerEmpty_goesOn : (view.answerEmpty query).GoesOn pagination := by
  intro page hpage
  exact ⟨view, query, (Except.ok.inj hpage).symm⟩

theorem searchGoesOn_body [Readers] {request : SearchRequest} {visible : FieldSet}
    {byNode : NodeRoutes}
    (h : view.searchRequest settings query (.searchAfter cursor pitId keepAlive) byNode =
      .ok (request, visible)) : Call.SearchGoesOn cursor pitId request.body := by
  obtain ⟨hcursor, hpit⟩ := searchRequest_cursor h
  refine ⟨request.encode, rfl, fun hne => ?_, fun id hid => ?_⟩
  · rw [SearchRequest.encode_searchAfter, hcursor, if_neg hne]
  · obtain rfl := Option.mem_def.1 hid
    rw [SearchRequest.encode_pit, hpit]
    exact ⟨_, rfl, rfl⟩

theorem askSearch_goesOn {body : String} {next : String → Session} {given : Option String}
    (hbody : Call.SearchGoesOn cursor given body) (hnext : ∀ reply, (next reply).Finishes) :
    (askSearch routes (.searchAfter cursor pitId keepAlive) body next).GoesOn
      (.searchAfter cursor given keepAlive) := by
  rw [askSearch]
  split
  · exact .inr ⟨.searchAt hbody, hnext⟩
  · exact .inr ⟨.search hbody, hnext⟩

/-- The search goes on after the cursor, at a point in time that the query names or at another if
it names none. -/
theorem answerRouted_goesOn [Readers] {continuing : Bool} {given : Option String}
    (hgiven : given = none ∨ given = pitId) :
    (view.answerRouted settings query routes (.searchAfter cursor pitId keepAlive)
      continuing).GoesOn (.searchAfter cursor given keepAlive) := by
  refine goesOn_attempt fun ⟨request, fields⟩ hrequest => askSearch_goesOn ?_ fun body => ?_
  · have hbody : Call.SearchGoesOn cursor pitId request.body := searchGoesOn_body hrequest
    rcases hgiven with rfl | rfl
    · obtain ⟨value, htext, hcursor, -⟩ := hbody
      exact ⟨value, htext, hcursor, fun id hid => by cases hid⟩
    · exact hbody
  · dsimp only
    split
    · exact ⟨trivial, fun total => finishes_attempt fun answer => trivial⟩
    · exact finishes_attempt fun answer => trivial

theorem answerIndices_goesOn [Readers] :
    (view.answerIndices settings query (.searchAfter cursor pitId keepAlive) routes).GoesOn
      (.searchAfter cursor pitId keepAlive) := by
  rw [answerIndices]
  cases pitId with
  | some id => exact answerRouted_goesOn (.inr rfl)
  | none =>
    cases keepAlive with
    | none => exact answerRouted_goesOn (.inr rfl)
    -- a point in time that is opened on the way is not one of the query
    | some keepAlive => exact .inl ⟨trivial, fun id => answerRouted_goesOn (.inl rfl)⟩

theorem answerIndexBase_goesOn [Readers] (hcontinues : pagination.Continues)
    (hfits : pagination.Fits .indexBase) :
    (view.answerIndexBase settings query pagination).GoesOn pagination := by
  match pagination with
  | .offset _ => exact absurd hcontinues not_false
  | .sqlCursor _ => cases hfits
  | .scroll opened (some scrollId) =>
    refine .inr ⟨.scroll .., fun body => finishes_attempt fun answer => ?_⟩
    exact finishes_attempt fun grant => trivial
  | .searchAfter cursor pitId keepAlive =>
    simp only [answerIndexBase]
    split
    · exact answerEmpty_goesOn
    · refine .inl ⟨trivial, fun indices => goesOn_attempt fun byNode _ => ?_⟩
      split
      · exact answerEmpty_goesOn
      · exact answerIndices_goesOn

/-- The view has a search engine that is addressed by base types, which is asked for the first page
of a scroll that goes on. -/
structure DropsScroll [Readers] (settings : QuerySettings) (query : Query) (pagination : Pagination)
    (view : View) : Prop where
  engine : view.engine = .rawSearch
  scroll : ∃ opened scrollId, pagination = .scroll opened (some scrollId)
  filter : query.checkFilter settings view.fields = .ok true
  sort : query.checkSort view.fields = .ok ()
  routes : (BaseTypes.ofView view).direct.isEmpty = false
  request : ∃ result,
    view.searchRequest settings query pagination (BaseTypes.ofView view).direct.byNode = .ok result

/-- A search engine that is addressed by base types goes on after a cursor. A scroll is kept only
where no search is made. -/
theorem answerRawSearch_goesOn [Readers] (hcontinues : pagination.Continues)
    (hfits : pagination.Fits .rawSearch)
    (hkept : ∀ opened scrollId, pagination = .scroll opened (some scrollId) →
      (BaseTypes.ofView view).direct.isEmpty = false → ¬∃ result,
        view.searchRequest settings query pagination (BaseTypes.ofView view).direct.byNode =
          .ok result) :
    (view.answerRawSearch settings query pagination).GoesOn pagination := by
  rw [answerRawSearch]
  split
  · exact answerEmpty_goesOn
  · next hroutes =>
    have hroutes : (BaseTypes.ofView view).direct.isEmpty = false := by simpa using hroutes
    refine goesOn_attempt fun ⟨request, fields⟩ hrequest => ?_
    match pagination with
    | .offset _ => exact absurd hcontinues not_false
    | .sqlCursor _ => cases hfits
    | .scroll opened (some scrollId) =>
      exact absurd ⟨_, hrequest⟩ (hkept opened scrollId rfl hroutes)
    | .searchAfter cursor pitId keepAlive =>
      exact .inr ⟨.search (searchGoesOn_body hrequest), fun body =>
        finishes_attempt fun answer => trivial⟩

theorem sqlRequest_page [Readers] {request : SqlRequest} {compiled : View}
    (h : view.sqlRequest settings query pagination = .ok (request, compiled)) :
    request.nextUri = SqlRequest.cursorPath pagination.cursor ∧
      ∀ countSql ∈ request.countSql, ∃ rows, countSql = SqlRequest.counting rows := by
  obtain ⟨⟨base, compiled⟩, -, h⟩ := Result.bind_eq_ok.1 h
  obtain ⟨⟨filtered, grant⟩, -, h⟩ := Result.bind_eq_ok.1 h
  obtain ⟨items, -, h⟩ := Result.bind_eq_ok.1 h
  cases h
  refine ⟨rfl, fun countSql hcount => ⟨filtered, ?_⟩⟩
  simp only [Option.mem_def, Option.ite_none_right_eq_some] at hcount
  exact (Option.some.inj hcount.2).symm

theorem answerSql_goesOn [Readers] (hcontinues : pagination.Continues)
    (hfits : pagination.Fits .sql) :
    (view.answerSql settings query pagination).GoesOn pagination := by
  refine goesOn_attempt fun ⟨request, compiled⟩ hrequest => goesOn_attempt fun timeout _ => ?_
  obtain ⟨huri, hcount⟩ := sqlRequest_page hrequest
  match pagination with
  | .offset _ => exact absurd hcontinues not_false
  | .scroll .. => exact absurd rfl hfits
  | .searchAfter .. => exact absurd rfl hfits
  | .sqlCursor cursor =>
    have hpath : request.nextUri = some (Text.join "/" (cursor.map SqlRequest.cursorPart)) := by
      have hcursor : cursor.isEmpty = false := List.isEmpty_eq_false_iff.2 hcontinues
      rw [huri, SqlRequest.cursorPath, Pagination.cursor, hcursor]
      rfl
    have hrows (total : Option Nat) :
        (compiled.answerRows query request timeout total).GoesOn (.sqlCursor cursor) := by
      rw [answerRows, hpath]
      exact .inr ⟨.fetch, fun body => finishes_attempt fun answer => trivial⟩
    split
    · exact hrows none
    · next countSql hsql =>
      refine .inl ⟨⟨rfl, rfl, hcount countSql hsql⟩, fun body => goesOn_attempt fun count _ => ?_⟩
      split
      · exact answerEmpty_goesOn
      · exact hrows (some count)

/-- **A query that goes on is answered by a session that does, unless its scroll is dropped.** -/
theorem answerChecked_goesOn [Readers] (hpagination : query.pagination view.engine = .ok pagination)
    (hcontinues : pagination.Continues) (hkept : ¬view.DropsScroll settings query pagination) :
    (view.answerChecked settings query).GoesOn pagination := by
  have hfits := Query.pagination_fits hpagination
  refine goesOn_attempt fun mayHaveRows hfilter => ?_
  cases mayHaveRows with
  | false => exact answerEmpty_goesOn
  | true =>
    refine goesOn_attempt fun _ hsort => ?_
    rw [hpagination]
    cases hengine : view.engine with
    | indexBase => exact answerIndexBase_goesOn hcontinues (hengine ▸ hfits)
    | sql => exact answerSql_goesOn hcontinues (hengine ▸ hfits)
    | rawSearch =>
      refine answerRawSearch_goesOn hcontinues (hengine ▸ hfits) ?_
      intro opened scrollId hscroll hroutes hrequest
      exact hkept ⟨hengine, ⟨opened, scrollId, hscroll⟩, hfilter, hsort, hroutes, hrequest⟩

/-- A scroll that is dropped is answered by a search for its first page. -/
theorem DropsScroll.exists_search [Readers] (h : view.DropsScroll settings query pagination)
    (hpagination : query.pagination view.engine = .ok pagination) :
    ∃ indices body opened next,
      view.answerChecked settings query = .ask (.search indices body opened) next := by
  obtain ⟨hengine, ⟨opened, scrollId, rfl⟩, hfilter, hsort, hroutes, hrequest⟩ := h
  obtain ⟨⟨request, fields⟩, hrequest⟩ := hrequest
  rw [answerChecked, hfilter, hsort, hpagination, hengine]
  simp only [attempt, Except.mapError, Bool.not_true, Bool.false_eq_true, ↓reduceIte,
    answerRawSearch, hroutes, hrequest]
  exact ⟨_, _, _, _, rfl⟩

/-- **Whatever the backends do, a query that goes on after a page asks for the one that follows,
exactly if its scroll is not dropped**: a search engine that is addressed by base types answers it
with the first page again. -/
theorem continuations_go_on_iff [Readers] {valid : View}
    (hchecked : view.checked settings = .ok valid)
    (hpagination : query.pagination valid.engine = .ok pagination)
    (hcontinues : pagination.Continues) :
    (∀ (σ : Type) (backends : Backends σ) (state : σ),
      ((view.answer settings query).run backends state).GoesOn pagination) ↔
      ¬valid.DropsScroll settings query pagination := by
  have hanswer : view.answer settings query = valid.answerChecked settings query := by
    rw [answer, hchecked]
    rfl
  rw [hanswer]
  constructor
  · intro h hdrops
    obtain ⟨indices, body, scroll, next, hsearch⟩ := hdrops.exists_search hpagination
    obtain ⟨opened, scrollId, rfl⟩ := hdrops.scroll
    -- backends that answer nothing
    have hrun := h Unit (fun _ state => (.error default, state)) ()
    rw [hsearch, run_ask_error rfl] at hrun
    rcases hrun with ⟨before, page, after, hcalls, hpage, -⟩ | ⟨hcalls, -⟩
    · have hmem : page ∈ before ++ page :: after := List.mem_append_right _ List.mem_cons_self
      obtain rfl := List.mem_singleton.1 (hcalls ▸ hmem)
      cases hpage
    · exact hcalls _ List.mem_cons_self
  · intro hkept σ backends state
    exact (answerChecked_goesOn hpagination hcontinues hkept).run backends state

/-- An atomic view of events, behind a search engine that is addressed by base types. -/
def ofEvents : View := View.atomic "events" "events" .rawSearch

/-- A query that goes on with a scroll. -/
def scrolling : Query where
  scroll := some "1m"
  scrollId := some "next"

theorem continuations_go_on_iff_scrolling :
    ¬∀ (σ : Type) (backends : Backends σ) (state : σ),
      ((ofEvents.answer {} scrolling).run backends state).GoesOn
        (.scroll (some "1m") (some "next")) := by
  have hchecked : ofEvents.checked {} = .ok { ofEvents with isSingleSource := true } := rfl
  have hcontinues : (Pagination.scroll (some "1m") (some "next")).Continues := rfl
  rw [continuations_go_on_iff hchecked rfl hcontinues, not_not]
  exact ⟨rfl, ⟨_, _, rfl⟩, rfl, rfl, rfl, _, rfl⟩

end View

end ViewCompiler
