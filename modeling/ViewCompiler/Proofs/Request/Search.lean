import ViewCompiler.Proofs.Filter.Meaning
import ViewCompiler.Readers.Standard
import ViewCompiler.Request.Search

/-!
# Which documents a search finds

The clauses of a search are told apart by what they say, not by the lists in which they stand.

* `BoolQuery.holds`: does a document match the clauses of a query? Both ways to write the query as
  a value mean this (`BoolQuery.holds_single`), and adding a clause adds a condition
  (`BoolQuery.holds_push`).
* `Node.Admits`: the documents of a view node; `View.scopeQuery_spec` says that a scope query finds
  the documents of all view nodes.
* `View.searchRequest_finds`: **a search finds the documents in the scope and in the time window
  that satisfy the filter and the access rules.**
-/

namespace ViewCompiler

/-! ### Lists of clauses -/

namespace BoolQuery

variable {leaf : Json → Bool} {query : BoolQuery} {clause : Json} {scoring : Bool}

/-- Does a document match the clauses of the query? -/
def holds (leaf : Json → Bool) (query : BoolQuery) : Bool :=
  Clause.verdict (query.minimum.getD 0) ((query.filter ++ query.must).map (Clause.holds leaf)) []
    (query.should.map (Clause.holds leaf))

theorem listed_members {members : KeyMap Json}
    (h : members = query.members ∨ members = KeyMap.ofList query.members) :
    Clause.minimum members = query.minimum.getD 0 ∧
      Clause.listed members "filter" = query.filter ∧ Clause.listed members "must" = query.must ∧
      Clause.listed members "must_not" = [] ∧ Clause.listed members "should" = query.should := by
  obtain ⟨filter, must, should, minimum⟩ := query
  rcases h with rfl | rfl <;> cases filter <;> cases must <;> cases should <;> cases minimum <;>
    simp [BoolQuery.members, Clause.minimum, Clause.listed, KeyMap.ofList, KeyMap.empty,
      KeyMap.get?_insert, KeyMap.get?_cons, Json.items?, Json.nat]

/-- Both ways to write a query as a value mean the query. -/
theorem holds_single {members : KeyMap Json}
    (h : members = query.members ∨ members = KeyMap.ofList query.members) :
    Clause.holds leaf (Clause.single "bool" (.object members)) = query.holds leaf := by
  obtain ⟨hminimum, hfilter, hmust, hnot, hshould⟩ := listed_members h
  rw [Clause.holds_bool, hminimum, hfilter, hmust, hnot, hshould, holds, List.map_nil]

theorem holds_clause (query : BoolQuery) : Clause.holds leaf query.clause = query.holds leaf :=
  holds_single (.inr rfl)

/-- A query asks for optional clauses only if it has some. -/
def Proper (query : BoolQuery) : Prop := query.should = [] → query.minimum = none

theorem holds_iff (h : query.Proper) :
    query.holds leaf = true ↔
      (∀ clause ∈ query.filter ++ query.must, Clause.holds leaf clause = true) ∧
        query.minimum.getD 0 ≤ (query.should.map (Clause.holds leaf)).count true := by
  simp only [holds, Clause.verdict, List.isEmpty_map, List.isEmpty_nil, List.any_nil,
    Bool.not_false, Bool.and_true, Bool.or_eq_true, Bool.and_eq_true, List.isEmpty_iff,
    List.all_map, List.all_eq_true, Function.comp_apply, id_eq, decide_eq_true_eq]
  -- a query without clauses holds because it asks for none
  refine or_iff_right_of_imp ?_
  rintro ⟨hall, hsome⟩
  simp [hall, hsome, h hsome]

theorem holds_push (h : query.Proper) :
    (query.push clause scoring).holds leaf = true ↔
      query.holds leaf = true ∧ Clause.holds leaf clause = true := by
  have hpush : (query.push clause scoring).Proper := by
    cases scoring <;> exact h
  rw [holds_iff h, holds_iff hpush]
  cases scoring <;>
    simp only [push, Bool.false_eq_true, ↓reduceIte, List.mem_append, List.mem_singleton] <;>
    grind

theorem Proper.push? (h : query.Proper) (clause : Option (Json × Bool)) :
    (query.push? clause).Proper := by
  match clause with
  | none => exact h
  | some (clause, true) => exact h
  | some (clause, false) => exact h

theorem holds_push? (h : query.Proper) (clause : Option (Json × Bool)) :
    (query.push? clause).holds leaf = true ↔
      query.holds leaf = true ∧ clause.all (fun found => Clause.holds leaf found.1) = true := by
  cases clause with
  | none => simp [BoolQuery.push?]
  | some found => exact holds_push h

theorem holds_alternatives (clause : Json) (rest : List Json) :
    ({ should := clause :: rest, minimum := some 1 } : BoolQuery).holds leaf = true ↔
      ∃ found ∈ clause :: rest, Clause.holds leaf found = true := by
  have hproper : ({ should := clause :: rest, minimum := some 1 } : BoolQuery).Proper :=
    fun hnil => absurd hnil (List.cons_ne_nil _ _)
  rw [holds_iff hproper]
  simp [List.one_le_count_iff]

theorem holds_append_filter (leaf : Json → Bool) (h : query.Proper) (clause : Option Json) :
    ({ query with filter := query.filter ++ clause.toList } : BoolQuery).holds leaf = true ↔
      query.holds leaf = true ∧ clause.all (Clause.holds leaf) = true := by
  cases clause with
  | none => simp
  | some clause =>
    have hpush : (query.push clause false).holds leaf = true ↔ _ := holds_push h
    exact hpush

end BoolQuery

/-! ### Access rules -/

namespace Filter

variable {leaf : Json → Bool} {addressing : Addressing} {fields : FieldSet}
  {filters : List Filter}

theorem verdicts_eq_map (h : ∀ filter ∈ filters, filter.isEmpty = false) :
    verdicts leaf addressing fields filters = filters.map (holds leaf addressing fields) := by
  induction filters with
  | nil => rfl
  | cons filter rest ih =>
    obtain ⟨hfilter, hrest⟩ := List.forall_mem_cons.1 h
    simp [verdicts, hfilter, ih hrest]

theorem leavesOf_eq_flatMap (filters : List Filter) :
    leavesOf filters = filters.flatMap leaves := by
  induction filters with
  | nil => rfl
  | cons filter rest ih => rw [leavesOf, ih, List.flatMap_cons]

/-- One of several filters is satisfied if one of them is, or if there is none. -/
theorem admits_oneOf (h : ∀ filter ∈ filters, filter.isEmpty = false) :
    admits leaf addressing fields (AccessRule.oneOf filters) = true ↔
      filters = [] ∨ ∃ filter ∈ filters, filter.holds leaf addressing fields = true := by
  match filters with
  | [] => simp [AccessRule.oneOf, admits, nonEmpty?]
  | [filter] => simp [AccessRule.oneOf, admits, nonEmpty?, h filter]
  | first :: second :: rest =>
    have hor : Operator.ofName? "or" = some .any := rfl
    have hverdicts : verdicts leaf addressing fields (first :: second :: rest) = _ :=
      verdicts_eq_map h
    simp [AccessRule.oneOf, admits, nonEmpty?, disj, isEmpty, holds, hor, hverdicts]

theorem isFullText_oneOf :
    (∃ given, AccessRule.oneOf filters = some given ∧ given.IsFullText) ↔
      ∃ filter ∈ filters, filter.IsFullText := by
  match filters with
  | [] => simp [AccessRule.oneOf]
  | [filter] => simp [AccessRule.oneOf]
  | first :: second :: rest =>
    have hor : Operator.ofName? "or" = some .any := rfl
    simp only [AccessRule.oneOf, disj, Option.some.injEq, exists_eq_left', IsFullText, leaves, hor,
      leavesOf_eq_flatMap, List.mem_flatMap]
    grind

end Filter

namespace Query

variable {leaf : Json → Bool} {addressing : Addressing} {fields : FieldSet} {query : Query}
  {settings : QuerySettings} {grant : Grant}

/-- Does a document satisfy the access rules of a query? It has to satisfy one of the row filters,
if there are any. -/
def Permits (leaf : Json → Bool) (addressing : Addressing) (fields : FieldSet) (query : Query) :
    Prop :=
  (∀ rule ∈ query.rules, rule.restriction? = none) ∨
    ∃ rule ∈ query.rules, ∃ filter, rule.restriction? = some filter ∧
      filter.holds leaf addressing fields = true

theorem grant_filter [Readers] (h : query.grant settings fields = .ok grant) :
    grant.filter = AccessRule.oneOf (query.rules.filterMap AccessRule.restriction?) := by
  rw [Query.grant] at h
  split at h
  · next hrules =>
    cases h
    rw [List.isEmpty_iff.1 hrules]
    rfl
  · obtain ⟨-, h⟩ := Result.bind_unit_eq_ok.1 (Result.mapError_eq_ok.1 h)
    cases h
    rfl

theorem mem_restrictions {filter : Filter} :
    filter ∈ query.rules.filterMap AccessRule.restriction? ↔
      ∃ rule ∈ query.rules, rule.restriction? = some filter :=
  List.mem_filterMap

/-- The filter of a grant means the access rules. -/
theorem admits_grant [Readers] (h : query.grant settings fields = .ok grant) :
    Filter.admits leaf addressing fields grant.filter = true ↔
      query.Permits leaf addressing fields := by
  have hnonempty : ∀ filter ∈ query.rules.filterMap AccessRule.restriction?,
      filter.isEmpty = false := by
    intro filter hfilter
    obtain ⟨rule, -, hrule⟩ := mem_restrictions.1 hfilter
    exact (Filter.nonEmpty?_eq_some.1 hrule).2
  rw [grant_filter h, Filter.admits_oneOf hnonempty, List.filterMap_eq_nil_iff]
  simp only [mem_restrictions, Permits]
  grind

theorem isFullText_grant [Readers] (h : query.grant settings fields = .ok grant) :
    (∃ given, grant.filter = some given ∧ given.IsFullText) ↔
      ∃ rule ∈ query.rules, ∃ filter, rule.rowFilter = some filter ∧ filter.IsFullText := by
  rw [grant_filter h, Filter.isFullText_oneOf]
  simp only [mem_restrictions, AccessRule.restriction?, Filter.nonEmpty?_eq_some]
  constructor
  · rintro ⟨filter, ⟨rule, hrule, hfilter, -⟩, hfull⟩
    exact ⟨rule, hrule, filter, hfilter, hfull⟩
  · rintro ⟨rule, hrule, filter, hfilter, hfull⟩
    exact ⟨filter, ⟨rule, hrule, hfilter, hfull.isEmpty_eq_false⟩, hfull⟩

end Query

/-! ### The scope -/

namespace Node

variable {leaf : Json → Bool} {routes : NodeRoutes} {node : Node}

/-- The clause of the documents in one of the indices. -/
def inIndices (indices : List String) : Json :=
  Clause.single "terms" (Clause.single "_index" (.strings indices))

/-- Does a view node give a document? It lies in an index of the node and satisfies its filter. -/
def Admits (leaf : Json → Bool) (routes : NodeRoutes) (node : Node) : Prop :=
  ∃ viewId filter distinct source, node.config = .view viewId filter distinct (some source) ∧
    leaf (inIndices ((routes.get? node.id).getD [])) = true ∧
    Filter.admits leaf .byName source.fields filter = true

/-- Has a view node a filter with a full-text leaf? -/
def IsFullText (node : Node) : Prop :=
  ∃ viewId filter distinct source, node.config = .view viewId (some filter) distinct source ∧
    filter.IsFullText

theorem branch_spec (leaf : Json → Bool) {id : String} {filter : Option Filter} {source : View}
    {branch : Json × Bool} (h : Node.branch routes id filter source = .ok branch) :
    (Clause.holds leaf branch.1 = true ↔
        leaf (inIndices ((routes.get? id).getD [])) = true ∧
          Filter.admits leaf .byName source.fields filter = true) ∧
      (branch.2 = true ↔ ∃ given, filter = some given ∧ given.IsFullText) := by
  obtain ⟨clause, hclause, h⟩ := Result.bind_eq_ok.1 h
  obtain rfl := Except.ok.inj h
  have hspec : _ = Filter.admits leaf .byName source.fields filter ∧ _ :=
    Filter.clause?_spec (Result.mapError_eq_ok.1 hclause)
  have hindices : Clause.holds leaf (inIndices ((routes.get? id).getD [])) =
      leaf (inIndices ((routes.get? id).getD [])) := rfl
  have hproper : ({ filter := [inIndices ((routes.get? id).getD [])] } : BoolQuery).Proper :=
    fun _ => rfl
  refine ⟨?_, hspec.2⟩
  rw [BoolQuery.holds_clause]
  refine (BoolQuery.holds_push? hproper clause).trans ?_
  rw [hspec.1, BoolQuery.holds_iff hproper]
  simp [hindices]

/-- The clause of a node, if it has one, means the node; only view nodes have one. -/
theorem branch?_spec (leaf : Json → Bool) {branch : Option (Json × Bool)}
    (h : node.branch? routes = .ok branch) :
    ((∃ found ∈ branch, Clause.holds leaf found.1 = true) ↔ node.Admits leaf routes) ∧
      ((∃ found ∈ branch, found.2 = true) ↔ node.IsFullText) := by
  rw [branch?] at h
  split at h
  · cases h
  · next viewId filter distinct source hconfig =>
    obtain ⟨found, hfound, rfl⟩ := Result.map_eq_ok.1 h
    obtain ⟨hholds, hscores⟩ := branch_spec leaf hfound
    simp [hholds, hscores, Admits, IsFullText, hconfig]
  · next columns filter hconfig =>
    obtain rfl := Except.ok.inj h
    simp [Admits, IsFullText, hconfig]
  · cases h
  · next hconfig =>
    obtain rfl := Except.ok.inj h
    simp [Admits, IsFullText, hconfig]
  · cases h

theorem allBranches_spec (leaf : Json → Bool) {nodes : List Node} {branches : List (Json × Bool)}
    (h : allBranches routes nodes = .ok branches) :
    ((∃ found ∈ branches, Clause.holds leaf found.1 = true) ↔
        ∃ node ∈ nodes, node.Admits leaf routes) ∧
      ((∃ found ∈ branches, found.2 = true) ↔ ∃ node ∈ nodes, node.IsFullText) := by
  induction nodes generalizing branches with
  | nil =>
    obtain rfl := Except.ok.inj h
    simp
  | cons node rest ih =>
    obtain ⟨first, hfirst, h⟩ := Result.bind_eq_ok.1 h
    obtain ⟨others, hothers, h⟩ := Result.bind_eq_ok.1 h
    obtain rfl := Except.ok.inj h
    obtain ⟨hholds, hscores⟩ := branch?_spec leaf (Result.mapError_eq_ok.1 hfirst)
    obtain ⟨hrest, hscoring⟩ := ih hothers
    simp only [Option.mem_def] at hholds hscores
    simp only [List.mem_append, Option.mem_toList, or_and_right, exists_or, hholds, hrest, hscores,
      hscoring, List.mem_cons, exists_eq_left, and_self]

end Node

namespace View

variable {view : View} {settings : QuerySettings} {query : Query} {pagination : Pagination}
  {routes : NodeRoutes}

/-- **A scope query finds the documents of the view nodes**, and everything if the view is
atomic. -/
theorem scopeQuery_spec (leaf : Json → Bool) {scope : BoolQuery} {scoring : Bool}
    (h : view.scopeQuery routes = .ok (scope, scoring)) :
    scope.Proper ∧
      (scope.holds leaf = true ↔
        (view.isAtomic = false → ∃ node ∈ view.scope, node.Admits leaf routes)) ∧
      (scoring = true ↔ view.isAtomic = false ∧ ∃ node ∈ view.scope, node.IsFullText) := by
  rw [scopeQuery] at h
  split at h
  · next hatomic =>
    cases h
    exact ⟨fun _ => rfl, by simp [hatomic, BoolQuery.holds, Clause.verdict], by simp [hatomic]⟩
  · next hatomic =>
    rw [Bool.not_eq_true] at hatomic
    obtain ⟨branches, hbranches, h⟩ := Result.bind_eq_ok.1 h
    obtain ⟨hholds, hscores⟩ := Node.allBranches_spec leaf hbranches
    simp only [hatomic, forall_const, true_and, ← hholds, ← hscores]
    -- one clause filters, several are alternatives
    rcases branches with - | ⟨first, - | ⟨second, rest⟩⟩
    · cases h
    · cases h
      have hproper : ({ filter := [first.1] } : BoolQuery).Proper := fun _ => rfl
      exact ⟨hproper, by simp [BoolQuery.holds_iff hproper], by simp⟩
    · cases h
      refine ⟨fun hnil => absurd hnil (List.cons_ne_nil _ _),
        (BoolQuery.holds_alternatives _ _).trans ?_, List.any_eq_true⟩
      rw [← List.map_cons]
      simp only [List.mem_map, exists_exists_and_eq_and]

/-! ### The request -/

/-- The clause of a time window, with the bounds that are not zero. -/
def window (start stop : Int) : Json :=
  Clause.single "range" (Clause.single "@timestamp" (.object
    ((if start = 0 then [] else [("gte", .int start)]) ++
      if stop = 0 then [] else [("lte", .int stop)])))

/-- Does a search of the view for a query find a document? -/
structure Finds (leaf : Json → Bool) (routes : NodeRoutes) (view : View) (query : Query) :
    Prop where
  /-- A document of a custom view is one of a view node. -/
  scope : view.isAtomic = false → ∃ node ∈ view.scope, node.Admits leaf routes
  /-- It lies in the time window, of which a bound of zero is none. -/
  window : query.start ≠ 0 ∨ query.stop ≠ 0 → leaf (window query.start query.stop) = true
  /-- It satisfies the filter of the query. -/
  filter : Filter.admits leaf view.addressing view.fields query.filter = true
  /-- It satisfies the access rules of the query. -/
  rules : query.Permits leaf view.addressing view.fields

/-- Does a search of the view for a query score? One of the filters has a full-text leaf. -/
def Scores (view : View) (query : Query) : Prop :=
  (view.isAtomic = false ∧ ∃ node ∈ view.scope, node.IsFullText) ∨
    (∃ filter, query.filter = some filter ∧ filter.IsFullText) ∨
    ∃ rule ∈ query.rules, ∃ filter, rule.rowFilter = some filter ∧ filter.IsFullText

theorem all_timeRange (leaf : Json → Bool) (start stop : Int) :
    (timeRange start stop).all (Clause.holds leaf) = true ↔
      (start ≠ 0 ∨ stop ≠ 0 → leaf (window start stop) = true) := by
  have horder : ¬ "lte" < "gte" := by decide
  by_cases hstart : start = 0 <;> by_cases hstop : stop = 0 <;>
    simp [timeRange, window, hstart, hstop, Clause.range, Clause.single, Clause.holds,
      Json.ofMembers, KeyMap.ofList, KeyMap.insert, KeyMap.empty, horder]

/-- The clauses of a search ask for what the search finds. -/
theorem documents_spec [Readers] (leaf : Json → Bool) {all : BoolQuery} {scoring : Bool}
    {grant : Grant} (h : view.documents settings query routes = .ok (all, scoring, grant)) :
    (all.holds leaf = true ↔ view.Finds leaf routes query) ∧
      (scoring = true ↔ view.Scores query) := by
  obtain ⟨⟨scope, scopeScores⟩, hscope, h⟩ := Result.bind_eq_ok.1 h
  obtain ⟨filter, hfilter, h⟩ := Result.bind_eq_ok.1 h
  obtain ⟨granted, hgrant, h⟩ := Result.bind_eq_ok.1 h
  obtain ⟨rows, hrows, h⟩ := Result.bind_eq_ok.1 h
  cases h
  obtain ⟨hproper, hfinds, hscores⟩ := scopeQuery_spec leaf (Result.mapError_eq_ok.1 hscope)
  have hfilter : _ = Filter.admits leaf view.addressing view.fields query.filter ∧ _ :=
    Filter.clause?_spec (Result.mapError_eq_ok.1 hfilter)
  have hrows : _ = Filter.admits leaf view.addressing view.fields grant.filter ∧ _ :=
    Filter.clause?_spec (Result.mapError_eq_ok.1 hrows)
  have hranges : ({ scope with
      filter := scope.filter ++ (timeRange query.start query.stop).toList } : BoolQuery).Proper :=
    hproper
  have hranged := BoolQuery.holds_append_filter leaf hproper (timeRange query.start query.stop)
  constructor
  · rw [BoolQuery.holds_push? (.push? hranges filter), BoolQuery.holds_push? hranges, hranged,
      hfinds, hfilter.1, hrows.1, Query.admits_grant hgrant, all_timeRange]
    exact ⟨fun ⟨⟨⟨hscope, hwindow⟩, hfilter⟩, hrules⟩ => ⟨hscope, hwindow, hfilter, hrules⟩,
      fun ⟨hscope, hwindow, hfilter, hrules⟩ => ⟨⟨⟨hscope, hwindow⟩, hfilter⟩, hrules⟩⟩
  · simp only [Bool.or_eq_true, scores, hscores, hfilter.2, hrows.2,
      Query.isFullText_grant hgrant, Scores, or_assoc]

end View

namespace SearchRequest

variable (request : SearchRequest) (pagination : Pagination)

@[simp] theorem onPage_query : (request.onPage pagination).query = request.query := by
  cases pagination <;> rfl

@[simp] theorem onPage_trackScores :
    (request.onPage pagination).trackScores = request.trackScores := by
  cases pagination <;> rfl

theorem encode_query :
    request.encode.member? "query" =
      some (Clause.single "bool" (.object request.query.members)) := by
  simp only [encode, Json.member?, Json.members?, Option.bind_some, KeyMap.get?_append,
    KeyMap.get?_ite, KeyMap.get?_map_toList, KeyMap.get?_cons, KeyMap.get?_nil]
  simp

theorem encode_trackScores :
    request.encode.member? "track_scores" = some (.bool true) ↔ request.trackScores = true := by
  simp only [encode, Json.member?, Json.members?, Option.bind_some, KeyMap.get?_append,
    KeyMap.get?_ite, KeyMap.get?_map_toList, KeyMap.get?_cons, KeyMap.get?_nil]
  simp

theorem encode_pit : request.encode.member? "pit" = request.pit.map PointInTime.encode := by
  simp only [encode, Json.member?, Json.members?, Option.bind_some, KeyMap.get?_append,
    KeyMap.get?_ite, KeyMap.get?_map_toList, KeyMap.get?_cons, KeyMap.get?_nil]
  simp

theorem encode_searchAfter :
    request.encode.member? "search_after" =
      if request.searchAfter = [] then none else some (.array request.searchAfter) := by
  simp only [encode, Json.member?, Json.members?, Option.bind_some, KeyMap.get?_append,
    KeyMap.get?_ite, KeyMap.get?_map_toList, KeyMap.get?_cons, KeyMap.get?_nil]
  by_cases hcursor : request.searchAfter = [] <;> simp [hcursor]

theorem encode_sort :
    request.encode.member? "sort" =
      if request.sort = [] then none else some (.array (request.sort.map SortClause.encode)) := by
  simp only [encode, Json.member?, Json.members?, Option.bind_some, KeyMap.get?_append,
    KeyMap.get?_ite, KeyMap.get?_map_toList, KeyMap.get?_cons, KeyMap.get?_nil]
  by_cases hsort : request.sort = [] <;> simp [hsort]

end SearchRequest

namespace View

variable {view : View} {settings : QuerySettings} {query : Query} {pagination : Pagination}
  {routes : NodeRoutes}

theorem searchRequest_parts [Readers] {request : SearchRequest} {visible : FieldSet}
    (h : view.searchRequest settings query pagination routes = .ok (request, visible)) :
    ∃ scoring grant sort,
      view.documents settings query routes = .ok (request.query, scoring, grant) ∧
      SortClause.ofKeys view.fields query.sort = .ok sort ∧
      request.sort = SortClause.completed sort view.engine pagination.isCursor ∧
      request.trackScores = scoring := by
  obtain ⟨⟨documents, scoring, grant⟩, hdocuments, h⟩ := Result.bind_eq_ok.1 h
  obtain ⟨sort, hsort, h⟩ := Result.bind_eq_ok.1 h
  cases h
  cases pagination <;> exact ⟨scoring, grant, sort, hdocuments, hsort, rfl, rfl⟩

theorem searchRequest_cursor [Readers] {request : SearchRequest} {visible : FieldSet}
    {cursor : List Json} {pitId keepAlive : Option String}
    (h : view.searchRequest settings query (.searchAfter cursor pitId keepAlive) routes =
      .ok (request, visible)) :
    request.searchAfter = cursor ∧ request.pit = pitId.map fun id => { id, keepAlive } := by
  obtain ⟨documents, -, h⟩ := Result.bind_eq_ok.1 h
  obtain ⟨sort, -, h⟩ := Result.bind_eq_ok.1 h
  cases h
  exact ⟨rfl, rfl⟩

/-- **A search finds the documents that lie in the scope and in the time window and satisfy the
filter and the access rules.** It scores if one of the filters has a full-text leaf, and the
matches are counted by the same clauses. -/
theorem searchRequest_finds [Readers] {request : SearchRequest} {visible : FieldSet}
    (h : view.searchRequest settings query pagination routes = .ok (request, visible)) :
    ∃ members : List (String × Json),
      request.encode.member? "query" = some (Clause.single "bool" (.object members)) ∧
      request.count = Clause.single "query" (Clause.single "bool" (.ofMembers members)) ∧
      (∀ leaf : Json → Bool,
        (Clause.holds leaf (Clause.single "bool" (.object members)) = true ↔
          view.Finds leaf routes query) ∧
        (Clause.holds leaf (Clause.single "bool" (.ofMembers members)) = true ↔
          view.Finds leaf routes query)) ∧
      (request.encode.member? "track_scores" = some (.bool true) ↔ view.Scores query) := by
  obtain ⟨⟨all, scoring, grant⟩, hdocuments, h⟩ := Result.bind_eq_ok.1 h
  obtain ⟨sort, -, h⟩ := Result.bind_eq_ok.1 h
  cases h
  refine ⟨all.members, ?_, ?_, fun leaf => ?_, ?_⟩
  · rw [SearchRequest.encode_query, SearchRequest.onPage_query]
  · rw [SearchRequest.count, SearchRequest.onPage_query]
    rfl
  · obtain ⟨hfinds, -⟩ := documents_spec leaf hdocuments
    rw [Json.ofMembers, BoolQuery.holds_single (.inl rfl), BoolQuery.holds_single (.inr rfl)]
    exact ⟨hfinds, hfinds⟩
  · obtain ⟨-, hscores⟩ := documents_spec (fun _ => true) hdocuments
    rw [SearchRequest.encode_trackScores, SearchRequest.onPage_trackScores, ← hscores]

/-- A view of the documents of two base types, one of them filtered. -/
def twoTypes : View where
  id := "traffic"
  kind := .custom
  fields := .ofList [.ofName "user" .keyword, .ofName "note" .text]
  scope :=
    [{ id := "visits", config := .view "v" (some (.leaf "user" "==" (.string "ada"))) {}
        (some { View.atomic "v" "visits" .indexBase with
          fields := .ofList [.ofName "user" .keyword] }) },
      { id := "logins", config := .view "l" none {} (some (.atomic "l" "logins" .indexBase)) },
      { id := "both", inputs := ["visits", "logins"], config := .union .all [] none },
      { id := "out", inputs := ["both"], config := .output }]

/-- A query with a time window, a filter and access rules. -/
def lateVisits : Query where
  filter := some (.leaf "note" "match" (.string "late"))
  start := 1700000000000
  rules := [{ rowFilter := some (.leaf "user" "!=" (.string "root")) }, { name := "all rows" }]

theorem searchRequest_finds_twoTypes :
    ∃ request visible,
      twoTypes.searchRequest {} lateVisits (.offset 0) [("visits", ["x-visits-1"])] =
          .ok (request, visible) ∧
        ∃ members : List (String × Json),
          request.encode.member? "query" = some (Clause.single "bool" (.object members)) ∧
          request.count = Clause.single "query" (Clause.single "bool" (.ofMembers members)) ∧
          (∀ leaf : Json → Bool,
            (Clause.holds leaf (Clause.single "bool" (.object members)) = true ↔
              twoTypes.Finds leaf [("visits", ["x-visits-1"])] lateVisits) ∧
            (Clause.holds leaf (Clause.single "bool" (.ofMembers members)) = true ↔
              twoTypes.Finds leaf [("visits", ["x-visits-1"])] lateVisits)) ∧
          (request.encode.member? "track_scores" = some (.bool true) ↔
            twoTypes.Scores lateVisits) := by
  have hrequest :
      twoTypes.searchRequest {} lateVisits (.offset 0) [("visits", ["x-visits-1"])] =
        .ok (_, _) := rfl
  exact ⟨_, _, hrequest, searchRequest_finds hrequest⟩

end View

end ViewCompiler
